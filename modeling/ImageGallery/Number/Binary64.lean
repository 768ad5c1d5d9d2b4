/-!
# Binary numbers of 64 bits

A finite binary number is a mantissa times a power of two. Fractions, products and quotients are
rounded to the nearest one: ties go to the even mantissa, numbers below the least exponent lose
bits, and numbers from `2 ^ 1024` on have none. All steps are exact integer arithmetic. A decimal
number is rounded in three steps, its digits, its power of ten and their product, so that it does
not always get the nearest binary number.
-/

namespace ImageGallery.Number

/-- A finite binary number: its sign, and a mantissa times a power of two. -/
structure Binary64 where
  /-- Whether the number carries a minus sign; zero may carry one. -/
  negative : Bool
  /-- The mantissa, at most `2 ^ 53`. -/
  mantissa : Nat
  /-- The power of two that the mantissa is multiplied with. -/
  exponent : Int
deriving DecidableEq, Inhabited

namespace Binary64

/-- The quotient rounded to the nearest integer, a half to the even neighbour. -/
def roundHalfEven (numerator denominator : Nat) : Nat :=
  let quotient := numerator / denominator
  let remainder := numerator % denominator
  if 2 * remainder < denominator then quotient
  else if denominator < 2 * remainder then quotient + 1
  else quotient + quotient % 2

/-- A fraction divided by a power of two, as a fraction. -/
def scale (numerator denominator : Nat) (exponent : Int) : Nat × Nat :=
  if 0 ≤ exponent then (numerator, denominator * Nat.pow 2 exponent.toNat)
  else (numerator * Nat.pow 2 (-exponent).toNat, denominator)

/-- The least exponent of a binary number of 64 bits. -/
def leastExponent : Int := -1074

/-- The power of two at which a positive fraction has a mantissa of 53 bits, or the least one. -/
def exponentOf (numerator denominator : Nat) : Int :=
  let bits : Int := numerator.log2 - denominator.log2
  let scaled := scale numerator denominator bits
  max leastExponent (if scaled.2 ≤ scaled.1 then bits - 52 else bits - 53)

/-- The nearest binary number of a fraction, if it is below `2 ^ 1024`. -/
def nearest? (negative : Bool) (numerator denominator : Nat) : Option Binary64 :=
  if numerator = 0 then
    some ⟨negative, 0, 0⟩
  else
    let exponent := exponentOf numerator denominator
    let scaled := scale numerator denominator exponent
    let mantissa := roundHalfEven scaled.1 scaled.2
    if exponent < 971 ∨ (exponent = 971 ∧ mantissa < Nat.pow 2 53) then
      some ⟨negative, mantissa, exponent⟩
    else
      none

/-- The product rounded to the nearest binary number, if it is in range. -/
def mul? (first second : Binary64) : Option Binary64 :=
  let exponent := first.exponent + second.exponent
  let scaled := scale (first.mantissa * second.mantissa) 1 (-exponent)
  nearest? (first.negative ^^ second.negative) scaled.1 scaled.2

/-- The quotient rounded to the nearest binary number, if it is in range. The divisor is not
zero. -/
def div? (first second : Binary64) : Option Binary64 :=
  let exponent := first.exponent - second.exponent
  let scaled := scale first.mantissa second.mantissa (-exponent)
  nearest? (first.negative ^^ second.negative) scaled.1 scaled.2

/-- The greatest power of ten that is in range. -/
def greatestPower : Nat := 308

/-- The nearest binary number of a power of ten that is in range. -/
def tenTo? (power : Nat) : Option Binary64 :=
  nearest? false (Nat.pow 10 power) 1

/-- The binary number for `digits * 10 ^ exponent`, if it is in range: the digits and the power of
ten are rounded first, and then their product or quotient. Below the least power of ten there are
two divisions, and what is smaller by yet another one is zero. -/
def ofScientific? (negative : Bool) (digits : Nat) (exponent : Int) : Option Binary64 := do
  let start ← nearest? negative digits 1
  let power := exponent.natAbs
  if digits = 0 then return start
  else if 0 ≤ exponent then
    if power ≤ greatestPower then start.mul? (← tenTo? power) else none
  else if power ≤ greatestPower then start.div? (← tenTo? power)
  else if power ≤ 2 * greatestPower then
    (← start.div? (← tenTo? greatestPower)).div? (← tenTo? (power - greatestPower))
  else return ⟨negative, 0, 0⟩

/-- The integer of the same value, if the number is integral. -/
def toInteger? (number : Binary64) : Option Int :=
  let magnitude : Option Nat :=
    if 0 ≤ number.exponent then
      some (number.mantissa * Nat.pow 2 number.exponent.toNat)
    else
      let divisor := Nat.pow 2 (-number.exponent).toNat
      if number.mantissa % divisor = 0 then some (number.mantissa / divisor) else none
  magnitude.map fun value => if number.negative then -(value : Int) else value

end Binary64

end ImageGallery.Number
