import ImageGallery.Number.Binary64
import ImageGallery.Text.Integer

/-!
# JSON numerals

A numeral is an integer, or a decimal number with a fraction or an exponent. The digits of a numeral
count as far as they make up a natural number of 64 bits. When there is no room for a digit of the
integer part, it and those after it in the integer part only raise the power of ten; when there is
none for a digit of the fraction, it and those after it have no effect.
-/

namespace ImageGallery.Json

/-- A numeral. -/
inductive Numeral where
  /-- Digits without fraction and exponent, after an optional minus sign. -/
  | integer (negative : Bool) (digits : Nat)
  /-- Digits times a power of ten. -/
  | decimal (negative : Bool) (digits : Nat) (exponent : Int)
deriving DecidableEq, Inhabited

namespace Numeral

/-- The number that digits make up has to be below this one. -/
def room : Nat := 18446744073709551616

/-- Append digits to a number as long as there is room, and keep the other digits. -/
def appendWithRoom (start : Nat) : List Char → Nat × List Char
  | [] => (start, [])
  | digit :: digits =>
    let next := 10 * start + Text.digitValue digit
    if next < room then appendWithRoom next digits else (start, digit :: digits)

/-- The numeral with the given integer part, fraction and exponent. -/
def ofParts (negative : Bool) (whole fraction : List Char) (power : Option Int) : Numeral :=
  let (start, dropped) := appendWithRoom 0 whole
  if fraction = [] ∧ power = none ∧ dropped = [] then integer negative start
  else
    let (digits, ignored) := appendWithRoom start fraction
    decimal negative digits
      (power.getD 0 + dropped.length - ((fraction.length : Int) - ignored.length))

/-- The binary number of 64 bits for the numeral, if the numeral is in range. -/
def toBinary64? : Numeral → Option Number.Binary64
  | integer negative digits => Number.Binary64.ofScientific? negative digits 0
  | decimal negative digits exponent => Number.Binary64.ofScientific? negative digits exponent

/-- The numeral of an integer. -/
def ofInt : Int → Numeral
  | Int.ofNat value => integer false value
  | Int.negSucc value => integer true (value + 1)

end Numeral

end ImageGallery.Json
