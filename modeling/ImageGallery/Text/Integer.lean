/-!
# Integers in decimal digits

An integer is written as ASCII digits after an optional sign, with any number of leading zeros and
nothing else. Readers give the range that the integer has to lie in.
-/

namespace ImageGallery.Text

/-- The value of a decimal digit. -/
def digitValue (char : Char) : Nat :=
  char.toNat - '0'.toNat

/-- The value of a digit to the base 16, in either case. -/
def hexValue? (char : Char) : Option Nat :=
  if char.isDigit then some (char.toNat - '0'.toNat)
  else if 'a' ≤ char ∧ char ≤ 'f' then some (char.toNat - 'a'.toNat + 10)
  else if 'A' ≤ char ∧ char ≤ 'F' then some (char.toNat - 'A'.toNat + 10)
  else none

/-- Append decimal digits to a number. -/
def appendDigits (start : Nat) (digits : List Char) : Nat :=
  digits.foldl (fun value digit => 10 * value + digitValue digit) start

/-- The number that digits denote, if there is at least one and all are ASCII digits. -/
def readNatural? (chars : List Char) : Option Nat :=
  if chars ≠ [] ∧ chars.all Char.isDigit then some (appendDigits 0 chars) else none

/-- Read digits after an optional sign. -/
def readInteger? : List Char → Option Int
  | '+' :: digits => (readNatural? digits).map Int.ofNat
  | '-' :: digits => (readNatural? digits).map fun value => -Int.ofNat value
  | digits => (readNatural? digits).map Int.ofNat

/-- The integers that a signed word of 64 bits holds. -/
def inSigned64 (value : Int) : Bool :=
  decide (-9223372036854775808 ≤ value) && decide (value ≤ 9223372036854775807)

/-- Read an integer that fits a signed word of 64 bits. -/
def readSigned64? (chars : List Char) : Option Int :=
  (readInteger? chars).filter inSigned64

@[simp]
theorem appendDigits_nil (start : Nat) : appendDigits start [] = start :=
  rfl

@[simp]
theorem appendDigits_cons (start : Nat) (digit : Char) (digits : List Char) :
    appendDigits start (digit :: digits) = appendDigits (10 * start + digitValue digit) digits := by
  rw [appendDigits, List.foldl_cons, appendDigits]

/-- The decimal digits of a number, without leading zeros. -/
def naturalText (value : Nat) : List Char :=
  Nat.toDigits 10 value

/-- An integer in decimal digits, after a `-` if it is negative. -/
def integerText : Int → List Char
  | Int.ofNat value => naturalText value
  | Int.negSucc value => '-' :: naturalText (value + 1)

/-- One lower-case digit to the base 16. -/
def hexDigit (value : Nat) : Char :=
  if value < 10 then Char.ofNat ('0'.toNat + value) else Char.ofNat ('a'.toNat + (value - 10))

/-- A number in lower-case digits to the base 16, padded to a width with leading zeros. -/
def hexText : (width : Nat) → Nat → List Char
  | 0, _ => []
  | width + 1, value => hexText width (value / 16) ++ [hexDigit (value % 16)]

/-- A number in decimal digits, padded to a width with leading zeros. -/
def paddedText : (width : Nat) → Nat → List Char
  | 0, _ => []
  | width + 1, value => paddedText width (value / 10) ++ [hexDigit (value % 10)]

end ImageGallery.Text
