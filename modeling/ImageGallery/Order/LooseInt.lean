import ImageGallery.Json.Value
import ImageGallery.Text.Blank
import ImageGallery.Text.Integer

/-!
# Loosely typed integers

Clients write ids and positions as integers, as numbers with a fraction or an exponent, or as
strings. Each spelling denotes an integer of 64 bits or none.
-/

namespace ImageGallery

/-- An integer as a client wrote it. -/
inductive LooseInt where
  /-- An integer numeral that fits 64 bits. -/
  | integer (value : Int)
  /-- Any other numeral, as a binary number. -/
  | number (value : Number.Binary64)
  | text (value : String)
  /-- A truth value, a list or an object. -/
  | other
deriving DecidableEq, Inhabited

namespace LooseInt

/-- The reading of a numeral. A minus sign in front of zero makes it a binary number. -/
def ofNumeral (numeral : Json.Numeral) : LooseInt :=
  match numeral with
  | .integer negative digits =>
    let value : Int := if negative then -(digits : Int) else digits
    if Text.inSigned64 value ∧ ¬(negative ∧ digits = 0) then integer value
    else (numeral.toBinary64?.map number).getD other
  | .decimal .. => (numeral.toBinary64?.map number).getD other

/-- The reading of a JSON value; `null` is an absent integer. -/
def ofValue? : Json.Value → Option LooseInt
  | .null => none
  | .number numeral => some (ofNumeral numeral)
  | .text value => some (text value)
  | .boolean _ | .list _ | .object _ => some other

/-- The greatest integer of 64 bits. -/
def greatest : Int := 9223372036854775807

/-- The least integer of 64 bits. -/
def least : Int := -9223372036854775808

/-- The integer that a binary number denotes: it has to be integral and within the bounds as they
are rounded to binary numbers. The upper bound is rounded to `2 ^ 63`, which stands for the
greatest integer. -/
def ofBinary64? (value : Number.Binary64) : Option Int := do
  let integral ← value.toInteger?
  if least ≤ integral ∧ integral ≤ greatest + 1 then
    return min integral greatest
  else
    none

/-- The integer that was written, if one was. -/
def coerce? : LooseInt → Option Int
  | integer value => some value
  | number value => ofBinary64? value
  | text value => Text.readSigned64? (Text.trimBlank value.toList)
  | other => none

end LooseInt

end ImageGallery
