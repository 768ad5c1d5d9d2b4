import ImageGallery.Json.Numeral

/-!
# JSON values

The values that a JSON text denotes. Objects keep their members in the order of the text.
-/

namespace ImageGallery.Json

/-- A JSON value. -/
inductive Value where
  | null
  | boolean (value : Bool)
  | number (numeral : Numeral)
  | text (value : String)
  | list (items : List Value)
  | object (members : List (String × Value))
deriving Inhabited

namespace Value

/-- The value of an integer. -/
def ofInt (value : Int) : Value :=
  number (.ofInt value)

/-- The value of a natural number. -/
def ofNat (value : Nat) : Value :=
  number (.integer false value)

/-- The first member of an object with a key. -/
def member? (key : String) : Value → Option Value
  | object members => (members.find? (·.1 = key)).map (·.2)
  | _ => none

end Value

end ImageGallery.Json
