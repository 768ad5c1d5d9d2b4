import ImageGallery.Text.Integer
import ImageGallery.Text.Utf8

/-!
# Percent encoding

A byte of a text may be written as `%` and two digits to the base 16. A `%` without two
such digits after it stands for itself.
-/

namespace ImageGallery.Text.PercentEncoding

/-- The value of a digit to the base 16, given as a byte. -/
def hexValue? (byte : UInt8) : Option Nat :=
  Text.hexValue? (Char.ofNat byte.toNat)

/-- The byte of `%`. -/
def mark : UInt8 := 37

/-- The bytes that a written text stands for. -/
def decodeBytes : List UInt8 → List UInt8
  | [] => []
  | first :: high :: low :: rest =>
    if first = mark then
      match hexValue? high, hexValue? low with
      | some highValue, some lowValue => (16 * highValue + lowValue).toUInt8 :: decodeBytes rest
      | _, _ => first :: decodeBytes (high :: low :: rest)
    else first :: decodeBytes (high :: low :: rest)
  | first :: rest => first :: decodeBytes rest
termination_by bytes => bytes.length

/-- The text that a written text stands for, if its bytes are the form of one. -/
def decode? (segment : String) : Option String :=
  Text.decode? (decodeBytes (Text.encode segment))

/-- Whether a byte may stand for itself in a segment. -/
def isPlain (byte : UInt8) : Bool :=
  let char := Char.ofNat byte.toNat
  char.isAlphanum || char = '-' || char = '.' || char = '_' || char = '~'

/-- A byte as it is written in a segment. -/
def encodeByte (byte : UInt8) : List Char :=
  if isPlain byte then [Char.ofNat byte.toNat] else '%' :: Text.hexText 2 byte.toNat

/-- A text as it is written in a segment. -/
def encode (text : String) : String :=
  String.ofList ((Text.encode text).flatMap encodeByte)

end ImageGallery.Text.PercentEncoding
