/-!
# Text as bytes

The UTF-8 form of a text as a list of bytes. Not every list of bytes is the form of a text.
-/

namespace ImageGallery

/-- A sequence of bytes. -/
abbrev Bytes := List UInt8

namespace Text

/-- The bytes of a text. -/
def encode (text : String) : Bytes :=
  text.toUTF8.toList

/-- The text of some bytes, if they are the form of one. -/
def decode? (bytes : Bytes) : Option String :=
  String.fromUTF8? (ByteArray.mk bytes.toArray)

/-- The number of bytes in the form of a character that starts with the given byte. -/
def formLength (first : UInt8) : Nat :=
  if first < 0x80 then 1 else if first < 0xE0 then 2 else if first < 0xF0 then 3 else 4

/-- The text of some bytes, with a replacement for each byte that belongs to no character. -/
def decodeWith (replacement : List Char) : (fuel : Nat) → Bytes → List Char
  | 0, _ => []
  | _, [] => []
  | fuel + 1, first :: rest =>
    let bytes := first :: rest
    let length := formLength first
    match (decode? (bytes.take length)).map String.toList with
    | some [char] => char :: decodeWith replacement fuel (bytes.drop length)
    | _ => replacement ++ decodeWith replacement fuel rest

end Text

end ImageGallery
