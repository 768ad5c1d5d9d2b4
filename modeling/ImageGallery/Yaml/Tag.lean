import ImageGallery.Text.Integer
import ImageGallery.Yaml.Cursor

/-!
# Tags and anchors

A node may carry an anchor, by which others refer to it, and a tag, which names its type. A tag is
written in full between angle brackets, or as a handle and a suffix; the directives in front of the
document say what the handle stands for. Tags are sequences of bytes: a percent sign and two digits
stand for any byte, as long as the bytes have the shape of UTF-8.
-/

namespace ImageGallery.Yaml

/-! ## Anchors -/

/-- The marks that may follow the name of an anchor. -/
def followsName : List Char → Bool
  | [] => true
  | char :: ahead =>
    endsWord (char :: ahead) || ['?', ':', ',', ']', '\x7d', '%', '@', '\x60'].contains char

/-- Read the name of an anchor. -/
def readName (cursor : Cursor) : Option (String × Cursor) :=
  let (name, after) := cursor.takeWhile isNameChar
  if name ≠ [] ∧ followsName after.ahead then some (String.ofList name, after) else none

/-! ## Tags -/

/-- The full name of a type. -/
abbrev Tag := List UInt8

/-- The tag with a text of ASCII characters. -/
def Tag.ofString (text : String) : Tag :=
  text.toList.map Char.toUInt8

/-- A tag as it is written: its handle, which is empty if the tag is written in full, and what
follows the handle. -/
structure TagText where
  handle : List Char
  suffix : Tag
deriving DecidableEq, Inhabited

/-- The marks that may stand in a tag. -/
def tagMarks : List Char :=
  ['-', '_', ';', '/', '?', ':', '@', '&', '=', '+', '$', '.', '!', '~', '*', '\x27', '(', ')', '%']

/-- The characters that a tag is made of. -/
def isTagChar (char : Char) : Bool :=
  char.isAlphanum || tagMarks.contains char

/-- The characters that a tag between angle brackets is made of. -/
def isWideTagChar (char : Char) : Bool :=
  isTagChar char || char = ',' || char = '[' || char = ']'

/-- The number of bytes that follow the first byte of a character. -/
def trailing? (first : Nat) : Option Nat :=
  if first < 0x80 then some 0
  else if first < 0xC0 then none
  else if first < 0xE0 then some 1
  else if first < 0xF0 then some 2
  else if first < 0xF8 then some 3
  else none

/-- The bytes that escapes and other characters of a tag stand for. `missing` is the number of bytes
that the character begun by the last escape still lacks. -/
def decodeFrom : (missing : Nat) → List Char → Option (List UInt8)
  | 0, [] => some []
  | _ + 1, [] => none
  | missing, '%' :: high :: low :: chars => do
    let octet := 16 * (← Text.hexValue? high) + (← Text.hexValue? low)
    let missing ←
      if missing = 0 then trailing? octet
      else if 0x80 ≤ octet ∧ octet < 0xC0 then some (missing - 1)
      else none
    return octet.toUInt8 :: (← decodeFrom missing chars)
  | 0, char :: chars => if char = '%' then none else (decodeFrom 0 chars).map (char.toUInt8 :: ·)
  | _ + 1, _ :: _ => none

/-- The bytes that the characters of a tag stand for, up to a zero byte. -/
def decodeTag? (chars : List Char) : Option Tag :=
  (decodeFrom 0 chars).map (·.takeWhile (· ≠ 0))

/-- Read a tag handle: a mark, or a name between two marks. -/
def readHandle (cursor : Cursor) : Option (List Char × Cursor) := do
  let afterMark ← cursor.expect '!'
  let (name, after) := afterMark.takeWhile isNameChar
  match after.expect '!' with
  | some rest => return ('!' :: name ++ ['!'], rest)
  | none => if name = [] then return (['!'], after) else none

/-- Read bytes of a tag, of which there has to be at least one character. -/
def readTagPart (isPart : Char → Bool) (cursor : Cursor) : Option (Tag × Cursor) := do
  let (chars, rest) := cursor.takeWhile isPart
  if chars = [] then none else return (← decodeTag? chars, rest)

/-- Read a tag. The mark alone says that a node has no special type. -/
def readTag (cursor : Cursor) : Option (TagText × Cursor) := do
  let afterMark ← cursor.expect '!'
  match afterMark.expect '<' with
  | some inner =>
    let (suffix, after) ← readTagPart isWideTagChar inner
    return (⟨[], suffix⟩, ← after.expect '>')
  | none =>
    match readHandle cursor with
    | some (handle, after) =>
      if handle = ['!'] then readSuffix afterMark
      else
        let (suffix, rest) ← readTagPart isTagChar after
        return (⟨handle, suffix⟩, rest)
    | none => readSuffix afterMark
where
  /-- Read what follows a mark without a name of a handle. -/
  readSuffix (cursor : Cursor) : Option (TagText × Cursor) := do
    let (chars, rest) := cursor.takeWhile isTagChar
    let suffix ← decodeTag? chars
    return (if suffix = [] then ⟨[], ['!'.toUInt8]⟩ else ⟨['!'], suffix⟩, rest)

/-! ## Directives -/

/-- What a line in front of a document says. -/
inductive Directive where
  /-- The version of the language that the document is written in. -/
  | version (major minor : Nat)
  /-- A tag handle, and what it stands for. -/
  | handle (name : List Char) (meaning : Tag)
deriving DecidableEq, Inhabited

namespace Directive

/-- Read a number of a version, which has nine digits at most. -/
def readNumber (cursor : Cursor) : Option (Nat × Cursor) :=
  let (digits, rest) := cursor.takeWhile Char.isDigit
  if digits = [] ∨ 9 < digits.length then none
  else some (digits.foldl (fun value digit => 10 * value + (digit.toNat - '0'.toNat)) 0, rest)

/-- Read the two numbers of a version. -/
def readVersion (cursor : Cursor) : Option (Directive × Cursor) := do
  let (major, afterMajor) ← readNumber cursor
  let (minor, rest) ← readNumber (← afterMajor.expect '.')
  return (version major minor, rest)

/-- Read a tag handle and what it stands for. -/
def readMeaning (cursor : Cursor) : Option (Directive × Cursor) := do
  let (name, after) ← readHandle cursor
  if after.next?.any isGap then
    let (meaning, rest) ← readTagPart isWideTagChar (after.dropWhile isGap)
    if endsWord rest.ahead then return (handle name meaning, rest) else none
  else none

/-- Read a directive and the rest of its line. -/
def read (cursor : Cursor) : Option (Directive × Cursor) := do
  let (name, after) := (← cursor.expect '%').takeWhile isNameChar
  let content := after.dropWhile isGap
  if endsWord after.ahead then
    let (directive, rest) ←
      match String.ofList name with
      | "YAML" => readVersion content
      | "TAG" => readMeaning content
      | _ => none
    return (directive, ← rest.finishLine)
  else none

end Directive

/-- Tag handles and what they stand for. -/
abbrev Handles := List (List Char × Tag)

namespace Handles

/-- What handles stand for that no directive declares. -/
def standard : Handles :=
  [(['!'], .ofString "!"), (['!', '!'], .ofString "tag:yaml.org,2002:")]

/-- The handles that the directives of a document declare, in front of the standard ones. Nothing
may be said twice, and the version has to be 1.1 or 1.2. -/
def ofDirectives? (directives : List Directive) : Option Handles :=
  let versions := directives.filterMap fun
    | .version major minor => some (major, minor)
    | .handle .. => none
  let declared := directives.filterMap fun
    | .version .. => none
    | .handle name meaning => some (name, meaning)
  if versions.length ≤ 1 ∧ versions.all (fun version => version = (1, 1) || version = (1, 2)) ∧
      (declared.map (·.1)).Nodup then
    some (declared ++ standard)
  else none

/-- The tag that a text stands for, unless its handle is unknown. -/
def resolve? (handles : Handles) (text : TagText) : Option Tag :=
  if text.handle = [] then some text.suffix
  else (handles.lookup text.handle).map (· ++ text.suffix)

end Handles

end ImageGallery.Yaml
