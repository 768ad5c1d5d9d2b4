import ImageGallery.Http.ContentType
import ImageGallery.Text.Integer
import ImageGallery.Text.Utf8

/-!
# Forms

The body of an upload is a form: parts between lines with a boundary, each with headers, an empty
line and its content. A part is a file if it has a file name.

The form starts at the first boundary and ends at a boundary with two dashes after it; what stands
before and after does not matter. A form without an end is refused as a whole.
-/

namespace ImageGallery.Http

/-- A part of a form. -/
structure Part where
  /-- The name of the part's file, if the part is a file. -/
  filename : Option String
  /-- The content type, where the part has a valid one. -/
  contentType : Option String
  content : Bytes
deriving DecidableEq, Inhabited

namespace Form

/-- The end of a line. -/
def lineEnd : Bytes := [13, 10]

/-- The bytes in front of a boundary and after the last one. -/
def dashes : Bytes := [45, 45]

/-- What follows a pattern at the front of some bytes. -/
def after? : (pattern bytes : Bytes) → Option Bytes
  | [], bytes => some bytes
  | _ :: _, [] => none
  | wanted :: pattern, byte :: bytes => if wanted = byte then after? pattern bytes else none

/-- What stands before and after the first occurrence of a pattern. -/
def cut? (pattern : Bytes) : Bytes → Option (Bytes × Bytes)
  | [] => if pattern = [] then some ([], []) else none
  | byte :: bytes =>
    match after? pattern (byte :: bytes) with
    | some rest => some ([], rest)
    | none => (cut? pattern bytes).map fun cut => (byte :: cut.1, cut.2)

/-! ## Headers -/

/-- The greatest number of headers that a part may have. -/
def headerLimit : Nat := 32

/-- The bytes that the name of a header is made of. -/
def isNameByte (byte : UInt8) : Bool :=
  ContentType.isToken (Char.ofNat byte.toNat)

/-- Blank and tab. -/
def isGapByte (byte : UInt8) : Bool :=
  byte = 32 || byte = 9

/-- The bytes that the value of a header is made of: no control characters but the tab. -/
def isValueByte (byte : UInt8) : Bool :=
  byte = 9 || (32 ≤ byte && byte ≠ 127)

/-- Drop blanks and tabs at the end. -/
def trimEnd (bytes : Bytes) : Bytes :=
  (bytes.reverse.dropWhile isGapByte).reverse

/-- Take the end of a line from the front. The carriage return may be missing. -/
def afterLineEnd? : Bytes → Option Bytes
  | 13 :: 10 :: rest => some rest
  | 10 :: rest => some rest
  | _ => none

/-- Read a header: its name in lower case, and its value. -/
def readHeader (bytes : Bytes) : Option ((String × Bytes) × Bytes) :=
  match bytes.takeWhile isNameByte, bytes.dropWhile isNameByte with
  | [], _ => none
  | name, 58 :: rest =>
    let rest := rest.dropWhile isGapByte
    (afterLineEnd? (rest.dropWhile isValueByte)).map fun following =>
      ((String.ofList (name.map fun byte => (Char.ofNat byte.toNat).toLower),
        trimEnd (rest.takeWhile isValueByte)), following)
  | _, _ => none

/-- Read headers up to an empty line; there may be at most as many as the limit says. -/
def readHeaders : (limit : Nat) → Bytes → Option (List (String × Bytes))
  | limit, bytes =>
    match afterLineEnd? bytes with
    | some _ => some []
    | none =>
      match limit with
      | 0 => none
      | limit + 1 => do
        let (header, rest) ← readHeader bytes
        return header :: (← readHeaders limit rest)

/-- The value of a header; the last one of a name counts. -/
def header? (headers : List (String × Bytes)) (name : String) : Option Bytes :=
  (headers.reverse.find? (·.1 = name)).map (·.2)

/-! ## File names -/

/-- ASCII white space. -/
def isSpaceByte (byte : UInt8) : Bool :=
  byte = 32 || byte = 9 || byte = 10 || byte = 12 || byte = 13

/-- Read a value after its opening quote, where a backslash in front of a quote keeps the quote. -/
def readQuoted : Bytes → Option Bytes
  | [] => none
  | 92 :: 34 :: rest => (readQuoted rest).map (34 :: ·)
  | 34 :: _ => some []
  | byte :: rest => (readQuoted rest).map (byte :: ·)

/-- The attribute that the name of a file is given in. -/
def filenameKey : Bytes := Text.encode "filename"

/-- The value of an attribute that was found, read off what follows its key. -/
def readAttribute (bytes : Bytes) : Option Bytes :=
  match bytes.dropWhile isSpaceByte with
  | 61 :: rest =>
    match rest.dropWhile isSpaceByte with
    | 34 :: rest => readQuoted rest
    | rest => some (rest.takeWhile fun byte => byte ≠ 59 && byte ≠ 32)
  | _ => none

/-- Find the attribute with the name of the file in a disposition. It has to stand at the start, or
after white space or a `;`. `free` says whether it may stand at the front of the given bytes. -/
def findFilename : (fuel : Nat) → (free : Bool) → Bytes → Option Bytes
  | 0, _, _ => none
  | _, _, [] => none
  | fuel + 1, free, byte :: bytes =>
    match after? filenameKey (byte :: bytes) with
    | some rest => if free then readAttribute rest else findFilename fuel true rest
    | none => findFilename fuel (isSpaceByte byte || byte = 59) bytes

/-- The name of the file in a disposition. -/
def filename? (disposition : Bytes) : Option String :=
  (findFilename (disposition.length + 1) true disposition).bind Text.decode?

/-- The part with the given headers and content. -/
def assemble (headers : List (String × Bytes)) (content : Bytes) : Part where
  filename := (header? headers "content-disposition").bind filename?
  contentType := do
    let declared ← Text.decode? (← header? headers "content-type")
    let _ ← ContentType.ofHeader? declared
    return declared
  content

/-! ## Parts -/

/-- Read parts after a boundary. Each one takes at least a byte from the fuel. -/
def readParts (boundary : Bytes) : (fuel : Nat) → Bytes → Option (List Part)
  | 0, _ => none
  | fuel + 1, bytes =>
    match after? dashes bytes with
    | some _ => some []
    | none => do
      let rest ← after? lineEnd (bytes.dropWhile isGapByte)
      let (block, rest) ← cut? (lineEnd ++ lineEnd) rest
      let headers ← readHeaders headerLimit (block ++ lineEnd ++ lineEnd)
      let (content, rest) ← cut? (lineEnd ++ dashes ++ boundary) rest
      return assemble headers content :: (← readParts boundary fuel rest)

/-- The parts of a form. -/
def read (boundary : String) (body : Bytes) : Option (List Part) := do
  let (_, rest) ← cut? (dashes ++ Text.encode boundary) body
  readParts (Text.encode boundary) (rest.length + 1) rest

/-! ## Writing -/

/-- A part as it is written, under the name of the field that it fills. -/
structure Field extends Part where
  name : String := "files"
deriving DecidableEq, Inhabited

namespace Field

/-- The disposition of a field. -/
def disposition (field : Field) : String :=
  "form-data; name=\"" ++ field.name ++ "\"" ++
    match field.filename with
    | some filename => "; filename=\"" ++ filename ++ "\""
    | none => ""

/-- The headers of a field, each with its name and its value. -/
def headers (field : Field) : List (String × String) :=
  ("Content-Disposition", field.disposition) ::
    (field.contentType.map fun contentType => ("Content-Type", contentType)).toList

/-- A field as it is written, with the boundary in front of it. -/
def write (boundary : String) (field : Field) : Bytes :=
  dashes ++ Text.encode boundary ++ lineEnd
    ++ field.headers.flatMap (fun header => Text.encode (header.1 ++ ": " ++ header.2) ++ lineEnd)
    ++ lineEnd ++ field.content ++ lineEnd

end Field

/-- A form as it is written. -/
def write (boundary : String) (fields : List Field) : Bytes :=
  fields.flatMap (Field.write boundary) ++ dashes ++ Text.encode boundary ++ dashes ++ lineEnd

end Form

end ImageGallery.Http
