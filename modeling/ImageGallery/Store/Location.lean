import ImageGallery.Error
import ImageGallery.Text.Fields
import ImageGallery.Text.PercentEncoding

/-!
# Locations of databases

The text that says where a database is: a path, or `file:` with a path and options after it. The
options say what may be done with the file and how; the path may have escapes by percent signs. The
path `:memory:`, the empty path and some options stand for a database that no file keeps.
-/

namespace ImageGallery

/-- What an open database may be used for. -/
inductive Access where
  | readOnly
  /-- The file has to be there. -/
  | readWrite
  /-- The file is made if it is missing. -/
  | create
  /-- No file keeps the database. -/
  | memory
deriving DecidableEq, Inhabited

namespace Access

/-- The access that a word asks for. -/
def ofWord? : String → Option Access
  | "ro" => some readOnly
  | "rw" => some readWrite
  | "rwc" => some create
  | "memory" => some memory
  | _ => none

/-- How much an access allows. -/
def rank : Access → Nat
  | readOnly => 1
  | readWrite => 2
  | create => 3
  | memory => 4

/-- Whether an option may ask for one access after another. -/
def allows (before after : Access) : Bool :=
  after = memory || after.rank ≤ before.rank

end Access

/-- How files are worked with. -/
inductive FileSystem where
  | standard
  /-- Files are not locked in a way that leaves room for a log. -/
  | unlogged
  /-- Files are held in memory. -/
  | memory
deriving DecidableEq, Inhabited

/-- The way of working with files that a name asks for. -/
def FileSystem.ofName? : String → Option FileSystem
  | "unix" | "unix-excl" => some standard
  | "unix-none" | "unix-dotfile" => some unlogged
  | "memdb" => some memory
  | _ => none

/-- Where a database is, and how it is to be used. -/
structure Location where
  path : String
  access : Access := .create
  fileSystem : FileSystem := .standard
  /-- Whether nobody will change the file. -/
  immutable : Bool := false
  /-- Whether the file is used without locks. -/
  unlocked : Bool := false
  /-- The path of another file, whose permissions the file gets if it is made. -/
  model : Option String := none
deriving DecidableEq, Inhabited

namespace Location

/-! ## Options -/

/-- An option: its name and its value. -/
abbrev LocationOption := String × String

/-- A part of a location: the text that its escapes stand for, up to a zero byte. -/
def decodePart (part : List Char) : String :=
  let bytes := Text.PercentEncoding.decodeBytes (Text.encode (String.ofList part))
  let bytes := bytes.takeWhile (· ≠ 0)
  String.ofList (Text.decodeWith ['\ufffd'] (bytes.length + 1) bytes)

/-- The option of a text between two separators. Without a name it is none. -/
def readOption (text : List Char) : Option LocationOption :=
  let name := decodePart (text.takeWhile (· ≠ '='))
  if name = "" then none else some (name, decodePart ((text.dropWhile (· ≠ '=')).drop 1))

/-- The options of a text. -/
def readOptions (text : List Char) : List LocationOption :=
  (Text.fields '&' text).filterMap readOption

/-- Whether a value says yes: by a word, or by a number whose last eight bits are not zero. -/
def isTrue (value : String) : Bool :=
  match value.toList.takeWhile Char.isDigit with
  | [] => ["on", "yes", "true"].contains (String.ofList (value.toList.map Char.toLower))
  | digits => Text.appendDigits 0 digits % 256 ≠ 0

/-- Whether the first option with a name says yes. -/
def isSet (options : List LocationOption) (name : String) : Bool :=
  (options.lookup name).any isTrue

/-- The access that options ask for after the given one. -/
def accessAfter (access : Access) : List LocationOption → Except LocationFault Access
  | [] => .ok access
  | (name, value) :: options =>
    if name = "cache" ∧ value ≠ "shared" ∧ value ≠ "private" then .error (.cache value)
    else if name = "mode" then
      match Access.ofWord? value with
      | none => .error (.mode value)
      | some asked =>
        if access.allows asked then accessAfter asked options else .error (.forbidden value)
    else accessAfter access options

/-- The way of working with files that the last of the options with its name asks for. -/
def fileSystemOf (options : List LocationOption) : Except LocationFault FileSystem :=
  match options.reverse.lookup "vfs" with
  | none => .ok .standard
  | some name =>
    match FileSystem.ofName? name with
    | some fileSystem => .ok fileSystem
    | none => .error (.fileSystem name)

/-! ## Texts -/

/-- What follows the name of a host, which has to be missing or that of this machine. -/
def afterHost (text : List Char) : Except LocationFault (List Char) :=
  match text with
  | '/' :: '/' :: text =>
    let host := String.ofList (text.takeWhile (· ≠ '/'))
    if host = "" ∨ host = "localhost" then .ok (text.dropWhile (· ≠ '/')) else .error (.host host)
  | text => .ok text

/-- The location of a text after `file:`. -/
def ofResource (text : List Char) : Except LocationFault Location := do
  let text := (← afterHost text).takeWhile (· ≠ '#')
  let options := readOptions ((text.dropWhile (· ≠ '?')).drop 1)
  let access ← accessAfter .create options
  let fileSystem ← fileSystemOf options
  return {
    path := decodePart (text.takeWhile (· ≠ '?'))
    access, fileSystem
    immutable := isSet options "immutable"
    unlocked := isSet options "nolock"
    model := options.lookup "modeof" }

/-- The location of a text. -/
def ofText (text : String) : Except LocationFault Location :=
  let chars := text.toList
  if chars.contains '\x00' then
    .error (.zeroByte (Text.encode (String.ofList (chars.takeWhile (· ≠ '\x00')))).length)
  else
    match chars with
    | 'f' :: 'i' :: 'l' :: 'e' :: ':' :: chars => ofResource chars
    | _ => .ok { path := text }

/-- Whether no file keeps the database. -/
def isPrivate (location : Location) : Bool :=
  location.path = "" || location.path = ":memory:" || location.access = .memory ||
    location.fileSystem = .memory

/-- Whether a database in a file may not be changed. -/
def isReadOnly (location : Location) : Bool :=
  location.immutable || location.access = .readOnly

/-- Whether a database that no file keeps may not be changed. Files in memory may be taken for
immutable; a database without a name may not. -/
def isFrozen (location : Location) : Bool :=
  location.access = .readOnly ||
    (location.fileSystem = .memory && location.immutable && location.access ≠ .memory &&
      location.path ≠ "" && location.path ≠ ":memory:")

/-- Whether there is no room for a log. -/
def isUnlogged (location : Location) : Bool :=
  location.unlocked || location.fileSystem = .unlogged

end Location

end ImageGallery
