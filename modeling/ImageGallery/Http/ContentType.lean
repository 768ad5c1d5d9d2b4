import ImageGallery.Text.Fields

/-!
# Content types

The value of a `Content-Type` header: a type, a subtype and parameters, as in
`multipart/form-data; boundary=x`. The names of types and parameters may be written in any case;
the values of parameters are kept as they are. A value stands by itself or between quotes.
-/

namespace ImageGallery.Http

/-- A content type. Its names are in lower case. -/
structure ContentType where
  type : String
  /-- The subtype, without its suffix. -/
  subtype : String
  /-- What follows the last `+` in the subtype, if there is one. -/
  suffix : Option String
  parameters : List (String × String)
deriving DecidableEq, Inhabited

namespace ContentType

/-- The characters that names, and values without quotes, are made of. -/
def isToken (char : Char) : Bool :=
  char.isAlphanum ||
    ['!', '#', '$', '%', '&', '\x27', '*', '+', '-', '.', '^', '_', '\x60', '|', '~'].contains char

/-- The visible ASCII characters and the blank. -/
def isVisible (char : Char) : Bool :=
  ' ' ≤ char && char ≤ '~'

/-- A name in lower case. -/
def lowered (name : List Char) : String :=
  String.ofList (name.map Char.toLower)

/-- Read a value without quotes up to the end or to a `;`, which may not follow an empty value. -/
def readBareValue (chars : List Char) : Option (List Char × List Char) :=
  match chars.takeWhile isToken, chars.dropWhile isToken with
  | value, [] => some (value, [])
  | value, ';' :: rest => if value = [] then none else some (value, rest)
  | _, _ => none

/-- Read a value after its opening quote, up to the end or to a `;` after its closing quote. It has
at least one character. -/
def readQuotedValue : List Char → Option (List Char × List Char)
  | [] => none
  | first :: chars =>
    match chars.dropWhile (· ≠ '"') with
    | [] => none
    | _ :: rest =>
      let value := first :: chars.takeWhile (· ≠ '"')
      match rest.dropWhile (· = ' ') with
      | [] => some (value, [])
      | ';' :: rest => some (value, rest)
      | _ => none

/-- Read a value with or without quotes. -/
def readValue : List Char → Option (List Char × List Char)
  | '"' :: rest => readQuotedValue rest
  | chars => readBareValue chars

/-- Read parameters up to the end. Each one takes at least a character from the fuel. -/
def readParameters : (fuel : Nat) → List Char → Option (List (String × String))
  | 0, _ => none
  | fuel + 1, chars =>
    match chars.dropWhile (· = ' ') with
    | [] => some []
    | chars =>
      match chars.takeWhile isToken, chars.dropWhile isToken with
      | [], _ => none
      | name, '=' :: rest => do
        let (value, rest) ← readValue rest
        return (lowered name, String.ofList value) :: (← readParameters fuel rest)
      | _, _ => none

/-- Split a subtype at its last `+`; one at the start belongs to the name. -/
def splitSuffix : List Char → List Char × Option (List Char)
  | [] => ([], none)
  | first :: rest =>
    match Text.cutLast? '+' rest with
    | some (name, suffix) => (first :: name, some suffix)
    | none => (first :: rest, none)

/-- The content type that a header's value denotes. -/
def ofHeader? (value : String) : Option ContentType :=
  let chars := value.toList
  if chars.all isVisible then
    match chars.takeWhile isToken, chars.dropWhile isToken with
    | [], _ => none
    | type, '/' :: rest =>
      let subtype := rest.takeWhile isToken
      let (name, suffix) := splitSuffix subtype
      let found (parameters : List (String × String)) : ContentType :=
        { type := lowered type, subtype := lowered name, suffix := suffix.map lowered, parameters }
      match rest.dropWhile isToken with
      | [] => some (found [])
      | ';' :: rest =>
        if subtype = [] then none else (readParameters (rest.length + 1) rest).map found
      | _ => none
    | _, _ => none
  else none

/-- Whether the type declares JSON. -/
def isJson (contentType : ContentType) : Bool :=
  contentType.type = "application" &&
    (contentType.subtype = "json" || contentType.suffix = some "json")

/-- The first parameter with a name. -/
def parameter? (contentType : ContentType) (name : String) : Option String :=
  (contentType.parameters.find? (·.1 = name)).map (·.2)

/-- The boundary between the parts of a form, if the type declares one. -/
def formBoundary? (contentType : ContentType) : Option String :=
  if contentType.type = "multipart" ∧ contentType.subtype = "form-data" then
    contentType.parameter? "boundary"
  else none

end ContentType

end ImageGallery.Http
