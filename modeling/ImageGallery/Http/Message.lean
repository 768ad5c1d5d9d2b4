import ImageGallery.Json.Value
import ImageGallery.Text.Fields
import ImageGallery.Text.Utf8

/-!
# Requests and responses

A request as the service receives it, and a response as the service gives it. The target of a
request is a path, which is cut at the first `?` or `#`, or such a path after a scheme and the name
of a host, or the name of a host alone. Nothing but the path takes part in anything.
-/

namespace ImageGallery.Http

/-- The method of a request. -/
inductive Method where
  | get
  | head
  | post
  | put
  | delete
  /-- A method that no route answers. -/
  | other (name : String)
deriving DecidableEq, Inhabited

namespace Method

/-- The name of a method. -/
def name : Method → String
  | get => "GET"
  | head => "HEAD"
  | post => "POST"
  | put => "PUT"
  | delete => "DELETE"
  | other name => name

/-- The method with a name. -/
def ofName : String → Method
  | "GET" => get
  | "HEAD" => head
  | "POST" => post
  | "PUT" => put
  | "DELETE" => delete
  | name => other name

end Method

/-- A request. -/
structure Request where
  method : Method
  /-- The path with everything that was written around it. -/
  target : String
  /-- Names and values, in the order of the request. -/
  headers : List (String × String)
  body : Bytes
deriving DecidableEq, Inhabited

namespace Request

/-- The characters of the name of a scheme. -/
def isSchemeChar (char : Char) : Bool :=
  char.isAlphanum || char = '+' || char = '-' || char = '.'

/-- What follows the scheme in a target, if it has one. -/
def afterScheme? (target : List Char) : Option (List Char) :=
  match target.dropWhile isSchemeChar with
  | ':' :: '/' :: '/' :: rest => some rest
  | _ => none

/-- The part of a target in front of the first `?` or `#`. -/
def withoutQuery (target : List Char) : List Char :=
  target.takeWhile fun char => char ≠ '?' && char ≠ '#'

/-- The path in a target. It is empty where the target is the name of a host alone, but after a
scheme a missing path is the root. -/
def pathOf (target : List Char) : List Char :=
  if target.head? = some '/' ∨ target = ['*'] then withoutQuery target
  else
    match afterScheme? target with
    | none => []
    | some rest =>
      match (withoutQuery rest).dropWhile (· ≠ '/') with
      | [] => ['/']
      | path => path

/-- The path of a request. -/
def path (request : Request) : String :=
  String.ofList (pathOf request.target.toList)

/-- The value of the first header with a name, given in lower case. -/
def header? (request : Request) (name : String) : Option String :=
  (request.headers.find? fun header =>
    String.ofList (header.1.toList.map Char.toLower) = name).map (·.2)

end Request

/-- The content of a response. -/
inductive Content where
  | nothing
  | json (value : Json.Value)
  /-- A text of the given content type. -/
  | text (contentType contents : String)
deriving Inhabited

/-- The type of a response's content, if it has content. -/
def Content.type? : Content → Option String
  | nothing => none
  | json _ => some "application/json"
  | text contentType _ => some contentType

/-- A response. -/
structure Response where
  status : Nat
  content : Content := .nothing
  /-- Whether only the headers are sent, as for a `HEAD` request. -/
  headersOnly : Bool := false
  /-- The methods that are allowed, where another one was used. -/
  allow : Option String := none
  /-- The id that the response is tagged with. -/
  requestId : String := ""
deriving Inhabited

end ImageGallery.Http
