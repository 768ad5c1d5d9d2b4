import ImageGallery.Export
import ImageGallery.Http.Description
import ImageGallery.Http.Form
import ImageGallery.Manager
import ImageGallery.Text.PercentEncoding

/-!
# The service

The galleries over HTTP. A request that a route matches is read, carried out by one operation of
the manager, and answered with the operation's value or error; a request that cannot be read is
refused before the manager is asked.
-/

namespace ImageGallery.Http

open Json (Value)

/-- A manager that is reached over HTTP. -/
structure Service (σ β : Type) where
  manager : Manager σ β
  /-- The greatest number of bytes in the body of a request. -/
  maxBodyBytes : Nat := 104857600
  /-- Whether requests are counted and the counters are served. -/
  metrics : Bool := true
  /-- The random numbers that responses are tagged with. -/
  tags : Nat → UInt64
  /-- The number of responses given. -/
  answered : Nat := 0

/-- A response to a request that is refused before it is read as a request to the manager. -/
inductive Refusal where
  /-- An id in the path is no text. -/
  | parameter (name : String)
  /-- The request does not declare a form with a boundary. -/
  | boundary
deriving DecidableEq, Inhabited

namespace Refusal

/-- The wording of a refusal. -/
def message : Refusal → String
  | parameter name => "Invalid URL: Invalid UTF-8 in `" ++ name ++ "`"
  | boundary => "Invalid `boundary` for `multipart/form-data` request"

/-- The response of a refusal. -/
def response (refusal : Refusal) : Response :=
  { status := 400, content := .text "text/plain; charset=utf-8" refusal.message }

end Refusal

/-! ## Answers -/

/-- The answer with the images of a gallery. -/
def imagesValue (images : List ImageRecord) : Value :=
  .object [("images", .list (images.map ImageRecord.toJson))]

/-- The answer to a deletion. -/
def outcomeValue (outcome : DeleteOutcome) : Value :=
  .object
    [ ("deleted_id", .ofInt outcome.deletedId),
      ("new_cover_id", (outcome.newCoverId.map Value.ofInt).getD .null),
      ("blob_removed", .boolean outcome.blobRemoved) ]

/-- The answer to a reordering. -/
def countValue (count : Nat) : Value :=
  .object [("count", .ofNat count)]

/-- The answer with an error. -/
def errorValue (error : GalleryError) (requestId : String) : Value :=
  .object
    [ ("error", .object
        [ ("code", .text error.code), ("message", .text error.publicMessage),
          ("request_id", .text requestId) ]) ]

/-- The response to an operation: its value under a status, or its error. -/
def respond {α : Type} (requestId : String) (status : Nat) (value : α → Value) :
    Except GalleryError α → Response
  | .ok result => { status, content := .json (value result), requestId }
  | .error error =>
    { status := error.status, content := .json (errorValue error requestId), requestId }

/-! ## Reading requests -/

/-- The ids of a route, decoded; the first that is no text refuses the request. -/
def decodeAll : List (String × String) → Except Refusal (List String)
  | [] => .ok []
  | (name, segment) :: rest =>
    match Text.PercentEncoding.decode? segment with
    | none => .error (.parameter name)
    | some id => (decodeAll rest).map (id :: ·)

/-- The number that an image's id in a path denotes. -/
def imageId (raw : String) : Except GalleryError Int :=
  match Text.readSigned64? raw.toList with
  | some id => .ok id
  | none => .error (.invalidInput (.imageId raw))

/-- The content type that a request declares. -/
def Request.contentType? (request : Request) : Option ContentType :=
  (request.header? "content-type").bind ContentType.ofHeader?

/-- The files in a form. -/
def formFiles (parts : List Part) : List Upload :=
  parts.filterMap fun part =>
    part.filename.map fun filename =>
      Upload.ofSpooled filename part.contentType ⟨part.content, part.content⟩

/-- The files that a request brings in a form with the given boundary. -/
def Request.files (request : Request) (maxBodyBytes : Nat) (boundary : String) :
    Except GalleryError (List Upload) :=
  if maxBodyBytes < request.body.length then .error (.invalidInput .form)
  else
    match Form.read boundary request.body with
    | some parts => .ok (formFiles parts)
    | none => .error (.invalidInput .form)

/-- What stands for a byte of no text: a letter that no escape has, and half of a surrogate pair.
JSON allows them only where it allows such a byte, inside a string that is skipped. -/
def strayByte : List Char := ['x', '\\', 'u', 'd', 'c', '0', '0']

/-- The items of the reorder payload that a request brings. -/
def Request.items (request : Request) (maxBodyBytes : Nat) :
    Except GalleryError (List ReorderItem) :=
  if !request.contentType?.any ContentType.isJson then .error (.invalidInput (.payload .undeclared))
  else if maxBodyBytes < request.body.length then .error (.invalidInput (.payload .oversized))
  else
    let text := Text.decodeWith strayByte (request.body.length + 1) request.body
    match ReorderItem.readRequest (Json.fuelFor text) Json.depthLimit text with
    | .ok (items, _) => .ok items
    | .error .malformed => .error (.invalidInput (.payload .malformed))
    | .error .mismatch => .error (.invalidInput (.payload .mismatch))

namespace Service

variable {σ τ β : Type} [GalleryTx τ] [GalleryStore σ τ] [ParentStore σ] [BlobStore β]

/-- The name that the service gives itself in every response. -/
def serverName : String := "Vitrine"

/-- The page with all counters. -/
def metricsPage (counters : Counters) : String :=
  String.join (counters.grown.map fun counter => counter.1 ++ " " ++ toString counter.2 ++ "\n")

/-- Answer an operation on a gallery. -/
def answer {α : Type} (requestId : String) (status : Nat) (value : α → Value)
    (result : Except GalleryError α × Manager σ β) : Response × Manager σ β :=
  (respond requestId status value result.1, result.2)

/-- Carry out an operation on the image that a path names. -/
def withImage {α : Type} (manager : Manager σ β) (requestId raw : String) (value : α → Value)
    (operation : Int → Except GalleryError α × Manager σ β) : Response × Manager σ β :=
  match imageId raw with
  | .ok id => answer requestId 200 value (operation id)
  | .error error => answer requestId 200 value (.error error, manager)

/-- Carry out an upload. -/
def acceptUpload (manager : Manager σ β) (maxBodyBytes : Nat) (requestId parent : String)
    (request : Request) : Response × Manager σ β :=
  match request.contentType?.bind ContentType.formBoundary? with
  | none => (Refusal.boundary.response, manager)
  | some boundary =>
    answer requestId 201 imagesValue <|
      match request.files maxBodyBytes boundary with
      | .ok files => manager.upload parent files
      | .error error => (.error error, manager)

/-- Carry out a request whose ids have been decoded. -/
def perform (manager : Manager σ β) (maxBodyBytes : Nat) (requestId : String) (route : Route)
    (request : Request) (ids : List String) : Response × Manager σ β :=
  match route, ids with
  | .health, _ => ({ status := 200, content := .json (.object [("status", .text "ok")]) }, manager)
  | .description, _ => ({ status := 200, content := .json Description.document }, manager)
  | .metrics, _ =>
    ({ status := 200, content := .text "text/plain; version=0.0.4" (metricsPage manager.counters) },
      manager)
  | .gallery _, parent :: _ =>
    if request.method = .post then acceptUpload manager maxBodyBytes requestId parent request
    else answer requestId 200 imagesValue (manager.list parent, manager)
  | .order _, parent :: _ =>
    answer requestId 200 countValue <|
      match request.items maxBodyBytes with
      | .ok items => manager.reorder parent items
      | .error error => (.error error, manager)
  | .image .., parent :: raw :: _ =>
    withImage manager requestId raw outcomeValue (manager.delete parent)
  | .cover .., parent :: raw :: _ =>
    withImage manager requestId raw ImageRecord.toJson (manager.setCover parent)
  | _, _ => ({ status := 404 }, manager)

/-- The route of a request. The counters have one only where requests are counted. -/
def route? (service : Service σ β) (request : Request) : Option Route :=
  (Route.ofPath? request.path).filter fun route => route ≠ .metrics || service.metrics

/-- Answer a request, but for the parts that all responses share. -/
def dispatch (service : Service σ β) (requestId : String) (request : Request) :
    Response × Manager σ β :=
  match service.route? request with
  | none => ({ status := 404 }, service.manager)
  | some route =>
    if request.method ∈ route.methods then
      match decodeAll route.parameters with
      | .error refusal => (refusal.response, service.manager)
      | .ok ids => perform service.manager service.maxBodyBytes requestId route request ids
    else ({ status := 405, allow := some route.allow }, service.manager)

/-- Count a request and its outcome. Requests for the counters are not counted. -/
def count (service : Service σ β) (request : Request) (status : Nat) : Manager σ β :=
  if service.metrics ∧ request.path ≠ "/metrics" then
    let method := request.method.name
    let label := (PathLabel.ofPath request.path).text
    (service.manager.tally (.httpRequests method label status) 1).tally
      (.httpDurations method label) 1
  else service.manager

/-- The id of the next response: 16 digits to the base 16. -/
def nextId (service : Service σ β) : String :=
  String.ofList ((Text.hexText 16 (service.tags service.answered).toNat).map Char.toUpper)

/-- Answer a request. -/
def handle (service : Service σ β) (request : Request) : Response × Service σ β :=
  let requestId := service.nextId
  let (response, manager) := service.dispatch requestId request
  let served := { service with manager, answered := service.answered + 1 }
  ({ response with requestId, headersOnly := decide (request.method = .head) },
    { served with manager := served.count request response.status })

end Service

end ImageGallery.Http
