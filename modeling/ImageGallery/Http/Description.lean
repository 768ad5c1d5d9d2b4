import ImageGallery.Http.PathLabel
import ImageGallery.Json.Value

/-!
# The description of the service

What clients can ask of the service, as an OpenAPI document: its endpoints with the outcomes of
each, and the shapes of the JSON that goes in and out.
-/

namespace ImageGallery.Http.Description

open Json (Value)

/-- A group of endpoints. -/
inductive Tag where
  | health
  | gallery
deriving DecidableEq, Inhabited

namespace Tag

/-- The name of a group. -/
def name : Tag → String
  | health => "Health"
  | gallery => "Gallery"

/-- What a group holds. -/
def description : Tag → String
  | health => "Health check endpoints"
  | gallery => "Gallery image operations"

end Tag

/-- What can be done with one method under one path. -/
structure Endpoint where
  path : String
  method : Method
  id : String
  tag : Tag
  /-- The ids in the path. -/
  parameters : List String := []
  /-- The statuses that are answered, and what each one means. -/
  outcomes : List (Nat × String)
deriving DecidableEq, Inhabited

/-- The type of a field. -/
inductive FieldType where
  | text
  | integer
  | flag
  | optionalInteger
  /-- A list of values of another shape. -/
  | listOf (shape : String)
deriving DecidableEq, Inhabited

/-- The shape of a JSON object. -/
structure Shape where
  name : String
  fields : List (String × FieldType)
deriving DecidableEq, Inhabited

/-- The path of a gallery. -/
def galleryPath : String :=
  "/parents/" ++ PathLabel.placeholder "parent_id" ++ "/images"

/-- The path of an image. -/
def imagePath : String :=
  galleryPath ++ "/" ++ PathLabel.placeholder "image_id"

/-- The endpoints, in the order of their paths and of the names of their methods. -/
def endpoints : List Endpoint :=
  [ { path := "/health", method := .get, id := "HealthCheck", tag := .health
      outcomes := [(200, "Health check OK")] },
    { path := galleryPath, method := .get, id := "ListImages", tag := .gallery
      parameters := ["parent_id"]
      outcomes := [(200, "Gallery in display order"), (404, "Parent not found")] },
    { path := galleryPath, method := .post, id := "UploadImages", tag := .gallery
      parameters := ["parent_id"]
      outcomes :=
        [ (201, "Images created, in upload order"), (400, "No files submitted"),
          (404, "Parent not found"), (409, "Gallery is full"),
          (413, "Too many files in one request"), (415, "Unsupported image type") ] },
    { path := galleryPath ++ "/order", method := .put, id := "ReorderImages", tag := .gallery
      parameters := ["parent_id"]
      outcomes := [(200, "Gallery renumbered"), (400, "Empty or malformed payload")] },
    { path := imagePath, method := .delete, id := "DeleteImage", tag := .gallery
      parameters := ["parent_id", "image_id"]
      outcomes := [(200, "Image deleted"), (404, "Image not found")] },
    { path := imagePath ++ "/cover", method := .put, id := "SetCover", tag := .gallery
      parameters := ["parent_id", "image_id"]
      outcomes := [(200, "Cover assigned"), (404, "Image not found")] } ]

/-- The shapes of requests and answers, in the order of their names. -/
def shapes : List Shape :=
  [ ⟨"DeleteOutcome",
      [("deleted_id", .integer), ("new_cover_id", .optionalInteger), ("blob_removed", .flag)]⟩,
    ⟨"ImageList", [("images", .listOf "ImageRecord")]⟩,
    ⟨"ImageRecord",
      [ ("id", .integer), ("parent_id", .text), ("url", .text), ("storage_key", .text),
        ("is_cover", .flag), ("sort_order", .integer), ("created_at", .text) ]⟩,
    ⟨"ReorderItem", [("id", .optionalInteger), ("order", .optionalInteger)]⟩,
    ⟨"ReorderRequest", [("items", .listOf "ReorderItem")]⟩,
    ⟨"ReorderResponse", [("count", .integer)]⟩ ]

/-- The groups of endpoints. -/
def tags : List Tag :=
  [.health, .gallery]

/-- The title of the service. -/
def title : String := "Vitrine Gallery API"

/-- The version of the service. -/
def version : String := "0.1.0"

/-- What the service is for. -/
def summary : String := "Ordered image galleries with a single cover per parent"

/-! ## The document -/

/-- The type of a field as JSON. -/
def fieldValue : FieldType → Value
  | .text => .object [("type", .text "string")]
  | .integer => .object [("type", .text "integer")]
  | .flag => .object [("type", .text "boolean")]
  | .optionalInteger => .object [("type", .list [.text "integer", .text "null"])]
  | .listOf shape =>
    .object
      [ ("type", .text "array"),
        ("items", .object [("$ref", .text ("#/components/schemas/" ++ shape))]) ]

/-- A shape as JSON. -/
def shapeValue (shape : Shape) : Value :=
  .object
    [ ("type", .text "object"),
      ("properties", .object (shape.fields.map fun field => (field.1, fieldValue field.2))) ]

/-- An endpoint as JSON. -/
def endpointValue (endpoint : Endpoint) : Value :=
  .object
    [ ("tags", .list [.text endpoint.tag.name]), ("operationId", .text endpoint.id),
      ("parameters", .list (endpoint.parameters.map fun name =>
        .object [("name", .text name), ("in", .text "path"), ("required", .boolean true)])),
      ("responses", .object (endpoint.outcomes.map fun outcome =>
        (toString outcome.1, .object [("description", .text outcome.2)]))) ]

/-- The endpoints under a path as JSON. -/
def pathValue (path : String) : Value :=
  .object ((endpoints.filter (·.path = path)).map fun endpoint =>
    (String.ofList (endpoint.method.name.toList.map Char.toLower), endpointValue endpoint))

/-- The whole document. -/
def document : Value :=
  .object
    [ ("openapi", .text "3.1.0"),
      ("info", .object
        [ ("title", .text title), ("description", .text summary), ("version", .text version) ]),
      ("paths", .object
        ((endpoints.map (·.path)).eraseDups.map fun path => (path, pathValue path))),
      ("components", .object
        [("schemas", .object (shapes.map fun shape => (shape.name, shapeValue shape)))]),
      ("tags", .list (tags.map fun tag =>
        .object [("name", .text tag.name), ("description", .text tag.description)])) ]

end ImageGallery.Http.Description
