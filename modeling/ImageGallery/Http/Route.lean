import ImageGallery.Http.Message

/-!
# Routes

The resources that the service has and the paths they are found under. Ids in a path stand for
themselves here, in the way they are written in the path; none may be empty. The word `order` in
the place of an image's id leads to the order of the gallery.
-/

namespace ImageGallery.Http

/-- A resource of the service, with ids as they are written in the path. -/
inductive Route where
  | health
  | description
  | metrics
  | gallery (parent : String)
  | order (parent : String)
  | image (parent id : String)
  | cover (parent id : String)
deriving DecidableEq, Inhabited

namespace Route

/-- The segments between the slashes of a path. -/
def segments (path : String) : List String :=
  (Text.fields '/' path.toList).map String.ofList

/-- The route that segments after a leading slash lead to. -/
def ofSegments? : List String → Option Route
  | ["health"] => some health
  | ["openapi.json"] => some description
  | ["metrics"] => some metrics
  | ["parents", parent, "images"] => if parent = "" then none else some (gallery parent)
  | ["parents", parent, "images", id] =>
    if parent = "" ∨ id = "" then none
    else if id = "order" then some (order parent)
    else some (image parent id)
  | ["parents", parent, "images", id, "cover"] =>
    if parent = "" ∨ id = "" then none else some (cover parent id)
  | _ => none

/-- The route that a path leads to. -/
def ofPath? (path : String) : Option Route :=
  match segments path with
  | "" :: rest => ofSegments? rest
  | _ => none

/-- The methods that a route answers. -/
def methods : Route → List Method
  | health | description | metrics => [.get, .head]
  | gallery _ => [.get, .head, .post]
  | order _ | cover .. => [.put]
  | image .. => [.delete]

/-- The methods that a route answers, as text. -/
def allow (route : Route) : String :=
  ",".intercalate (route.methods.map Method.name)

/-- The ids in a route, each with the name that it has in the description of the service. -/
def parameters : Route → List (String × String)
  | health | description | metrics => []
  | gallery parent | order parent => [("parent_id", parent)]
  | image parent id | cover parent id => [("parent_id", parent), ("image_id", id)]

end Route

end ImageGallery.Http
