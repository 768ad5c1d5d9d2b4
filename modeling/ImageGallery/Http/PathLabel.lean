import ImageGallery.Http.Route

/-!
# Labels of paths

Requests are counted by a label of their path that holds no ids, so the number of labels is fixed.
Slashes at both ends of a path do not matter for its label.
-/

namespace ImageGallery.Http

/-- The label of a path. -/
inductive PathLabel where
  | root
  | health
  | description
  | metrics
  | parent
  | gallery
  | order
  | image
  | cover
  | other
deriving DecidableEq, Inhabited

namespace PathLabel

/-- A placeholder for a part of a path. -/
def placeholder (name : String) : String :=
  "\x7b" ++ name ++ "\x7d"

/-- A label as text. -/
def text : PathLabel → String
  | root => "/"
  | health => "/health"
  | description => "/openapi.json"
  | metrics => "/metrics"
  | parent => "/parents/" ++ placeholder "parent"
  | gallery => "/parents/" ++ placeholder "parent" ++ "/images"
  | order => "/parents/" ++ placeholder "parent" ++ "/images/order"
  | image => "/parents/" ++ placeholder "parent" ++ "/images/" ++ placeholder "image"
  | cover => "/parents/" ++ placeholder "parent" ++ "/images/" ++ placeholder "image" ++ "/cover"
  | other => "/" ++ placeholder "other"

/-- Drop the slashes at both ends. -/
def trimSlashes (chars : List Char) : List Char :=
  ((chars.dropWhile (· = '/')).reverse.dropWhile (· = '/')).reverse

/-- The label of the segments of a path. -/
def ofSegments : List String → PathLabel
  | ["parents", _] => parent
  | ["parents", _, "images"] => gallery
  | ["parents", _, "images", "order"] => order
  | ["parents", _, "images", _] => image
  | ["parents", _, "images", _, "cover"] => cover
  | _ => other

/-- The label of a path. -/
def ofPath (path : String) : PathLabel :=
  match path with
  | "/" => root
  | "/health" => health
  | "/openapi.json" => description
  | "/metrics" => metrics
  | path => ofSegments (Route.segments (String.ofList (trimSlashes path.toList)))

end PathLabel

end ImageGallery.Http
