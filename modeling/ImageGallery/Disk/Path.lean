import ImageGallery.Text.Fields

/-!
# Paths

A path is a sequence of names with slashes between them. It starts at the root if its text starts
with a slash, and at a current directory otherwise. How many slashes stand between two names does
not matter, but a slash at the end does: what the names lead to then has to be a directory. That
slash is kept as an empty name at the end.

The name `.` stands for the directory that it is looked up in, and `..` for the one above.
-/

namespace ImageGallery.Disk

/-- A path: a text, and the names of a way that leads on from there. -/
structure Path where
  base : String
  below : List String := []
deriving DecidableEq, Inhabited

namespace Path

/-- The names in a text, and an empty one if the text ends in a slash after them. -/
def split (text : String) : List String :=
  let names := ((Text.fields '/' text.toList).filter (· ≠ [])).map String.ofList
  if names ≠ [] ∧ text.toList.getLast? = some '/' then names ++ [""] else names

/-- Whether a text starts at the root. -/
def isAbsolute (text : String) : Bool :=
  text.toList.head? = some '/'

/-- Names without the empty one that a slash at the end stands for. -/
def withoutSlash (names : List String) : List String :=
  names.filter (· ≠ "")

/-- All names of a path. -/
def names (path : Path) : List String :=
  match path.below with
  | [] => split path.base
  | below => withoutSlash (split path.base) ++ below

/-- The path that leads on by some names. -/
def join (path : Path) (more : List String) : Path :=
  { path with below := path.below ++ more }

/-- A path as text. -/
def display (path : Path) : String :=
  path.below.foldl
    (fun text name =>
      if text.toList.getLast? = some '/' ∨ text = "" then text ++ name else text ++ "/" ++ name)
    path.base

/-- The names of a path without those that stand for the directory they are looked up in. Only at
the start of a path the name `.` stays. -/
def components (path : Path) : List String :=
  match withoutSlash path.names with
  | [] => []
  | first :: rest =>
    let rest := rest.filter (· ≠ ".")
    if first = "." ∧ isAbsolute path.base then rest else first :: rest

/-- The paths of the directories above a path, the nearest first, up to the root or the first name
of the path. -/
def ancestors (path : Path) : List Path :=
  let components := path.components
  let ancestor (count : Nat) : Path :=
    ⟨if isAbsolute path.base then "/" else "", components.take count⟩
  ((List.range components.length).reverse.map ancestor).filter
    fun path => path.base ≠ "" || path.below ≠ []

/-- The path of the directory that a path leads to an entry of. -/
def parent (path : Path) : Path :=
  path.ancestors.headD ⟨"", []⟩

theorem names_join (path : Path) {more : List String} (below : path.below = [])
    (some_more : more ≠ []) : (path.join more).names = withoutSlash (split path.base) ++ more := by
  cases more with
  | nil => exact absurd rfl some_more
  | cons name more => simp [names, join, below]

end Path

end ImageGallery.Disk
