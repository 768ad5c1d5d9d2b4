import ImageGallery.Image
import ImageGallery.Segment

/-!
# The registry of parents

A parent is registered with the scope it belongs to. The first registration of a parent stays:
later ones answer with it and change nothing.
-/

namespace ImageGallery

/-- The registered parents, the first one first. -/
structure Registry where
  records : List ParentRecord := []
deriving DecidableEq, Inhabited

namespace Registry

/-- The record of a parent. -/
def find? (registry : Registry) (parent : String) : Option ParentRecord :=
  registry.records.find? fun record => record.id = parent

/-- All records in the order of the parents' ids. -/
def sorted (registry : Registry) : List ParentRecord :=
  registry.records.mergeSort fun first second => first.id ≤ second.id

/-- Register a parent. Its id and its scope will name directories, so both must be segments. -/
def register (registry : Registry) (parent scope now : String) :
    Except GalleryError (ParentRecord × Registry) := do
  Segment.check "parent" parent
  Segment.check "scope" scope
  match registry.find? parent with
  | some record => return (record, registry)
  | none =>
    let record : ParentRecord := { id := parent, scopeId := scope, createdAt := now }
    return (record, ⟨registry.records ++ [record]⟩)

end Registry

end ImageGallery
