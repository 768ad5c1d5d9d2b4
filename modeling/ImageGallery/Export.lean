import ImageGallery.Json.Printer
import ImageGallery.Store.Transaction

/-!
# Exporting galleries

An export is a JSON document with the parents of a store and their galleries. The members of its
objects stand in alphabetical order.
-/

namespace ImageGallery

open Json (Value)

namespace ImageRecord

/-- An image as JSON, with its fields in alphabetical order. -/
def toJson (image : ImageRecord) : Value :=
  .object
    [ ("created_at", .text image.createdAt), ("id", .ofInt image.id),
      ("is_cover", .boolean image.isCover), ("parent_id", .text image.parentId),
      ("sort_order", .ofNat image.sortOrder.toNat), ("storage_key", .text image.storageKey),
      ("url", .text image.url) ]

end ImageRecord

namespace Export

/-- The version of the document's form. -/
def formVersion : Nat := 1

/-- The program that writes the document. -/
def source : String := "vitrine 0.1.0"

/-- A parent and its gallery. -/
def entry (parent : ParentRecord) (images : List ImageRecord) : Value :=
  .object
    [ ("created_at", .text parent.createdAt), ("id", .text parent.id),
      ("images", .list (images.map ImageRecord.toJson)), ("scope_id", .text parent.scopeId) ]

/-- A document with the given entries. -/
def document (now : String) (entries : List Value) : Value :=
  .object
    [ ("parents", .list entries),
      ("vitrine_export", .object
        [ ("exported_at", .text now), ("source", .text source), ("version", .ofNat formVersion) ]) ]

variable {σ τ : Type} [GalleryStore σ τ]

/-- Export the given parents, or only the one with the id `only`. A wanted parent has to be among
them; otherwise the answer is its id. -/
def galleries (store : σ) (parents : List ParentRecord) (only : Option String) (now : String) :
    Except String String :=
  let wanted := parents.filter fun parent => only.all (· = parent.id)
  match only, wanted with
  | some id, [] => .error id
  | _, _ =>
    .ok (document now (wanted.map fun parent =>
      entry parent (GalleryStore.listImages store parent.id))).pretty

/-- The wording of the refusal to export a parent that is not there. -/
def refusal (parent : String) : String :=
  "parent not found: " ++ parent

end Export

end ImageGallery
