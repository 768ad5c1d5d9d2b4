import ImageGallery.Store.Registry

/-!
# Metadata stores

A store keeps the records of all galleries. A gallery is changed in a transaction on one parent,
which sees its own changes at once; nobody else sees them before it is committed. A transaction
that is dropped leaves the store as it was.

A call that fails still answers with the transaction's state after it, since a caller may go on
and commit.
-/

namespace ImageGallery

/-- The calls of a transaction on one parent's gallery. -/
class GalleryTx (τ : Type) where
  /-- The number of the parent's images. -/
  count (tx : τ) : Except StoreError UInt32
  /-- One more than the greatest position, or zero without images. -/
  nextOrder (tx : τ) : Except StoreError UInt32
  /-- Whether an image of the parent is a cover. -/
  hasCover (tx : τ) : Bool
  /-- The parent's images in display order. -/
  list (tx : τ) : List ImageRecord
  /-- The parent's image with an id. -/
  get? (tx : τ) (id : Int) : Option ImageRecord
  /-- Add an image to the parent's gallery. -/
  insert (tx : τ) (image : NewImage) : Except StoreError ImageRecord × τ
  /-- Give an image a position. -/
  setSortOrder (tx : τ) (id : Int) (order : UInt32) : Except StoreError Unit × τ
  /-- Make an image the parent's only cover. -/
  assignExclusiveCover (tx : τ) (id : Int) : Except StoreError Unit × τ
  /-- Take an image out of the parent's gallery. -/
  delete (tx : τ) (id : Int) : τ

/-- The operations of a store of type `σ` with transactions of type `τ`. -/
class GalleryStore (σ : Type) (τ : outParam Type) where
  /-- Start a transaction on a parent. -/
  start (store : σ) (parent : String) : τ
  /-- Publish the transaction's gallery in the store that it was started on. -/
  commit (tx : τ) (store : σ) : Except StoreError Unit × σ
  /-- The images of a parent in display order. -/
  listImages (store : σ) (parent : String) : List ImageRecord
  /-- The parents that have images, in the order of their ids. -/
  galleryParentIds (store : σ) : List String

/-- A store of type `σ` that also holds the registry of the galleries' parents. -/
class ParentStore (σ : Type) where
  /-- The registry in a store. -/
  registry (store : σ) : Registry
  /-- The store with another registry. -/
  withRegistry (store : σ) (registry : Registry) : σ

namespace ParentStore

/-- Register a parent in a store. A refusal leaves the store as it is. -/
def register {σ : Type} [ParentStore σ] (store : σ) (parent scope now : String) :
    Except GalleryError ParentRecord × σ :=
  match (registry store).register parent scope now with
  | .error error => (.error error, store)
  | .ok (record, registry) => (.ok record, withRegistry store registry)

end ParentStore

/-- Texts in the order of their code points, each once. -/
def sortedIds (ids : List String) : List String :=
  ids.eraseDups.mergeSort fun first second => first ≤ second

end ImageGallery
