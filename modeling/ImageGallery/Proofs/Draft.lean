import ImageGallery.Proofs.DisplayOrder
import ImageGallery.Store.Transaction

/-!
# Drafts: what every store has in common

Stores keep galleries in different ways, but a transaction of any of them works on one parent's
images and on the greatest id given so far. This pair is its draft. The laws say how the calls of a
transaction read and change its draft when they succeed, and that a commit publishes the draft and
nothing else. A refused commit leaves the store as it was.

What operations do to galleries is proved from the laws alone, and so holds of every store.
-/

namespace ImageGallery

/-- What a transaction works on. -/
structure Draft where
  parent : String
  /-- The parent's images in the order of their ids. -/
  images : List ImageRecord
  /-- The greatest id given so far. -/
  lastId : Int

namespace Draft

/-- The record of an image that is inserted next. -/
def recordOf (draft : Draft) (image : NewImage) : ImageRecord :=
  { image with id := draft.lastId + 1, parentId := draft.parent }

/-- Add an image under the next id. -/
def insert (draft : Draft) (image : NewImage) : Draft :=
  { draft with images := draft.images ++ [draft.recordOf image], lastId := draft.lastId + 1 }

/-- Give an image a position. -/
def move (draft : Draft) (id : Int) (order : UInt32) : Draft :=
  { draft with
    images := draft.images.map fun image =>
      if image.id = id then { image with sortOrder := order } else image }

/-- Make an image the only cover. -/
def cover (draft : Draft) (id : Int) : Draft :=
  { draft with
    images := draft.images.map fun image => { image with isCover := decide (image.id = id) } }

/-- Take an image out. -/
def remove (draft : Draft) (id : Int) : Draft :=
  { draft with images := draft.images.filter fun image => image.id ≠ id }

/-- One more than the greatest position. -/
def nextOrder (draft : Draft) : Nat :=
  draft.images.foldl (fun greatest image => max greatest (image.sortOrder.toNat + 1)) 0

end Draft

/-- The draft of a transaction. -/
class TxView (τ : Type) where
  draft (tx : τ) : Draft

/-- What a store holds, as far as galleries are concerned. -/
class StoreView (σ : Type) (τ : outParam Type) where
  /-- A parent's images in the order of their ids. -/
  images (store : σ) (parent : String) : List ImageRecord
  /-- The greatest id given so far. -/
  lastId (store : σ) : Int
  /-- The transaction was started on the store and has changed nothing but its draft. -/
  Open (store : σ) (tx : τ) : Prop

/-- The calls of a transaction that succeed read and change its draft. -/
class LawfulTx (τ : Type) [GalleryTx τ] [TxView τ] : Prop where
  list_eq (tx : τ) : GalleryTx.list tx = ImageRecord.arrange (TxView.draft tx).images
  hasCover_eq (tx : τ) : GalleryTx.hasCover tx = (TxView.draft tx).images.any (·.isCover)
  get?_eq (tx : τ) (id : Int) :
    GalleryTx.get? tx id = (TxView.draft tx).images.find? fun image => image.id = id
  count_of_ok {tx : τ} {count : UInt32} (counted : GalleryTx.count tx = .ok count) :
    count.toNat = (TxView.draft tx).images.length
  nextOrder_of_ok {tx : τ} {order : UInt32} (answered : GalleryTx.nextOrder tx = .ok order)
    (small : ∀ image ∈ (TxView.draft tx).images, image.sortOrder.toNat + 1 < UInt32.size) :
    order.toNat = (TxView.draft tx).nextOrder
  insert_of_ok {tx next : τ} {image : NewImage} {record : ImageRecord}
    (inserted : GalleryTx.insert tx image = (.ok record, next)) :
    record = (TxView.draft tx).recordOf image ∧
      TxView.draft next = (TxView.draft tx).insert image
  setSortOrder_of_ok {tx next : τ} {id : Int} {order : UInt32}
    (moved : GalleryTx.setSortOrder tx id order = (.ok (), next)) :
    TxView.draft next = (TxView.draft tx).move id order
  assignExclusiveCover_of_ok {tx next : τ} {id : Int}
    (assigned : GalleryTx.assignExclusiveCover tx id = (.ok (), next)) :
    TxView.draft next = (TxView.draft tx).cover id
  draft_delete (tx : τ) (id : Int) :
    TxView.draft (GalleryTx.delete tx id) = (TxView.draft tx).remove id

section Store

variable {σ τ : Type} [GalleryTx τ] [TxView τ] [GalleryStore σ τ] [ParentStore σ] [StoreView σ τ]

/-- A store after a draft was published in it. -/
structure Published (store after : σ) (draft : Draft) : Prop where
  images_self : StoreView.images after draft.parent = draft.images
  images_other : ∀ other, other ≠ draft.parent →
    StoreView.images after other = StoreView.images store other
  lastId_eq : StoreView.lastId after = draft.lastId
  registry_eq : ParentStore.registry after = ParentStore.registry store

end Store

/-- Transactions start from what the store holds, stay away from other galleries, and publish their
draft or nothing. -/
class LawfulStore (σ : Type) (τ : outParam Type) [GalleryTx τ] [TxView τ] [GalleryStore σ τ]
    [ParentStore σ] [StoreView σ τ] : Prop where
  listImages_eq (store : σ) (parent : String) :
    GalleryStore.listImages store parent = ImageRecord.arrange (StoreView.images store parent)
  draft_start (store : σ) (parent : String) :
    TxView.draft (GalleryStore.start store parent) =
      ⟨parent, StoreView.images store parent, StoreView.lastId store⟩
  open_start (store : σ) (parent : String) :
    StoreView.Open store (GalleryStore.start store parent)
  open_insert {store : σ} {tx : τ} (image : NewImage) (opened : StoreView.Open store tx) :
    StoreView.Open store (GalleryTx.insert tx image).2
  open_setSortOrder {store : σ} {tx : τ} (id : Int) (order : UInt32)
    (opened : StoreView.Open store tx) :
    StoreView.Open store (GalleryTx.setSortOrder tx id order).2
  open_assignExclusiveCover {store : σ} {tx : τ} (id : Int) (opened : StoreView.Open store tx) :
    StoreView.Open store (GalleryTx.assignExclusiveCover tx id).2
  open_delete {store : σ} {tx : τ} (id : Int) (opened : StoreView.Open store tx) :
    StoreView.Open store (GalleryTx.delete tx id)
  commit_of_error {store after : σ} {tx : τ} {error : StoreError}
    (refused : GalleryStore.commit tx store = (.error error, after)) : after = store
  commit_of_ok {store after : σ} {tx : τ} (opened : StoreView.Open store tx)
    (committed : GalleryStore.commit tx store = (.ok (), after)) :
    Published store after (TxView.draft tx)
  registry_withRegistry (store : σ) (registry : Registry) :
    ParentStore.registry (ParentStore.withRegistry store registry) = registry
  images_withRegistry (store : σ) (registry : Registry) :
    StoreView.images (ParentStore.withRegistry store registry) = StoreView.images store
  lastId_withRegistry (store : σ) (registry : Registry) :
    StoreView.lastId (ParentStore.withRegistry store registry) = StoreView.lastId store

end ImageGallery
