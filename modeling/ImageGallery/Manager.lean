import ImageGallery.Blob.Store
import ImageGallery.Clock
import ImageGallery.Counters
import ImageGallery.Order.Payload
import ImageGallery.Order.Ranks
import ImageGallery.Store.Transaction

/-!
# The gallery manager

The operations on galleries: uploading, deleting, choosing the cover, reordering and listing. Each
change is one transaction, which is committed at the end and dropped at the first failure.

Files are saved before their records are inserted and removed after the records are gone: a file
without a record does no harm, a record without a file does.
-/

namespace ImageGallery

/-- What the operations work on: a metadata store, a blob store, limits, the clock and counters. -/
structure Manager (σ β : Type) where
  store : σ
  blobs : β
  options : GalleryOptions
  clock : Clock
  counters : Counters := {}

/-- What deleting an image did. -/
structure DeleteOutcome where
  deletedId : Int
  /-- The image that became the cover in place of the deleted one. -/
  newCoverId : Option Int
  /-- Whether the image's file was removed. -/
  blobRemoved : Bool
deriving DecidableEq, Inhabited

namespace Manager

variable {σ τ β : Type} [GalleryTx τ] [GalleryStore σ τ] [ParentStore σ] [BlobStore β]

/-- Raise a counter. -/
def tally (manager : Manager σ β) (counter : Counter) (amount : Nat) : Manager σ β :=
  { manager with counters := manager.counters.add counter amount }

/-- Count an operation's outcome. -/
def record {α : Type} (operation : Operation) (result : Except GalleryError α × Manager σ β) :
    Except GalleryError α × Manager σ β :=
  (result.1, result.2.tally (.operations operation result.1.toBool) 1)

/-- The record of a registered parent. -/
def parent (manager : Manager σ β) (id : String) : Except GalleryError ParentRecord :=
  match (ParentStore.registry manager.store).find? id with
  | some record => .ok record
  | none => .error (.parentNotFound id)

/-- The answer of a store, as that of an operation. -/
def lift {α : Type} : Except StoreError α → Except GalleryError α :=
  Except.mapError GalleryError.ofStore

/-- Publish a transaction, and go on with a value if that succeeds. -/
def commitWith {α : Type} (manager : Manager σ β) (tx : τ) (value : α) :
    Except GalleryError α × Manager σ β :=
  match GalleryStore.commit tx manager.store with
  | (.ok (), store) => (.ok value, { manager with store })
  | (.error error, store) => (.error (.ofStore error), { manager with store })

/-! ## Uploading -/

/-- The state while a batch is written: the open transaction, and what saving files changes. -/
structure Batch (τ β : Type) where
  tx : τ
  blobs : β
  clock : Clock

/-- Save files and insert their records, with positions from `order` on. `index` is the position
of the first of them in the batch, and `cover` says whether it becomes the cover. -/
def writeBatch (options : GalleryOptions) (parent : ParentRecord) (order : UInt32) :
    (index : Nat) → (cover : Bool) → List Upload → Batch τ β →
      Except GalleryError (List ImageRecord) × Batch τ β
  | _, _, [], batch => (.ok [], batch)
  | index, cover, upload :: uploads, batch =>
    match BlobStore.save batch.blobs parent.scopeId parent.id index upload with
    | (.error error, blobs) => (.error error, { batch with blobs })
    | (.ok saved, blobs) =>
      let (now, clock) := batch.clock.now
      let image : NewImage :=
        { url := options.imageUrl parent.id saved.filename
          storageKey := saved.storageKey
          isCover := cover
          sortOrder := order + index.toUInt32
          createdAt := now }
      match GalleryTx.insert batch.tx image with
      | (.error error, tx) => (.error (.ofStore error), { tx, blobs, clock })
      | (.ok record, tx) =>
        match writeBatch options parent order (index + 1) false uploads { tx, blobs, clock } with
        | (.ok records, batch) => (.ok (record :: records), batch)
        | failed => failed

/-- The first refusal of a file's format. -/
def checkMedia : List Upload → Except GalleryError Unit
  | [] => .ok ()
  | upload :: uploads =>
    match upload.media with
    | .ok _ => checkMedia uploads
    | .error error => .error error

/-- Append the files that were let in to the gallery of a transaction, and publish it. -/
def append (manager : Manager σ β) (parent : ParentRecord) (tx : τ) (uploads : List Upload) :
    Except GalleryError (List ImageRecord) × Manager σ β :=
  match checkMedia uploads with
  | .error error => (.error error, manager)
  | .ok () =>
    match lift (GalleryTx.nextOrder tx) with
    | .error error => (.error error, manager)
    | .ok order =>
      match writeBatch manager.options parent order 0 (!GalleryTx.hasCover tx) uploads
          { tx, blobs := manager.blobs, clock := manager.clock } with
      | (.error error, batch) =>
        (.error error, { manager with blobs := batch.blobs, clock := batch.clock })
      | (.ok records, batch) =>
        match commitWith { manager with blobs := batch.blobs, clock := batch.clock }
            batch.tx records with
        | (.ok records, manager) =>
          (.ok records, manager.tally .imagesUploaded records.length)
        | failed => failed

/-- Upload without counting the outcome. Files beyond the free capacity are left out, and counted
as such before anything else is looked at. -/
def receive (manager : Manager σ β) (parentId : String) (uploads : List Upload) :
    Except GalleryError (List ImageRecord) × Manager σ β :=
  match manager.parent parentId with
  | .error error => (.error error, manager)
  | .ok parent =>
    if uploads.isEmpty then (.error (.invalidInput .noFiles), manager)
    else if manager.options.maxFilesPerRequest < uploads.length then
      (.error (.limitExceeded manager.options.maxFilesPerRequest uploads.length), manager)
    else
      let tx := GalleryStore.start manager.store parentId
      let capacity := manager.options.maxImagesPerParent
      match lift (GalleryTx.count tx) with
      | .error error => (.error error, manager)
      | .ok count =>
        if capacity ≤ count then
          (.error (.capacityExceeded parentId capacity.toNat), manager)
        else
          let remaining := (capacity - count).toNat
          if remaining < uploads.length then
            (manager.tally .imagesTruncated (uploads.length - remaining)).append parent tx
              (uploads.take remaining)
          else manager.append parent tx uploads

/-- Store files and append them to a parent's gallery. Either every file that is let in has a
record afterwards, in the order of the files, or the gallery is as before. -/
def upload (manager : Manager σ β) (parentId : String) (uploads : List Upload) :
    Except GalleryError (List ImageRecord) × Manager σ β :=
  record .upload (manager.receive parentId uploads)

/-! ## Changing positions -/

/-- Give images their planned positions. -/
def place (tx : τ) : List (Int × UInt32) → Except GalleryError τ
  | [] => .ok tx
  | (id, rank) :: plan =>
    match GalleryTx.setSortOrder tx id rank with
    | (.ok (), tx) => place tx plan
    | (.error error, _) => .error (.ofStore error)

/-! ## Deleting -/

/-- Take an image out of a transaction's gallery, promote the first of the others if it was the
cover, and close the gap. Answers with the promoted image and the transaction. -/
def takeOut (tx : τ) (target : ImageRecord) : Except GalleryError (Option Int × τ) := do
  let tx := GalleryTx.delete tx target.id
  let remaining := GalleryTx.list tx
  let (promoted, tx) ←
    match target.isCover, remaining with
    | true, first :: _ =>
      match GalleryTx.assignExclusiveCover tx first.id with
      | (.ok (), tx) => pure (some first.id, tx)
      | (.error error, _) => throw (.ofStore error)
    | _, _ => pure (none, tx)
  let tx ← place tx (planRanks remaining fun image => image.sortOrder.toNat)
  return (promoted, tx)

/-- Delete without counting the outcome. -/
def withdraw (manager : Manager σ β) (parentId : String) (id : Int) :
    Except GalleryError DeleteOutcome × Manager σ β :=
  let tx := GalleryStore.start manager.store parentId
  match GalleryTx.get? tx id with
  | none => (.error (.imageNotFound id), manager)
  | some target =>
    match takeOut tx target with
    | .error error => (.error error, manager)
    | .ok (newCoverId, tx) =>
      match manager.commitWith tx () with
      | (.error error, manager) => (.error error, manager)
      | (.ok (), manager) =>
        let (blobRemoved, blobs) := BlobStore.delete manager.blobs target.storageKey
        let manager := { manager with blobs }
        (.ok { deletedId := id, newCoverId, blobRemoved },
          if blobRemoved then manager else manager.tally .blobDeleteFailures 1)

/-- Remove an image from a parent's gallery and then its file. -/
def delete (manager : Manager σ β) (parentId : String) (id : Int) :
    Except GalleryError DeleteOutcome × Manager σ β :=
  record .delete (manager.withdraw parentId id)

/-! ## Choosing the cover -/

/-- Choose the cover without counting the outcome. -/
def flag (manager : Manager σ β) (parentId : String) (id : Int) :
    Except GalleryError ImageRecord × Manager σ β :=
  let tx := GalleryStore.start manager.store parentId
  match GalleryTx.get? tx id with
  | none => (.error (.imageNotFound id), manager)
  | some _ =>
    match GalleryTx.assignExclusiveCover tx id with
    | (.error error, _) => (.error (.ofStore error), manager)
    | (.ok (), tx) =>
      match GalleryTx.get? tx id with
      | none => (.error (.imageNotFound id), manager)
      | some image => manager.commitWith tx image

/-- Make an image its parent's only cover. -/
def setCover (manager : Manager σ β) (parentId : String) (id : Int) :
    Except GalleryError ImageRecord × Manager σ β :=
  record .setCover (manager.flag parentId id)

/-! ## Reordering -/

/-- Reorder without counting the outcome. -/
def rearrange (manager : Manager σ β) (parentId : String) (items : List ReorderItem) :
    Except GalleryError Nat × Manager σ β :=
  match Positions.ofItems items with
  | .error error => (.error error, manager)
  | .ok positions =>
    let tx := GalleryStore.start manager.store parentId
    let images := GalleryTx.list tx
    let plan := planRanks images fun image =>
      (positions.find? image.id).getD image.sortOrder.toNat
    match place tx plan with
    | .error error => (.error error, manager)
    | .ok tx => manager.commitWith tx images.length

/-- Rank a parent's gallery by the positions that a payload asks for; images that it does not name
keep theirs. Answers with the number of images. -/
def reorder (manager : Manager σ β) (parentId : String) (items : List ReorderItem) :
    Except GalleryError Nat × Manager σ β :=
  record .reorder (manager.rearrange parentId items)

/-! ## Listing and registering -/

/-- A registered parent's gallery in display order. -/
def list (manager : Manager σ β) (parentId : String) : Except GalleryError (List ImageRecord) :=
  match manager.parent parentId with
  | .error error => .error error
  | .ok _ => .ok (GalleryStore.listImages manager.store parentId)

/-- Register a parent. -/
def register (manager : Manager σ β) (parentId scope : String) :
    Except GalleryError ParentRecord × Manager σ β :=
  let (now, clock) := manager.clock.now
  let (result, store) := ParentStore.register manager.store parentId scope now
  (result, { manager with store, clock })

end Manager

end ImageGallery
