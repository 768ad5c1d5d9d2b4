import ImageGallery.Store.Transaction

/-!
# Galleries in memory

A store that holds each gallery as a list of its own. A transaction works on a staged copy of its
parent's gallery, which takes the place of the published one when the transaction is committed.
-/

namespace ImageGallery

/-- A store in memory. -/
structure MemoryStore where
  /-- The greatest id given to an image. -/
  lastId : Int := 0
  /-- The registered parents. -/
  parents : Registry := {}
  /-- The galleries that have images, each in the order of the images' ids. -/
  galleries : List (String × List ImageRecord) := []
  /-- Whether commits are to fail. -/
  failCommits : Bool := false
deriving DecidableEq, Inhabited

/-- A transaction on a store in memory. -/
structure MemoryTx where
  parent : String
  /-- Whether the commit is to fail. -/
  failCommit : Bool
  /-- The parent's images in the order of their ids. -/
  staged : List ImageRecord
  /-- The greatest id given to an image, those of this transaction included. -/
  lastId : Int
deriving DecidableEq, Inhabited

namespace MemoryTx

/-- The number of staged images. -/
def count (tx : MemoryTx) : Except StoreError UInt32 :=
  if tx.staged.length < UInt32.size then .ok tx.staged.length.toUInt32 else .error .tooMany

/-- One more than the greatest staged position. -/
def nextOrder (tx : MemoryTx) : UInt32 :=
  tx.staged.foldl (fun greatest image => max greatest (image.sortOrder + 1)) 0

/-- Whether a staged image has an id. -/
def holds (tx : MemoryTx) (id : Int) : Bool :=
  tx.staged.any fun image => image.id = id

/-- Change a staged image, if one has the id. -/
def update (tx : MemoryTx) (id : Int) (change : ImageRecord → ImageRecord) :
    Except StoreError Unit × MemoryTx :=
  if tx.holds id then
    (.ok (), { tx with
      staged := tx.staged.map fun image => if image.id = id then change image else image })
  else (.error (.notMember id tx.parent), tx)

/-- Stage an image under the next id. -/
def insert (tx : MemoryTx) (image : NewImage) : ImageRecord × MemoryTx :=
  let record : ImageRecord := { image with id := tx.lastId + 1, parentId := tx.parent }
  (record, { tx with staged := tx.staged ++ [record], lastId := record.id })

/-- Flag one staged image as cover and no other. -/
def assignExclusiveCover (tx : MemoryTx) (id : Int) : Except StoreError Unit × MemoryTx :=
  if tx.holds id then
    (.ok (), { tx with
      staged := tx.staged.map fun image => { image with isCover := decide (image.id = id) } })
  else (.error (.notMember id tx.parent), tx)

instance : GalleryTx MemoryTx where
  count := count
  nextOrder tx := .ok tx.nextOrder
  hasCover tx := tx.staged.any (·.isCover)
  list tx := ImageRecord.arrange tx.staged
  get? tx id := tx.staged.find? fun image => image.id = id
  insert tx image :=
    let (record, tx) := tx.insert image
    (.ok record, tx)
  setSortOrder tx id order := tx.update id fun image => { image with sortOrder := order }
  assignExclusiveCover := assignExclusiveCover
  delete tx id := { tx with staged := tx.staged.filter fun image => image.id ≠ id }

end MemoryTx

namespace MemoryStore

/-- The published images of a parent, in the order of their ids. -/
def gallery (store : MemoryStore) (parent : String) : List ImageRecord :=
  ((store.galleries.find? fun entry => entry.1 = parent).map (·.2)).getD []

/-- Publish a parent's images. A gallery without images is not kept. -/
def publish (store : MemoryStore) (parent : String) (images : List ImageRecord) : MemoryStore :=
  let others := store.galleries.filter fun entry => entry.1 ≠ parent
  { store with galleries := if images.isEmpty then others else (parent, images) :: others }

/-- Publish a transaction's images, unless commits are to fail. -/
def commit (tx : MemoryTx) (store : MemoryStore) : Except StoreError Unit × MemoryStore :=
  if tx.failCommit then (.error .commitRefused, store)
  else (.ok (), { store.publish tx.parent tx.staged with lastId := tx.lastId })

instance : GalleryStore MemoryStore MemoryTx where
  start store parent :=
    { parent, failCommit := store.failCommits, staged := store.gallery parent,
      lastId := store.lastId }
  commit := commit
  listImages store parent := ImageRecord.arrange (store.gallery parent)
  galleryParentIds store := sortedIds (store.galleries.map (·.1))

instance : ParentStore MemoryStore where
  registry store := store.parents
  withRegistry store parents := { store with parents }

end MemoryStore

end ImageGallery
