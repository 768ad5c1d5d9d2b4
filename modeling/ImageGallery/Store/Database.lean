import ImageGallery.Store.Transaction

/-!
# Galleries in a database

A store that holds the images of all parents as rows of one table. Statements select the rows of
one parent. Ids are numbered from one on by a sequence and never given twice, and a unique index
allows each parent one row that is flagged as cover.

A transaction works on the tables themselves; dropping it brings back the tables as they were when
it was started.
-/

namespace ImageGallery

/-- A database: its tables and the sequence of image ids. -/
structure Database where
  /-- The rows of the parents. -/
  parents : Registry := {}
  /-- The rows of the images in the order of their ids. -/
  images : List ImageRecord := []
  /-- The greatest id given to an image. -/
  sequence : Int := 0
deriving DecidableEq, Inhabited

/-- A transaction on a database. -/
structure DatabaseTx where
  parent : String
  /-- The database as the transaction sees it. -/
  working : Database
deriving DecidableEq, Inhabited

namespace Database

/-- The rows of a parent's images. -/
def rowsOf (database : Database) (parent : String) : List ImageRecord :=
  database.images.filter fun image => image.parentId = parent

/-- Change the rows of the images that a condition selects. -/
def update (database : Database) (selects : ImageRecord → Bool)
    (change : ImageRecord → ImageRecord) : Database :=
  { database with
    images := database.images.map fun image => if selects image then change image else image }

/-- A number as an answer of 32 bits. -/
def answer (value : Nat) : Except StoreError UInt32 :=
  if value < UInt32.size then .ok value.toUInt32 else .error (.outOfRange value)

end Database

namespace DatabaseTx

/-- The rows of the transaction's parent. -/
def rows (tx : DatabaseTx) : List ImageRecord :=
  tx.working.rowsOf tx.parent

/-- One more than the greatest position of the parent's rows. -/
def nextOrder (tx : DatabaseTx) : Nat :=
  tx.rows.foldl (fun greatest image => max greatest (image.sortOrder.toNat + 1)) 0

/-- Change the parent's row with an id; there has to be one. -/
def touch (tx : DatabaseTx) (id : Int) (change : ImageRecord → ImageRecord) :
    Except StoreError Unit × DatabaseTx :=
  if tx.rows.any fun image => image.id = id then
    (.ok (), { tx with
      working := tx.working.update
        (fun image => image.parentId = tx.parent && image.id = id) change })
  else (.error (.notMember id tx.parent), tx)

/-- Add a row with the next id of the sequence, unless it is a second cover. -/
def insert (tx : DatabaseTx) (image : NewImage) : Except StoreError ImageRecord × DatabaseTx :=
  if image.isCover ∧ tx.rows.any (·.isCover) then (.error .secondCover, tx)
  else
    let record : ImageRecord :=
      { image with id := tx.working.sequence + 1, parentId := tx.parent }
    (.ok record, { tx with
      working := { tx.working with
        images := tx.working.images ++ [record], sequence := record.id } })

/-- Take the flag from all rows of the parent and give it to one. The flags go first, since the
index is checked row by row. -/
def assignExclusiveCover (tx : DatabaseTx) (id : Int) : Except StoreError Unit × DatabaseTx :=
  let cleared := { tx with
    working := tx.working.update (fun image => image.parentId = tx.parent)
      fun image => { image with isCover := false } }
  cleared.touch id fun image => { image with isCover := true }

/-- Remove the parent's row with an id. -/
def delete (tx : DatabaseTx) (id : Int) : DatabaseTx :=
  { tx with
    working := { tx.working with
      images := tx.working.images.filter fun image =>
        ¬(image.parentId = tx.parent ∧ image.id = id) } }

instance : GalleryTx DatabaseTx where
  count tx := Database.answer tx.rows.length
  nextOrder tx := Database.answer tx.nextOrder
  hasCover tx := tx.rows.any (·.isCover)
  list tx := ImageRecord.arrange tx.rows
  get? tx id := tx.rows.find? fun image => image.id = id
  insert := insert
  setSortOrder tx id order := tx.touch id fun image => { image with sortOrder := order }
  assignExclusiveCover := assignExclusiveCover
  delete := delete

end DatabaseTx

namespace Database

instance : GalleryStore Database DatabaseTx where
  start database parent := { parent, working := database }
  commit tx _ := (.ok (), tx.working)
  listImages database parent := ImageRecord.arrange (database.rowsOf parent)
  galleryParentIds database := sortedIds (database.images.map (·.parentId))

instance : ParentStore Database where
  registry store := store.parents
  withRegistry store parents := { store with parents }

end Database

end ImageGallery
