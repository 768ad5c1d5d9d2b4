import ImageGallery.Blob.Upload

/-!
# Blob stores

A blob store keeps the files of all galleries under storage keys. Saving may fail and then says
why; removing a file never fails and says whether the file is gone by it.
-/

namespace ImageGallery

/-- Where a saved file ended up. -/
structure SavedBlob where
  /-- The name that was made up for the file. -/
  filename : String
  /-- The key to find the file by: scope, parent and name, set apart by slashes. -/
  storageKey : String
  /-- The path of the file. -/
  path : String
  /-- The number of bytes written. -/
  size : Nat
deriving DecidableEq, Inhabited

/-- The operations of a blob store with states of type `β`. -/
class BlobStore (β : Type) where
  /-- Keep a file of a parent in a scope; `index` is its position in the upload. -/
  save (blobs : β) (scope parent : String) (index : Nat) (upload : Upload) :
    Except GalleryError SavedBlob × β
  /-- Remove the file under a key, and say whether one was removed. -/
  delete (blobs : β) (key : String) : Bool × β
  /-- Whether a file inside the store stands under a key. -/
  contains (blobs : β) (key : String) : Bool

/-- A blob store whose saves can be told to fail. -/
structure Faulty (β : Type) where
  inner : β
  /-- The number of saves to let through before one fails; none fails without it. -/
  failAfter : Option Nat := none

namespace Faulty

/-- Save, unless this is the save that has to fail. It fails before anything is written, and later
saves work again. -/
def save {β : Type} [BlobStore β] (blobs : Faulty β) (scope parent : String) (index : Nat)
    (upload : Upload) : Except GalleryError SavedBlob × Faulty β :=
  match blobs.failAfter with
  | some 0 => (.error (.internal (.reported "disk full")), { blobs with failAfter := none })
  | failAfter =>
    let (saved, inner) := BlobStore.save blobs.inner scope parent index upload
    (saved, ⟨inner, failAfter.map (· - 1)⟩)

instance {β : Type} [BlobStore β] : BlobStore (Faulty β) where
  save := save
  delete blobs key :=
    let (removed, inner) := BlobStore.delete blobs.inner key
    (removed, { blobs with inner })
  contains blobs key := BlobStore.contains blobs.inner key

/-- A save that has to fail changes nothing below, and any other save is one of the store below. -/
theorem save_cases {β : Type} [BlobStore β] {blobs after : Faulty β} {scope parent : String}
    {index : Nat} {upload : Upload} {result : Except GalleryError SavedBlob}
    (saved : BlobStore.save blobs scope parent index upload = (result, after)) :
    (result = .error (.internal (.reported "disk full")) ∧ after.inner = blobs.inner) ∨
      BlobStore.save blobs.inner scope parent index upload = (result, after.inner) := by
  change blobs.save scope parent index upload = _ at saved
  unfold save at saved
  split at saved
  · cases saved
    exact .inl ⟨rfl, rfl⟩
  · cases saved
    exact .inr rfl

end Faulty

end ImageGallery
