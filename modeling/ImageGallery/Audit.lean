import ImageGallery.Blob.Store
import ImageGallery.Store.Transaction

/-!
# Auditing galleries

A gallery is sound when its parent is registered, it has at most one cover, its positions are
`0, 1, 2, …` in display order, and every image has a stored file. The audit lists what is wrong
with each gallery.
-/

namespace ImageGallery

/-- What is wrong with a gallery. -/
inductive GalleryFault where
  /-- More than one image is a cover. -/
  | multipleCovers (images : List Int)
  /-- The positions are not the ranks. -/
  | sparseOrder (orders : List Nat)
  /-- An image has no stored file. -/
  | missingBlob (image : Int) (key : String)
  /-- The parent of a number of images is not registered. -/
  | unknownParent (images : Nat)
deriving DecidableEq, Inhabited

/-- Numbers between brackets, set apart by commas. -/
def bracketed (texts : List String) : String :=
  "[" ++ ", ".intercalate texts ++ "]"

namespace GalleryFault

/-- The kind of a fault, in words joined by underscores. -/
def label : GalleryFault → String
  | multipleCovers _ => "multiple_covers"
  | sparseOrder _ => "sparse_order"
  | missingBlob .. => "missing_blob"
  | unknownParent _ => "unknown_parent"

/-- The kind of a fault, as one word. -/
def word : GalleryFault → String
  | multipleCovers _ => "MultipleCovers"
  | sparseOrder _ => "SparseOrder"
  | missingBlob .. => "MissingBlob"
  | unknownParent _ => "UnknownParent"

/-- The details of a fault. -/
def detail : GalleryFault → String
  | multipleCovers images => "cover images " ++ bracketed (images.map toString)
  | sparseOrder orders => "sort orders " ++ bracketed (orders.map toString)
  | missingBlob image key => s!"image {image} has no stored blob at '{key}'"
  | unknownParent images => s!"{images} images without a registered parent"

end GalleryFault

/-- A fault, and the parent of the gallery that has it. -/
structure Violation where
  parentId : String
  fault : GalleryFault
deriving DecidableEq, Inhabited

/-- What an audit found. -/
structure AuditReport where
  /-- The number of galleries that were looked at. -/
  galleries : Nat := 0
  /-- The number of their images. -/
  images : Nat := 0
  violations : List Violation := []
deriving DecidableEq, Inhabited

namespace AuditReport

/-- Nothing was found. -/
def isClean (report : AuditReport) : Bool :=
  report.violations.isEmpty

end AuditReport

namespace Audit

/-- The fault of having several covers. -/
def coverFaults (images : List ImageRecord) : List GalleryFault :=
  let covers := (images.filter (·.isCover)).map (·.id)
  if 1 < covers.length then [.multipleCovers covers] else []

/-- Whether positions are the ranks from the given one on. -/
def isDense (rank : Nat) : List ImageRecord → Bool
  | [] => true
  | image :: images => image.sortOrder = rank.toUInt32 && isDense (rank + 1) images

/-- The fault of having other positions than the ranks. -/
def orderFaults (images : List ImageRecord) : List GalleryFault :=
  if isDense 0 images then [] else [.sparseOrder (images.map (·.sortOrder.toNat))]

/-- The faults of images without a stored file. -/
def blobFaults (stored : String → Bool) (images : List ImageRecord) : List GalleryFault :=
  (images.filter fun image => !stored image.storageKey).map
    fun image => .missingBlob image.id image.storageKey

/-- All faults of a gallery in display order. -/
def galleryFaults (stored : String → Bool) (images : List ImageRecord) : List GalleryFault :=
  coverFaults images ++ orderFaults images ++ blobFaults stored images

variable {σ τ β : Type} [GalleryStore σ τ] [ParentStore σ] [BlobStore β]

/-- The fault of belonging to nobody. -/
def parentFaults (store : σ) (parent : String) (images : List ImageRecord) : List GalleryFault :=
  match (ParentStore.registry store).find? parent with
  | some _ => []
  | none => [.unknownParent images.length]

/-- Everything that is wrong with a parent's gallery. -/
def parentViolations (store : σ) (blobs : β) (parent : String) (images : List ImageRecord) :
    List Violation :=
  (parentFaults store parent images ++ galleryFaults (BlobStore.contains blobs) images).map
    fun fault => { parentId := parent, fault }

/-- Look at all galleries of a store. -/
def report (store : σ) (blobs : β) : AuditReport :=
  let galleries := (GalleryStore.galleryParentIds store).map
    fun parent => (parent, GalleryStore.listImages store parent)
  { galleries := galleries.length
    images := (galleries.flatMap (·.2)).length
    violations := galleries.flatMap
      fun gallery => parentViolations store blobs gallery.1 gallery.2 }

end Audit

end ImageGallery
