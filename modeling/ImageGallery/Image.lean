import ImageGallery.Text.Integer

/-!
# Images and their parents

A gallery is the list of images of one parent. A parent is registered once and belongs to a scope,
which together with the parent's id names the directory of its files.
-/

namespace ImageGallery

/-- The fields of a new image; the store adds the id and the parent. -/
structure NewImage where
  /-- The address the image is served from. -/
  url : String
  /-- The key of the image's file in the blob store. -/
  storageKey : String
  /-- Whether the image is its gallery's cover. -/
  isCover : Bool
  /-- The position in the gallery. -/
  sortOrder : UInt32
  /-- The time of creation. -/
  createdAt : String
deriving DecidableEq, Inhabited

/-- An image of a gallery. -/
structure ImageRecord extends NewImage where
  /-- The id that the store gave the image; later images have larger ids. -/
  id : Int
  /-- The parent that owns the image. -/
  parentId : String
deriving DecidableEq, Inhabited

/-- The owner of a gallery. -/
structure ParentRecord where
  id : String
  /-- The scope that the parent belongs to. -/
  scopeId : String
  createdAt : String
deriving DecidableEq, Inhabited

namespace ImageRecord

/-- Display order: by position, and images of one position by id. -/
def precedes (first second : ImageRecord) : Bool :=
  first.sortOrder < second.sortOrder ||
    (first.sortOrder = second.sortOrder && first.id ≤ second.id)

/-- Images in display order. -/
def arrange (images : List ImageRecord) : List ImageRecord :=
  images.mergeSort precedes

end ImageRecord

/-- Limits of a gallery and the address that its images are served under. -/
structure GalleryOptions where
  /-- The number of files that one upload may bring. -/
  maxFilesPerRequest : Nat := 10
  /-- The number of images that one parent may have. -/
  maxImagesPerParent : UInt32 := 30
  /-- What the address of every image starts with. -/
  publicBaseUrl : String := "/images"
deriving DecidableEq, Inhabited

namespace GalleryOptions

/-- The address of a parent's file: base, parent and file name, set apart by one slash each. -/
def imageUrl (options : GalleryOptions) (parent filename : String) : String :=
  String.ofList (options.publicBaseUrl.toList.reverse.dropWhile (· = '/')).reverse
    ++ "/" ++ parent ++ "/" ++ filename

end GalleryOptions

end ImageGallery
