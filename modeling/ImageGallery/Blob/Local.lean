import ImageGallery.Blob.Name
import ImageGallery.Blob.Store
import ImageGallery.Disk.Tree
import ImageGallery.Segment

/-!
# Blobs in a directory tree

Files are stored as `<root>/<scope>/<parent>/<name>`. A file is first written to a temporary file
under `<root>/.tmp` and then moved to its place, so a file at its place is always complete.

A storage key is a relative path below the root. Its names must be plain, and what it leads to
must lie below the root once all links are followed.
-/

namespace ImageGallery

open Disk

/-- A blob store below one directory of a tree. -/
structure LocalBlobs where
  /-- The directory that all files are kept under. -/
  root : String
  /-- The size of the buffer that uploads are read through. -/
  chunkSize : Nat
  tree : Tree
  names : Blob.NameSource
  /-- The number of bytes in all files saved so far. -/
  bytesWritten : Nat := 0

namespace LocalBlobs

/-- The path of the root. -/
def rootPath (blobs : LocalBlobs) : Path :=
  ⟨blobs.root, []⟩

/-- The directory of the temporary files. -/
def temporaryDirectory (blobs : LocalBlobs) : Path :=
  blobs.rootPath.join [".tmp"]

/-- Make the root and the directory of the temporary files. -/
def prepare (root : String) (tree : Tree) : Except Failure Unit × Tree :=
  match tree.makeDirectories ⟨root, []⟩ with
  | (.error error, tree) =>
    (.error (.within ("failed to create storage root " ++ root) (.system error)), tree)
  | (.ok (), tree) =>
    match tree.makeDirectories ⟨root, [".tmp"]⟩ with
    | (.error error, tree) => (.error (.system error), tree)
    | (.ok (), tree) => (.ok (), tree)

/-! ## Saving -/

/-- One change of the tree on the way to a saved file. -/
inductive Step where
  | makeDirectories (path : Path)
  | create (path : Path)
  | append (path : Path) (chunk : Bytes)
  | move (source target : Path)
deriving DecidableEq, Inhabited

namespace Step

/-- Carry a step out. A failing step may leave directories behind. -/
def run (step : Step) (tree : Tree) : Except SystemError Unit × Tree :=
  let whole : Except SystemError Tree → Except SystemError Unit × Tree
    | .ok tree => (.ok (), tree)
    | .error error => (.error error, tree)
  match step with
  | makeDirectories path => tree.makeDirectories path
  | create path => whole (tree.write path [])
  | append path chunk => whole (tree.append path chunk)
  | move source target => whole (tree.rename source target)

/-- Carry steps out up to the first that fails. -/
def runAll : List Step → Tree → Except SystemError Unit × Tree
  | [], tree => (.ok (), tree)
  | step :: steps, tree =>
    match step.run tree with
    | (.ok (), tree) => runAll steps tree
    | failed => failed

end Step

/-- Bring an upload into the temporary file and give the number of its bytes. -/
def spool (directory temporary : Path) (upload : Upload) (size : Nat) (tree : Tree) :
    Except Failure Nat × Tree :=
  let delivery := upload.delivery size
  match Step.run (.makeDirectories directory) tree with
  | (.error error, tree) => (.error (.system error), tree)
  | (.ok (), tree) =>
    match Step.run (.create temporary) tree with
    | (.error error, tree) =>
      (.error (.within ("failed to create " ++ temporary.display) (.system error)), tree)
    | (.ok (), tree) =>
      match Step.runAll (delivery.chunks.map (.append temporary)) tree with
      | (.error error, tree) => (.error (.system error), tree)
      | (.ok (), tree) =>
        if delivery.complete then (.ok delivery.chunks.flatten.length, tree)
        else
          (.error (.within s!"failed to read upload '{upload.filename}'"
            (.reported "unexpected end of upload")), tree)

/-- Remove a temporary file if it can be removed. -/
def discard (temporary : Path) (tree : Tree) : Tree :=
  match tree.remove temporary with
  | .ok tree => tree
  | .error _ => tree

/-- The path of a parent's directory. -/
def directoryOf (blobs : LocalBlobs) (scope parent : String) : Path :=
  blobs.rootPath.join [scope, parent]

/-- Write an accepted upload to its place. -/
def write (blobs : LocalBlobs) (scope parent : String) (index : Nat) (upload : Upload)
    (media : MediaType) : Except Failure SavedBlob × LocalBlobs :=
  let directory := blobs.directoryOf scope parent
  match Step.run (.makeDirectories directory) blobs.tree with
  | (.error error, tree) =>
    (.error (.within ("failed to create " ++ directory.display) (.system error)),
      { blobs with tree })
  | (.ok (), tree) =>
    let (draw, names) := blobs.names.next
    let filename := Blob.filename draw index media
    let target := directory.join [filename]
    let temporary := blobs.temporaryDirectory.join [Blob.temporaryName draw]
    match spool blobs.temporaryDirectory temporary upload (max blobs.chunkSize 1) tree with
    | (.error failure, tree) =>
      (.error failure, { blobs with tree := discard temporary tree, names })
    | (.ok size, tree) =>
      match Step.run (.move temporary target) tree with
      | (.error error, tree) =>
        (.error (.within ("failed to move blob into " ++ target.display) (.system error)),
          { blobs with tree := discard temporary tree, names })
      | (.ok (), tree) =>
        (.ok
          { filename
            storageKey := scope ++ "/" ++ parent ++ "/" ++ filename
            path := target.display
            size },
          { blobs with tree, names, bytesWritten := blobs.bytesWritten + size })

/-- Save an upload, if its format is accepted and both ids are segments. -/
def save (blobs : LocalBlobs) (scope parent : String) (index : Nat) (upload : Upload) :
    Except GalleryError SavedBlob × LocalBlobs :=
  let checked : Except GalleryError MediaType := do
    let media ← upload.media
    Segment.check "scope" scope
    Segment.check "parent" parent
    return media
  match checked with
  | .error error => (.error error, blobs)
  | .ok media =>
    match blobs.write scope parent index upload media with
    | (.ok saved, blobs) => (.ok saved, blobs)
    | (.error failure, blobs) => (.error (.internal failure), blobs)

/-! ## Storage keys -/

/-- The path that a key stands for. A key must be relative and must not go up. A name `.` is passed
over, except at the start. -/
def resolve? (blobs : LocalBlobs) (key : String) : Option Path :=
  if key = "" ∨ Path.isAbsolute key then none
  else if (Path.split key).head? = some "." ∨ ".." ∈ Path.split key then none
  else some (blobs.rootPath.join (Path.split key))

/-- Whether a path leads below the root once all links are followed. -/
def isContained (blobs : LocalBlobs) (path : Path) : Bool :=
  match blobs.tree.canonical? path, blobs.tree.canonical? blobs.rootPath with
  | some place, some root => root.isPrefixOf place
  | _, _ => false

/-- Whether a key leads to a file below the root. -/
def contains (blobs : LocalBlobs) (key : String) : Bool :=
  match blobs.resolve? key with
  | some path => blobs.tree.isFile path && blobs.isContained path
  | none => false

/-- Remove what a key names, if that leads to a file below the root. -/
def delete (blobs : LocalBlobs) (key : String) : Bool × LocalBlobs :=
  match blobs.resolve? key with
  | none => (false, blobs)
  | some path =>
    if blobs.tree.isFile path ∧ blobs.isContained path then
      match blobs.tree.remove path with
      | .ok tree => (true, { blobs with tree })
      | .error _ => (false, blobs)
    else (false, blobs)

/-! ## Sweeping -/

/-- Remove those of the named temporary files that are files, and count them. -/
def sweepNames (directory : Path) : List String → Tree → Nat × Tree
  | [], tree => (0, tree)
  | name :: names, tree =>
    let path := directory.join [name]
    if tree.isFile path then
      match tree.remove path with
      | .ok tree =>
        let (swept, tree) := sweepNames directory names tree
        (swept + 1, tree)
      | .error _ => sweepNames directory names tree
    else sweepNames directory names tree

/-- Remove the temporary files that interrupted saves left behind, and count them. -/
def sweep (blobs : LocalBlobs) : Except Failure Nat × LocalBlobs :=
  let directory := blobs.temporaryDirectory
  match blobs.tree.listDirectory directory with
  | .error error =>
    (.error (.within ("failed to read " ++ directory.display) (.system error)), blobs)
  | .ok names =>
    let (swept, tree) := sweepNames directory names blobs.tree
    (.ok swept, { blobs with tree })

instance : BlobStore LocalBlobs where
  save := save
  delete := delete
  contains := contains

end LocalBlobs

end ImageGallery
