import ImageGallery.Error
import ImageGallery.Text.Utf8

/-!
# Uploaded files

A file that a client sends: its name and media type as declared, and its content. The content is
held in memory or was spooled to a temporary file; either way it is read in chunks, each as large
as the reader's buffer while there are bytes left. An upload may break off after some chunks.
-/

namespace ImageGallery

/-- Content held in memory, from the position where the next read starts. -/
structure HeldContent where
  ahead : Bytes
deriving DecidableEq, Inhabited

namespace HeldContent

/-- Read a chunk into a buffer of the given size. -/
def readChunk (held : HeldContent) (size : Nat) : Bytes × HeldContent :=
  (held.ahead.take size, ⟨held.ahead.drop size⟩)

end HeldContent

/-- An open temporary file: its content, and what lies ahead of the read position. -/
structure SpooledContent where
  content : Bytes
  ahead : Bytes
deriving DecidableEq, Inhabited

namespace SpooledContent

/-- Go back to the start of the file. -/
def rewind (spooled : SpooledContent) : SpooledContent :=
  { spooled with ahead := spooled.content }

/-- Read a chunk into a buffer of the given size. -/
def readChunk (spooled : SpooledContent) (size : Nat) : Bytes × SpooledContent :=
  (spooled.ahead.take size, { spooled with ahead := spooled.ahead.drop size })

end SpooledContent

/-- Where the content of an upload comes from. -/
inductive UploadContent where
  | held (content : HeldContent)
  | spooled (content : SpooledContent)
deriving DecidableEq, Inhabited

namespace UploadContent

/-- Read a chunk into a buffer of the given size. -/
def readChunk (content : UploadContent) (size : Nat) : Bytes × UploadContent :=
  match content with
  | .held source =>
    let (chunk, source) := source.readChunk size
    (chunk, .held source)
  | .spooled source =>
    let (chunk, source) := source.readChunk size
    (chunk, .spooled source)

/-- The bytes that are still to be read. -/
def ahead : UploadContent → Bytes
  | .held source => source.ahead
  | .spooled source => source.ahead

/-- Read one chunk for each buffer size. -/
def readChunks (content : UploadContent) : (sizes : List Nat) → List Bytes
  | [] => []
  | size :: sizes =>
    let (chunk, content) := content.readChunk size
    chunk :: content.readChunks sizes

end UploadContent

/-- A file as a client sends it. -/
structure Upload where
  /-- The declared name. -/
  filename : String
  /-- The declared media type, if any. -/
  contentType : Option String
  content : UploadContent
  /-- The number of reads after which the content breaks off, if it does. -/
  breaksAfter : Option Nat := none
deriving DecidableEq, Inhabited

namespace Upload

/-- A file whose content is held in memory. -/
def ofHeld (filename : String) (contentType : Option String) (content : Bytes) : Upload :=
  { filename, contentType, content := .held ⟨content⟩ }

/-- A file that was spooled, read from its start. -/
def ofSpooled (filename : String) (contentType : Option String) (spooled : SpooledContent) :
    Upload :=
  { filename, contentType, content := .spooled spooled.rewind }

/-- The accepted format of the file. -/
def media? (upload : Upload) : Option MediaType :=
  MediaType.detect? upload.filename upload.contentType

/-- The format of the file, or the error that refuses it. -/
def media (upload : Upload) : Except GalleryError MediaType :=
  match upload.media? with
  | some media => .ok media
  | none => .error (.unsupportedMediaType upload.filename)

/-- What reading content to its end delivers: the chunks, and whether the end was reached. -/
structure Delivery where
  chunks : List Bytes
  complete : Bool
deriving DecidableEq, Inhabited

/-- Read chunks up to an empty one. `behind` holds the chunks read before, the last one first. With
a positive size the bytes ahead bound the reads. -/
def deliver (size : Nat) :
    (reads : Nat) → (behind : List Bytes) → UploadContent → Option Nat → Delivery
  | 0, behind, _, _ => ⟨behind.reverse, true⟩
  | _ + 1, behind, _, some 0 => ⟨behind.reverse, false⟩
  | reads + 1, behind, content, breaksAfter =>
    match content.readChunk size with
    | ([], _) => ⟨behind.reverse, true⟩
    | (chunk, content) =>
      deliver size reads (chunk :: behind) content (breaksAfter.map (· - 1))

/-- Read the whole upload through a buffer of the given size. -/
def delivery (upload : Upload) (size : Nat) : Delivery :=
  deliver size (upload.content.ahead.length + 1) [] upload.content upload.breaksAfter

end Upload

end ImageGallery
