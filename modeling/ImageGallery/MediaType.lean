import ImageGallery.Text.Blank
import ImageGallery.Text.Fields

/-!
# Media types

The image formats that a gallery accepts. A file is recognised by the media type that its sender
declares and, when that is absent or not on the list, by the extension of its name.
-/

namespace ImageGallery

/-- The two spellings of the JPEG extension. -/
inductive JpegExtension where
  | jpg
  | jpeg
deriving DecidableEq, Inhabited

/-- An accepted image format. A JPEG keeps the spelling of its extension. -/
inductive MediaType where
  | jpeg (extension : JpegExtension)
  | png
  | webp
deriving DecidableEq, Inhabited

namespace MediaType

/-- The extension that a stored file gets. -/
def extension : MediaType → String
  | jpeg .jpg => "jpg"
  | jpeg .jpeg => "jpeg"
  | png => "png"
  | webp => "webp"

/-- The format of a declared media type. Parameters, case and surrounding blanks do not matter. -/
def ofContentType? (declared : String) : Option MediaType :=
  match String.ofList
      ((Text.trimBlank (Text.beforeFirst ';' declared.toList)).map Char.toLower) with
  | "image/jpeg" | "image/jpg" | "image/pjpeg" => some (jpeg .jpg)
  | "image/png" => some png
  | "image/webp" => some webp
  | _ => none

/-- The format of an extension, in any case. -/
def ofExtension? (extension : List Char) : Option MediaType :=
  match String.ofList (extension.map Char.toLower) with
  | "jpg" => some (jpeg .jpg)
  | "jpeg" => some (jpeg .jpeg)
  | "png" => some png
  | "webp" => some webp
  | _ => none

/-- The format of a file name, read off what follows its last point. -/
def ofFilename? (filename : String) : Option MediaType := do
  let (_, extension) ← Text.cutLast? '.' filename.toList
  ofExtension? extension

/-- The format of a file: its declared type if that is on the list, else by its name. -/
def detect? (filename : String) (declared : Option String) : Option MediaType :=
  (declared.bind ofContentType?).or (ofFilename? filename)

/-- A declared type on the list decides, whatever the name. -/
theorem detect?_of_declared {filename declared : String} {media : MediaType}
    (listed : ofContentType? declared = some media) :
    detect? filename (some declared) = some media := by
  simp [detect?, listed]

/-- Without a declared type on the list the name decides. -/
theorem detect?_of_undeclared {filename : String} {declared : Option String}
    (unlisted : declared.bind ofContentType? = none) :
    detect? filename declared = ofFilename? filename := by
  simp [detect?, unlisted]

end MediaType

end ImageGallery
