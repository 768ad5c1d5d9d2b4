import ImageGallery.MediaType
import ImageGallery.Text.Integer

/-!
# Errors

Errors are values that say what went wrong. The wording is in one function for each kind, and so
are the code and the HTTP status of a refused request.
-/

namespace ImageGallery

/-- A refusal of the file system. -/
inductive SystemError where
  | notFound
  | alreadyExists
  | notDirectory
  | isDirectory
  /-- A name or a path has too many bytes. -/
  | nameTooLong
  | tooManyLinks
  /-- A path has a character that cannot be in one. -/
  | zeroByte
deriving DecidableEq, Inhabited

namespace SystemError

/-- The wording of a refusal. -/
def message : SystemError → String
  | notFound => "No such file or directory (os error 2)"
  | alreadyExists => "File exists (os error 17)"
  | notDirectory => "Not a directory (os error 20)"
  | isDirectory => "Is a directory (os error 21)"
  | nameTooLong => "File name too long (os error 36)"
  | zeroByte => "file name contained an unexpected NUL byte"
  | tooManyLinks => "Too many levels of symbolic links (os error 40)"

end SystemError

/-- What is wrong with the text that says where a database is. -/
inductive LocationFault where
  /-- A zero byte stands after the given number of bytes. -/
  | zeroByte (position : Nat)
  /-- The host is not this machine. -/
  | host (name : String)
  /-- There is no such way to use a database. -/
  | mode (word : String)
  /-- There is no such way to share a database. -/
  | cache (word : String)
  /-- The way to use the database has been given up before. -/
  | forbidden (word : String)
  /-- There is no such way to work with files. -/
  | fileSystem (name : String)
deriving DecidableEq, Inhabited

namespace LocationFault

/-- The wording of a fault, from the outermost message to the innermost. -/
def messages : LocationFault → List String
  | zeroByte position =>
    List.replicate 2 s!"nul byte found in provided data at position: {position}"
  | host name => ["invalid uri authority: " ++ name, unknown]
  | mode word => ["no such access mode: " ++ word, unknown]
  | cache word => ["no such cache mode: " ++ word, unknown]
  | forbidden word =>
    ["access mode not allowed: " ++ word, "Error code 3: Access permission denied"]
  | fileSystem name => ["no such vfs: " ++ name, unknown]
where
  /-- The innermost message of most faults. -/
  unknown : String := "Error code 1: SQL error or missing database"

end LocationFault

/-- A refusal of a metadata store. -/
inductive StoreError where
  /-- The call names an image that the transaction's parent does not own. -/
  | notMember (image : Int) (parent : String)
  /-- The parent has a cover already. -/
  | secondCover
  /-- A stored number does not fit the 32 bits of the answer. -/
  | outOfRange (value : Nat)
  /-- A number of images does not fit 32 bits. -/
  | tooMany
  /-- Commits were told to fail. -/
  | commitRefused
  /-- No database can be opened or made at the path. -/
  | cannotOpen (path : String)
  /-- The text that says where the database is has a fault. -/
  | badLocation (text : String) (fault : LocationFault)
  /-- What stands at the path cannot be read. -/
  | noAnswer (path : String)
  /-- The file at the path holds something else. -/
  | notDatabase
  /-- The file at the path is not what its head says. -/
  | damaged
  /-- The tables in the file at the path are written in an unknown way. -/
  | unsupported
  /-- There is no room for a file beside that of the database. -/
  | noRoom
  /-- The database may only be read. -/
  | readOnly
  /-- Someone else has the database open. -/
  | locked
deriving DecidableEq, Inhabited

namespace StoreError

/-- The wording of a refusal, from the outermost message to the innermost. -/
def messages : StoreError → List String
  | notMember image parent => [s!"image {image} does not belong to parent {parent}"]
  | secondCover =>
    ["UNIQUE constraint failed: images.parent_id", "Error code 2067: A UNIQUE constraint failed"]
  | outOfRange value => [s!"Integer {value} out of range at index 0"]
  | tooMany => ["out of range integral type conversion attempted"]
  | commitRefused => ["injected commit failure"]
  | cannotOpen path =>
    ["failed to open sqlite database at " ++ path, "unable to open database file: " ++ path,
      "Error code 14: Unable to open the database file"]
  | badLocation text fault => ("failed to open sqlite database at " ++ text) :: fault.messages
  | noAnswer path =>
    ["failed to open sqlite database at " ++ path, "disk I/O error",
      "Error code 10: Some kind of disk I/O error occurred"]
  | notDatabase =>
    ["file is not a database", "Error code 26: File opened that is not a database file"]
  | damaged =>
    ["database disk image is malformed", "Error code 11: The database disk image is malformed"]
  | unsupported => ["unsupported file format", "Error code 1: SQL error or missing database"]
  | noRoom =>
    ["unable to open database file", "Error code 14: Unable to open the database file"]
  | readOnly =>
    ["attempt to write a readonly database", "Error code 8: Attempt to write a readonly database"]
  | locked => ["database is locked", "Error code 5: The database file is locked"]

end StoreError

/-- An internal failure: its cause, below the contexts that were added on the way out. -/
inductive Failure where
  | store (error : StoreError)
  | system (error : SystemError)
  /-- A cause that is known by its wording only. -/
  | reported (message : String)
  | within (context : String) (failure : Failure)
deriving DecidableEq, Inhabited

namespace Failure

/-- All messages of a failure, the outermost first. -/
def messages : Failure → List String
  | store error => error.messages
  | system error => [error.message]
  | reported message => [message]
  | within context failure => context :: failure.messages

/-- The outermost message. -/
def message (failure : Failure) : String :=
  failure.messages.headD ""

/-- All messages on one line. -/
def chain (failure : Failure) : String :=
  ": ".intercalate failure.messages

end Failure

/-- A field of an item in a reorder payload. -/
inductive ItemField where
  | id
  | order
deriving DecidableEq, Inhabited

/-- The name of the field. -/
def ItemField.name : ItemField → String
  | id => "id"
  | order => "order"

/-- How a reorder payload in a request body fails to be one. -/
inductive PayloadFault where
  /-- The request does not declare a JSON body. -/
  | undeclared
  /-- The body is larger than the limit. -/
  | oversized
  /-- The body is not JSON. -/
  | malformed
  /-- The body is JSON of another shape. -/
  | mismatch
deriving DecidableEq, Inhabited

/-- The wording of the fault. -/
def PayloadFault.message : PayloadFault → String
  | undeclared => "Expected request with `Content-Type: application/json`"
  | oversized => "Failed to buffer the request body"
  | malformed => "Failed to parse the request body as JSON"
  | mismatch => "Failed to deserialize the JSON body into the target type"

/-- What is wrong with a request's input. -/
inductive InvalidInput where
  /-- An id cannot be used as the name of a directory. -/
  | segment (kind value : String)
  /-- An upload brings no files. -/
  | noFiles
  /-- A reorder payload has no items. -/
  | noItems
  /-- An item lacks a field, or the field is no integer. -/
  | item (index : Nat) (field : ItemField)
  /-- The image id in a path is no integer. -/
  | imageId (raw : String)
  /-- The body of an upload is no form. -/
  | form
  /-- The body of a reorder request is no payload. -/
  | payload (fault : PayloadFault)
  /-- A reason in the caller's words. -/
  | stated (message : String)
deriving DecidableEq, Inhabited

/-- The wording of what is wrong. -/
def InvalidInput.message : InvalidInput → String
  | segment kind value => s!"{kind} id '{value}' is not a valid storage path segment"
  | noFiles => "no files were submitted"
  | noItems => "reorder payload must contain at least one item"
  | item index field => s!"item {index}: missing or invalid " ++ field.name
  | imageId raw => s!"invalid image id '{raw}'"
  | form => "malformed multipart body: Error parsing `multipart/form-data` request"
  | payload fault => "malformed reorder payload: " ++ fault.message
  | stated message => message

/-- Why an operation on a gallery was refused. -/
inductive GalleryError where
  | parentNotFound (parent : String)
  | imageNotFound (image : Int)
  | invalidInput (reason : InvalidInput)
  /-- More files than one request may bring. -/
  | limitExceeded (limit submitted : Nat)
  /-- The parent's gallery is full. -/
  | capacityExceeded (parent : String) (capacity : Nat)
  /-- Neither the declared type nor the extension of a file is accepted. -/
  | unsupportedMediaType (filename : String)
  /-- A store or the disk failed. -/
  | internal (failure : Failure)
deriving DecidableEq, Inhabited

namespace GalleryError

/-- The code that clients tell errors apart by. -/
def code : GalleryError → String
  | parentNotFound _ | imageNotFound _ => "NotFound"
  | invalidInput _ => "InvalidInput"
  | limitExceeded .. => "LimitExceeded"
  | capacityExceeded .. => "CapacityExceeded"
  | unsupportedMediaType _ => "UnsupportedMediaType"
  | internal _ => "InternalError"

/-- The HTTP status of an error. -/
def status : GalleryError → Nat
  | parentNotFound _ | imageNotFound _ => 404
  | invalidInput _ => 400
  | limitExceeded .. => 413
  | capacityExceeded .. => 409
  | unsupportedMediaType _ => 415
  | internal _ => 500

/-- The wording of an error. -/
def message : GalleryError → String
  | parentNotFound parent => "parent not found: " ++ parent
  | imageNotFound image => s!"image not found: {image}"
  | invalidInput reason => reason.message
  | limitExceeded limit submitted =>
    s!"at most {limit} files may be uploaded per request, got {submitted}"
  | capacityExceeded parent capacity =>
    s!"gallery for parent {parent} is full ({capacity} images)"
  | unsupportedMediaType filename => s!"unsupported media type for file '{filename}'"
  | internal failure => "internal error: " ++ failure.message

/-- The wording that a client is shown: internal details stay inside. -/
def publicMessage : GalleryError → String
  | internal _ => "We encountered an internal error, please try again."
  | error => error.message

/-- An error of a store, as the error of an operation. -/
def ofStore (error : StoreError) : GalleryError :=
  internal (.store error)

/-- A refusal of the file system, as the error of an operation. -/
def ofSystem (error : SystemError) : GalleryError :=
  internal (.system error)

end GalleryError

end ImageGallery
