import ImageGallery.Store.Database
import ImageGallery.Text.Utf8

/-!
# Contents of files

A file holds bytes, or a database. The bytes are kept in the pieces that they were written in, so
that adding bytes to a long file takes no longer than adding them to a short one.
-/

namespace ImageGallery.Disk

/-- A database in a file. -/
structure DatabaseFile where
  database : Database := {}
  /-- Whether changes go to a log beside the file first. -/
  logged : Bool := true
  /-- Whether the file holds all changes. If it does not, someone has the database open, and the
  other changes are in the log. -/
  settled : Bool := true
deriving DecidableEq, Inhabited

namespace DatabaseFile

/-- The size of a page of a database. -/
def pageSize : Nat := 4096

/-- The number of pages that the tables and their indexes take up. -/
def pageCount (file : DatabaseFile) : Nat :=
  if file.settled then 8 else 1

/-- A database as bytes, for those who do not read it as one: its pages are no text. -/
def bytes (file : DatabaseFile) : Bytes :=
  Text.encode "SQLite format 3\x00" ++ List.replicate (file.pageCount * pageSize - 16) 0x88

end DatabaseFile

/-- What a file holds. -/
inductive Content where
  /-- Bytes: the pieces that they were written in, the last one first. -/
  | written (pieces : List Bytes)
  | database (file : DatabaseFile)
deriving DecidableEq, Inhabited

namespace Content

/-- The content of some bytes. -/
def ofBytes (bytes : Bytes) : Content :=
  written [bytes]

/-- A content as bytes. -/
def bytes : Content → Bytes
  | written pieces => pieces.reverse.flatten
  | database file => file.bytes

/-- The content with bytes added at its end. -/
def append (content : Content) (chunk : Bytes) : Content :=
  match content with
  | written pieces => .written (chunk :: pieces)
  | database file => .written [chunk, file.bytes]

@[simp]
theorem bytes_ofBytes (bytes : Bytes) : (ofBytes bytes).bytes = bytes := by
  simp [ofBytes, Content.bytes]

@[simp]
theorem bytes_append (content : Content) (chunk : Bytes) :
    (content.append chunk).bytes = content.bytes ++ chunk := by
  cases content <;> simp [append, bytes]

end Content

end ImageGallery.Disk
