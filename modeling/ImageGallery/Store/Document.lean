import ImageGallery.Json.Printer
import ImageGallery.Json.Reader
import ImageGallery.Store.Database
import ImageGallery.Text.Utf8

/-!
# Databases as documents

A database is written as a JSON document with a mark that tells it from all others.
-/

namespace ImageGallery

open Json (Value)

namespace Json.Value

/-- The text of a member. -/
def textMember? (key : String) (value : Value) : Option String :=
  match value.member? key with
  | some (.text contents) => some contents
  | _ => none

/-- The integer of a member. -/
def integerMember? (key : String) (value : Value) : Option Int :=
  match value.member? key with
  | some (.number (.integer negative digits)) =>
    some (if negative then -(digits : Int) else digits)
  | _ => none

/-- The items of a member, each read by a function. -/
def listMember? {α : Type} (key : String) (read : Value → Option α) (value : Value) :
    Option (List α) :=
  match value.member? key with
  | some (.list items) => items.mapM read
  | _ => none

end Json.Value

namespace Database

/-- The mark of a document that holds a database. -/
def mark : String := "gallery database 1"

/-- The row of a parent. -/
def parentRow (parent : ParentRecord) : Value :=
  .object
    [ ("id", .text parent.id), ("scope", .text parent.scopeId),
      ("created", .text parent.createdAt) ]

/-- The parent of a row. -/
def parentOfRow? (row : Value) : Option ParentRecord := do
  return {
    id := ← Json.Value.textMember? "id" row
    scopeId := ← Json.Value.textMember? "scope" row
    createdAt := ← Json.Value.textMember? "created" row }

/-- The row of an image. -/
def imageRow (image : ImageRecord) : Value :=
  .object
    [ ("id", .ofInt image.id), ("parent", .text image.parentId), ("url", .text image.url),
      ("key", .text image.storageKey), ("cover", .ofInt (if image.isCover then 1 else 0)),
      ("order", .ofNat image.sortOrder.toNat), ("created", .text image.createdAt) ]

/-- The image of a row. -/
def imageOfRow? (row : Value) : Option ImageRecord := do
  return {
    id := ← Json.Value.integerMember? "id" row
    parentId := ← Json.Value.textMember? "parent" row
    url := ← Json.Value.textMember? "url" row
    storageKey := ← Json.Value.textMember? "key" row
    isCover := (← Json.Value.integerMember? "cover" row) = 1
    sortOrder := (← Json.Value.integerMember? "order" row).toNat.toUInt32
    createdAt := ← Json.Value.textMember? "created" row }

/-- A database as JSON. -/
def toJson (database : Database) : Value :=
  .object
    [ ("mark", .text mark), ("sequence", .ofInt database.sequence),
      ("parents", .list (database.parents.records.map parentRow)),
      ("images", .list (database.images.map imageRow)) ]

/-- The database of a JSON value. -/
def ofJson? (value : Value) : Option Database := do
  if (← Json.Value.textMember? "mark" value) = mark then
    return {
      sequence := ← Json.Value.integerMember? "sequence" value
      parents := ⟨← Json.Value.listMember? "parents" parentOfRow? value⟩
      images := ← Json.Value.listMember? "images" imageOfRow? value }
  else
    none

/-- The content of the file that keeps a database. -/
def toBytes (database : Database) : Bytes :=
  Text.encode database.toJson.compact

/-- The database that a file's content keeps. -/
def ofBytes? (content : Bytes) : Option Database := do
  let text ← Text.decode? content
  match Json.parse text.toList with
  | .ok value => ofJson? value
  | .error _ => none

end Database

end ImageGallery
