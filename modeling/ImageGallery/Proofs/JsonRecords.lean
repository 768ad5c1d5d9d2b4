import ImageGallery.Export
import ImageGallery.Manager
import ImageGallery.Proofs.JsonText
import ImageGallery.Store.Document

/-!
# Records read back from JSON

A client reads an image from the members of its object, each by its key. What is written for an
image, or for a list of images, reads back as it was, field by field.
-/

namespace ImageGallery

open Json (Value)

namespace Json.Value

/-- The flag of a member. -/
def flagMember? (key : String) (value : Value) : Option Bool :=
  match value.member? key with
  | some (.boolean flag) => some flag
  | _ => none

theorem integerMember?_of_ofInt {key : String} {value : Value} {number : Int}
    (found : value.member? key = some (.ofInt number)) :
    value.integerMember? key = some number := by
  cases number with
  | ofNat number => simp [integerMember?, found, ofInt, Numeral.ofInt]
  | negSucc number => simp [integerMember?, found, ofInt, Numeral.ofInt, Int.negSucc_eq]

theorem integerMember?_of_ofNat {key : String} {value : Value} {number : Nat}
    (found : value.member? key = some (.ofNat number)) :
    value.integerMember? key = some (number : Int) := by
  simp [integerMember?, found, ofNat]

theorem mapM_map {α : Type} {write : α → Value} {read : Value → Option α}
    (back : ∀ each, read (write each) = some each) (items : List α) :
    (items.map write).mapM read = some items := by
  induction items with
  | nil => rfl
  | cons item items ih => simp [List.mapM_cons, back, ih]

/-- A list of items that are each read back is read back. -/
theorem listMember?_of_map {α : Type} {key : String} {value : Value} {write : α → Value}
    {read : Value → Option α} {items : List α}
    (found : value.member? key = some (.list (items.map write)))
    (back : ∀ each, read (write each) = some each) :
    value.listMember? key read = some items := by
  simp [listMember?, found, mapM_map back]

theorem printable_ofInt {depth : Nat} {number : Int} (small : number.natAbs < Numeral.room) :
    (ofInt number).Printable depth := by
  cases number with
  | ofNat number => exact .number small
  | negSucc number => exact .number small

theorem printable_ofNat {depth : Nat} {number : Nat} (small : number < Numeral.room) :
    (ofNat number).Printable depth :=
  .number small

end Json.Value

namespace ImageRecord

/-- The image that an object is read as. -/
def ofJson? (value : Value) : Option ImageRecord := do
  return {
    id := ← value.integerMember? "id"
    parentId := ← value.textMember? "parent_id"
    url := ← value.textMember? "url"
    storageKey := ← value.textMember? "storage_key"
    isCover := ← value.flagMember? "is_cover"
    sortOrder := (← value.integerMember? "sort_order").toNat.toUInt32
    createdAt := ← value.textMember? "created_at" }

theorem ofJson?_toJson (image : ImageRecord) : ofJson? image.toJson = some image := by
  have id : image.toJson.integerMember? "id" = some image.id :=
    Value.integerMember?_of_ofInt rfl
  have order : image.toJson.integerMember? "sort_order" = some (image.sortOrder.toNat : Int) :=
    Value.integerMember?_of_ofNat rfl
  have parentId : image.toJson.textMember? "parent_id" = some image.parentId := rfl
  have url : image.toJson.textMember? "url" = some image.url := rfl
  have storageKey : image.toJson.textMember? "storage_key" = some image.storageKey := rfl
  have isCover : image.toJson.flagMember? "is_cover" = some image.isCover := rfl
  have createdAt : image.toJson.textMember? "created_at" = some image.createdAt := rfl
  simp [ofJson?, id, order, parentId, url, storageKey, isCover, createdAt]

theorem printable_toJson {depth : Nat} {image : ImageRecord}
    (small : image.id.natAbs < Json.Numeral.room) : image.toJson.Printable (depth + 1) := by
  have order : image.sortOrder.toNat < Json.Numeral.room :=
    image.sortOrder.toNat_lt.trans (by decide)
  exact .cons (.text _ _) <| .cons (Value.printable_ofInt small) <| .cons (.boolean _ _) <|
    .cons (.text _ _) <| .cons (Value.printable_ofNat order) <| .cons (.text _ _) <|
    .cons (.text _ _) .nil

end ImageRecord

end ImageGallery
