import ImageGallery.Error
import ImageGallery.Json.Record
import ImageGallery.Order.LooseInt

/-!
# Reorder payloads

A payload is a list of items, each with the id of an image and the position that it is wanted at.
A payload is accepted as a whole or refused for its first item that lacks a field. When an id is
named more than once the last item decides, and negative positions count as zero.
-/

namespace ImageGallery

/-- One entry of a reorder payload, as the client wrote it. -/
structure ReorderItem where
  id : Option LooseInt := none
  order : Option LooseInt := none
deriving DecidableEq, Inhabited

namespace ReorderItem

/-- Read the value of a field, where `null` is an absent value. -/
def readLoose (fuel depth : Nat) (chars : List Char) :
    Json.Reading (Option LooseInt × List Char) := do
  let (value, rest) ← Json.readValue fuel depth chars
  return (LooseInt.ofValue? value, rest)

/-- The two fields of an item. -/
def fields : List (Json.Field ReorderItem) :=
  [ ⟨"id", fun fuel depth item chars => do
      let (value, rest) ← readLoose fuel depth chars
      return ({ item with id := value }, rest)⟩,
    ⟨"order", fun fuel depth item chars => do
      let (value, rest) ← readLoose fuel depth chars
      return ({ item with order := value }, rest)⟩ ]

/-- Read an item. -/
def read (fuel depth : Nat) (chars : List Char) : Json.Reading (ReorderItem × List Char) :=
  Json.readRecord fields {} fuel depth chars

/-- Read a list of items. -/
def readMany (fuel depth : Nat) (chars : List Char) :
    Json.Reading (List ReorderItem × List Char) :=
  Json.readList read fuel depth chars

/-- Read the items of a request: an object whose member `items` lists them. -/
def readRequest (fuel depth : Nat) (chars : List Char) :
    Json.Reading (List ReorderItem × List Char) :=
  Json.readRecord [⟨"items", fun fuel depth _ chars => readMany fuel depth chars⟩] [] fuel depth
    chars

/-- The item that a whole text holds. -/
def parse (text : String) : Json.Reading ReorderItem :=
  Json.readText read text.toList

/-- The items that a whole text holds. -/
def parseMany (text : String) : Json.Reading (List ReorderItem) :=
  Json.readText readMany text.toList

end ReorderItem

/-- The value that a text denotes as a single loosely typed integer. -/
def LooseInt.parse (text : String) : Json.Reading (Option LooseInt) :=
  Json.readText ReorderItem.readLoose text.toList

/-- Positions by image id. The first entry of an id counts, and entries after it are overridden. -/
structure Positions where
  entries : List (Int × Nat) := []
deriving DecidableEq, Inhabited

namespace Positions

/-- The position of an image, if the positions name it. -/
def find? (positions : Positions) (id : Int) : Option Nat :=
  (positions.entries.find? fun entry => entry.1 = id).map (·.2)

/-- Give an image a position in place of the one it had. -/
def insert (positions : Positions) (id : Int) (position : Nat) : Positions :=
  ⟨(id, position) :: positions.entries⟩

/-- The entries that count, in the order of their ids. Sorting keeps entries of one id in their
order, so the one that counts is the first of its run. -/
def sorted (positions : Positions) : List (Int × Nat) :=
  (positions.entries.mergeSort fun first second => first.1 ≤ second.1).eraseRepsBy
    fun first second => first.1 = second.1

@[simp]
theorem find?_empty (id : Int) : find? {} id = none :=
  rfl

@[simp]
theorem find?_insert_self (positions : Positions) (id : Int) (position : Nat) :
    (positions.insert id position).find? id = some position := by
  simp [find?, insert]

theorem find?_insert_of_ne (positions : Positions) {id other : Int} (position : Nat)
    (differ : other ≠ id) : (positions.insert id position).find? other = positions.find? other := by
  have unnamed : ¬id = other := fun same => differ same.symm
  simp [find?, insert, unnamed]

/-- Collect the positions of items from the given index on. -/
def collect (positions : Positions) (index : Nat) : List ReorderItem → Except GalleryError Positions
  | [] => .ok positions
  | item :: items =>
    match item.id.bind LooseInt.coerce? with
    | none => .error (.invalidInput (.item index .id))
    | some id =>
      match item.order.bind LooseInt.coerce? with
      | none => .error (.invalidInput (.item index .order))
      | some order => collect (positions.insert id order.toNat) (index + 1) items

/-- The positions that a payload asks for. -/
def ofItems (items : List ReorderItem) : Except GalleryError Positions :=
  if items.isEmpty then .error (.invalidInput .noItems) else collect {} 0 items

end Positions

end ImageGallery
