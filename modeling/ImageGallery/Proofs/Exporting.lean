import ImageGallery.Proofs.DisplayOrder
import ImageGallery.Proofs.JsonRecords
import ImageGallery.Store.Memory

/-!
# Exports are lossless

What is written for a parent and its gallery reads back as it was, and the entries of an export
stand in the order of the parents. So the text of an export holds everything that is known of the
parents and their images, whatever characters their texts are made of. An export of one parent has
the entries with its id, and is refused if there is none.
-/

namespace ImageGallery.Export

open Json (Value)

/-! ## Reading -/

/-- The parent and the gallery of an entry. -/
def entryOf? (value : Value) : Option (ParentRecord × List ImageRecord) := do
  let parent : ParentRecord :=
    { id := ← value.textMember? "id"
      scopeId := ← value.textMember? "scope_id"
      createdAt := ← value.textMember? "created_at" }
  return (parent, ← value.listMember? "images" ImageRecord.ofJson?)

/-- The entries of an export, read off its text. -/
def read? (text : String) : Option (List (ParentRecord × List ImageRecord)) :=
  match Json.parse text.toList with
  | .ok document => document.listMember? "parents" entryOf?
  | .error _ => none

theorem entryOf?_entry (parent : ParentRecord) (images : List ImageRecord) :
    entryOf? (entry parent images) = some (parent, images) := by
  have id : (entry parent images).textMember? "id" = some parent.id := rfl
  have scopeId : (entry parent images).textMember? "scope_id" = some parent.scopeId := rfl
  have createdAt : (entry parent images).textMember? "created_at" = some parent.createdAt := rfl
  have gallery : (entry parent images).listMember? "images" ImageRecord.ofJson? = some images :=
    Value.listMember?_of_map rfl ImageRecord.ofJson?_toJson
  simp [entryOf?, id, scopeId, createdAt, gallery]

theorem printable_entry {depth : Nat} {parent : ParentRecord} {images : List ImageRecord}
    (small : ∀ image ∈ images, image.id.natAbs < Json.Numeral.room) :
    (entry parent images).Printable (depth + 3) := by
  have gallery : (Value.list (images.map ImageRecord.toJson)).Printable (depth + 2) := by
    refine .list fun value mem => ?_
    obtain ⟨image, stored, rfl⟩ := List.mem_map.mp mem
    exact ImageRecord.printable_toJson (small image stored)
  exact .cons (.text _ _) (.cons (.text _ _) (.cons gallery (.cons (.text _ _) .nil)))

theorem printable_document (now : String) {entries : List Value}
    (printable : ∀ value ∈ entries, value.Printable (Json.depthLimit - 2)) :
    (document now entries).Printable Json.depthLimit :=
  .cons (.list printable) <| .cons
    (.cons (.text _ _) (.cons (.text _ _) (.cons (Value.printable_ofNat (by decide)) .nil))) .nil

/-- A document reads back as the parents and galleries that it was written for. -/
theorem read?_document (now : String) {exported : List (ParentRecord × List ImageRecord)}
    (small : ∀ each ∈ exported, ∀ image ∈ each.2, image.id.natAbs < Json.Numeral.room) :
    read? (document now (exported.map fun each => entry each.1 each.2)).pretty =
      some exported := by
  have printable : ∀ value ∈ exported.map (fun each => entry each.1 each.2),
      value.Printable (Json.depthLimit - 2) := by
    intro value mem
    obtain ⟨each, given, rfl⟩ := List.mem_map.mp mem
    exact printable_entry (small each given)
  have parsed := Json.parse_pretty (printable_document now printable)
  have back (each : ParentRecord × List ImageRecord) :
      entryOf? ((fun each => entry each.1 each.2) each) = some each :=
    entryOf?_entry each.1 each.2
  rw [read?, parsed]
  exact Value.listMember?_of_map (by rfl) back

/-! ## Exporting -/

section Galleries

variable {σ τ : Type} [GalleryStore σ τ]

/-- Parents, each with its gallery. -/
def withGalleries (store : σ) (parents : List ParentRecord) :
    List (ParentRecord × List ImageRecord) :=
  parents.map fun parent => (parent, GalleryStore.listImages store parent.id)

/-- What an export of some parents promises: all of them can be read from it, or those of the wanted
id, and a wanted parent has to be there. -/
structure Lossless (store : σ) (parents : List ParentRecord) (now : String) : Prop where
  whole : ∃ text, galleries store parents none now = .ok text ∧
    read? text = some (withGalleries store parents)
  single : ∀ id, (∃ parent ∈ parents, parent.id = id) →
    ∃ text, galleries store parents (some id) now = .ok text ∧
      read? text = some (withGalleries store (parents.filter fun parent => parent.id = id))
  missing : ∀ id, (galleries store parents (some id) now).mapError refusal =
    .error ("parent not found: " ++ id) ↔ ∀ parent ∈ parents, parent.id ≠ id

theorem filter_all_some (parents : List ParentRecord) (id : String) :
    (parents.filter fun parent => (some id).all (· = parent.id)) =
      parents.filter fun parent => parent.id = id := by
  apply List.filter_congr
  intro parent mem
  simp [eq_comm]

/-- The text of an export that is not refused. -/
theorem galleries_eq_ok {store : σ} {parents : List ParentRecord} {only : Option String}
    {now : String} {wanted : List ParentRecord}
    (filtered : (parents.filter fun parent => only.all (· = parent.id)) = wanted)
    (given : only = none ∨ wanted ≠ []) :
    galleries store parents only now = .ok (document now
      ((withGalleries store wanted).map fun each => entry each.1 each.2)).pretty := by
  have entries : (withGalleries store wanted).map (fun each => entry each.1 each.2) =
      wanted.map fun parent => entry parent (GalleryStore.listImages store parent.id) := by
    rw [withGalleries, List.map_map]
    rfl
  unfold galleries
  dsimp only
  rw [entries, filtered]
  split
  · rcases given with impossible | filled
    · cases impossible
    · exact absurd rfl filled
  · rfl

theorem galleries_eq_error {store : σ} {parents : List ParentRecord} {id now : String}
    (absent : (parents.filter fun parent => parent.id = id) = []) :
    galleries store parents (some id) now = .error id := by
  unfold galleries
  dsimp only
  rw [filter_all_some, absent]

/-- Nothing is lost in an export, as long as the ids of the images are numbers of 64 bits. -/
theorem lossless_galleries (store : σ) (parents : List ParentRecord) (now : String)
    (small : ∀ parent ∈ parents, ∀ image ∈ GalleryStore.listImages store parent.id,
      image.id.natAbs < Json.Numeral.room) : Lossless store parents now := by
  have bounded : ∀ wanted : List ParentRecord, (∀ parent ∈ wanted, parent ∈ parents) →
      ∀ each ∈ withGalleries store wanted, ∀ image ∈ each.2,
        image.id.natAbs < Json.Numeral.room := by
    intro wanted within each mem
    obtain ⟨parent, given, rfl⟩ := List.mem_map.mp mem
    exact small parent (within parent given)
  have chosen : ∀ id, (∃ parent ∈ parents, parent.id = id) →
      ∃ text, galleries store parents (some id) now = .ok text ∧
        read? text = some (withGalleries store (parents.filter fun parent => parent.id = id)) := by
    rintro id ⟨parent, mem, named⟩
    have filled : (parents.filter fun parent => parent.id = id) ≠ [] :=
      List.ne_nil_of_mem (List.mem_filter.mpr ⟨mem, by simpa using named⟩)
    exact ⟨_, galleries_eq_ok (filter_all_some parents id) (.inr filled),
      read?_document now (bounded _ fun parent kept => (List.mem_filter.mp kept).1)⟩
  constructor
  · have all : (parents.filter fun parent => (none : Option String).all (· = parent.id)) =
        parents := by simp
    exact ⟨_, galleries_eq_ok all (.inl rfl), read?_document now (bounded _ fun _ mem => mem)⟩
  · exact chosen
  · intro id
    constructor
    · intro refused parent mem named
      obtain ⟨text, answered, -⟩ := chosen id ⟨parent, mem, named⟩
      rw [answered] at refused
      cases refused
    · intro absent
      have empty : (parents.filter fun parent => parent.id = id) = [] := by
        rw [List.filter_eq_nil_iff]
        intro parent mem
        simpa using absent parent mem
      rw [galleries_eq_error empty]
      rfl

end Galleries

/-- A gallery with texts of all kinds of characters, and with the greatest numbers that there
are. -/
def awkward : MemoryStore where
  galleries :=
    [ ("p", [
        { url := "\"\\/\x00\x1f\x7f", storageKey := "é😀\n", isCover := true,
          sortOrder := 4294967295, createdAt := "", id := 9223372036854775807, parentId := "p" },
        { url := "", storageKey := "", isCover := false, sortOrder := 0, createdAt := "\t",
          id := -9223372036854775808, parentId := "p" }]) ]

theorem lossless_awkward :
    (∀ parent ∈ [(⟨"p", "s", "\"\\"⟩ : ParentRecord), ⟨"q\x00", "", "😀"⟩],
      ∀ image ∈ GalleryStore.listImages awkward parent.id,
        image.id.natAbs < Json.Numeral.room) ∧
      Lossless awkward [⟨"p", "s", "\"\\"⟩, ⟨"q\x00", "", "😀"⟩] "now" := by
  have small : ∀ parent ∈ [(⟨"p", "s", "\"\\"⟩ : ParentRecord), ⟨"q\x00", "", "😀"⟩],
      ∀ image ∈ GalleryStore.listImages awkward parent.id,
        image.id.natAbs < Json.Numeral.room := by
    have stored : ∀ parent ∈ ["p", "q\x00"], ∀ image ∈ awkward.gallery parent,
        image.id.natAbs < Json.Numeral.room := by decide +kernel
    intro parent mem image listed
    have kept : image ∈ awkward.gallery parent.id :=
      (arrange_perm (awkward.gallery parent.id)).mem_iff.mp listed
    exact stored parent.id (List.mem_map_of_mem (f := ParentRecord.id) mem) image kept
  exact ⟨small, lossless_galleries awkward _ "now" small⟩

end ImageGallery.Export
