import ImageGallery.Proofs.Rearranging

/-!
# What a payload is refused for

A payload is accepted if it has items and each of them has an id and a position, both integers. It
does not matter whether the id is named again or belongs to nobody. The first item that lacks a
field is reported with its index, and for its id if it lacks that. An accepted payload gives a
position to the ids that it names and to no others.

Nothing of this asks a store: a payload that is refused is refused before a transaction is started.
-/

namespace ImageGallery

/-! ## Fields -/

namespace LooseInt

/-- An integer numeral fits 64 bits, as a reader makes sure. -/
def Within : LooseInt → Prop
  | integer value => least ≤ value ∧ value ≤ greatest
  | _ => True

theorem within_ofNumeral (numeral : Json.Numeral) : (ofNumeral numeral).Within := by
  have other : ((numeral.toBinary64?.map number).getD .other).Within := by
    cases numeral.toBinary64? <;> trivial
  unfold ofNumeral
  cases numeral with
  | decimal negative digits exponent => exact other
  | integer negative digits =>
      dsimp only
      generalize (if negative then -(digits : Int) else digits) = value
      split
      · rename_i signed
        have bounds := signed.1
        rw [Text.inSigned64, Bool.and_eq_true, decide_eq_true_iff, decide_eq_true_iff] at bounds
        exact bounds
      · exact other

/-- What is read from a value is within 64 bits. -/
theorem within_of_ofValue? {value : Json.Value} {loose : LooseInt}
    (read : ofValue? value = some loose) : loose.Within := by
  cases value with
  | null => cases read
  | number numeral =>
      cases read
      exact within_ofNumeral numeral
  | boolean | text | list | object =>
      cases read
      trivial

/-- The integer that a field is coerced to fits 64 bits, however the field was written. -/
theorem bounds_of_coerce? {loose : LooseInt} (within : loose.Within) {value : Int}
    (coerced : loose.coerce? = some value) : least ≤ value ∧ value ≤ greatest := by
  cases loose with
  | integer own =>
      cases coerced
      exact within
  | number own =>
      have found : ofBinary64? own = some value := coerced
      simp only [ofBinary64?, bind, Option.bind_eq_some_iff, Option.ite_none_right_eq_some,
        pure, Option.some.injEq] at found
      obtain ⟨integral, -, ⟨low, high⟩, rfl⟩ := found
      unfold least greatest at *
      omega
  | text own =>
      have signed : Text.inSigned64 value = true := (Option.filter_eq_some_iff.mp coerced).2
      rw [Text.inSigned64, Bool.and_eq_true, decide_eq_true_iff, decide_eq_true_iff] at signed
      exact signed
  | other => cases coerced

end LooseInt

namespace ReorderItem

/-- What a client wrote into a field of an item. -/
def field (item : ReorderItem) : ItemField → Option LooseInt
  | .id => item.id
  | .order => item.order

/-- The integer in a field of an item. -/
def integer? (item : ReorderItem) (field : ItemField) : Option Int :=
  (item.field field).bind LooseInt.coerce?

/-- A field of an item is missing or no integer. -/
def Lacks (item : ReorderItem) (field : ItemField) : Prop :=
  item.integer? field = none

/-- An item with an id and a position. -/
def Complete (item : ReorderItem) : Prop :=
  ∀ field, ¬item.Lacks field

theorem complete_iff {item : ReorderItem} : item.Complete ↔
    ∃ id order, item.integer? .id = some id ∧ item.integer? .order = some order := by
  constructor
  · intro complete
    obtain ⟨id, named⟩ := Option.ne_none_iff_exists'.mp (complete .id)
    obtain ⟨order, wanted⟩ := Option.ne_none_iff_exists'.mp (complete .order)
    exact ⟨id, order, named, wanted⟩
  · rintro ⟨id, order, named, wanted⟩ field
    cases field with
    | id => exact fun lacking => nomatch named.symm.trans lacking
    | order => exact fun lacking => nomatch wanted.symm.trans lacking

theorem orderFor?_eq_some_iff {item : ReorderItem} {id order : Int} :
    item.orderFor? id = some order ↔
      item.integer? .id = some id ∧ item.integer? .order = some order := by
  rw [orderFor?, Option.ite_none_right_eq_some]
  rfl

/-- The integer numerals in an item fit 64 bits. -/
def Within (item : ReorderItem) : Prop :=
  ∀ field loose, item.field field = some loose → loose.Within

end ReorderItem

/-- The first item of a payload that lacks a field has an index, and is reported for its id if it
lacks that, and for its position otherwise. -/
structure FirstLacking (items : List ReorderItem) (index : Nat) (field : ItemField) : Prop where
  lacks : ∃ item, items[index]? = some item ∧ item.Lacks field ∧ (field = .id ↔ item.Lacks .id)
  first : ∀ earlier item, earlier < index → items[earlier]? = some item → item.Complete

namespace FirstLacking

variable {item : ReorderItem} {items : List ReorderItem} {index : Nat} {field : ItemField}

/-- The first item of all lacks its id. -/
theorem of_id (lacking : item.Lacks .id) : FirstLacking (item :: items) 0 .id where
  lacks := ⟨item, rfl, lacking, iff_of_true rfl lacking⟩
  first _ _ less := absurd less (Nat.not_lt_zero _)

/-- The first item of all has an id, and lacks its position. -/
theorem of_order {id : Int} (named : item.integer? .id = some id) (lacking : item.Lacks .order) :
    FirstLacking (item :: items) 0 .order where
  lacks := ⟨item, rfl, lacking, iff_of_false nofun fun none => nomatch named.symm.trans none⟩
  first _ _ less := absurd less (Nat.not_lt_zero _)

/-- An item in front that lacks nothing makes the index one more. -/
theorem cons (complete : item.Complete) (lacking : FirstLacking items index field) :
    FirstLacking (item :: items) (index + 1) field where
  lacks := lacking.lacks
  first earlier other less found := by
    cases earlier with
    | zero =>
        cases found
        exact complete
    | succ earlier => exact lacking.first earlier other (Nat.lt_of_succ_lt_succ less) found

theorem index_le {later : Nat} {other : ItemField} (lacking : FirstLacking items index field)
    (again : FirstLacking items later other) : later ≤ index := by
  obtain ⟨item, found, lacks, -⟩ := lacking.lacks
  exact Nat.not_lt.mp fun less => again.first index item less found field lacks

/-- A payload lacks something first in one place only. -/
theorem unique {later : Nat} {other : ItemField} (lacking : FirstLacking items index field)
    (again : FirstLacking items later other) : later = index ∧ other = field := by
  obtain rfl : later = index := Nat.le_antisymm (lacking.index_le again) (again.index_le lacking)
  obtain ⟨item, found, -, ids⟩ := lacking.lacks
  obtain ⟨same, foundAgain, -, idsAgain⟩ := again.lacks
  cases found.symm.trans foundAgain
  refine ⟨rfl, ?_⟩
  have agree := ids.trans idsAgain.symm
  cases field with
  | id => exact agree.mp rfl
  | order =>
      cases other with
      | id => cases agree.mpr rfl
      | order => rfl

end FirstLacking

/-! ## Acceptance and refusal -/

namespace Positions

variable {items : List ReorderItem} {positions : Positions}

/-- Items are collected up to the first one that lacks a field. -/
theorem collect_cases (start : Positions) (index : Nat) (items : List ReorderItem) :
    (∃ positions, start.collect index items = .ok positions ∧ ∀ item ∈ items, item.Complete) ∨
      ∃ offset field, FirstLacking items offset field ∧
        start.collect index items = .error (.invalidInput (.item (index + offset) field)) := by
  induction items generalizing start index with
  | nil => exact .inl ⟨start, rfl, by simp⟩
  | cons item items ih =>
      rw [collect]
      cases named : item.id.bind LooseInt.coerce? with
      | none => exact .inr ⟨0, .id, .of_id named, rfl⟩
      | some id =>
          cases wanted : item.order.bind LooseInt.coerce? with
          | none => exact .inr ⟨0, .order, .of_order named wanted, rfl⟩
          | some order =>
              have complete : item.Complete :=
                ReorderItem.complete_iff.mpr ⟨id, order, named, wanted⟩
              rcases ih (start.insert id order.toNat) (index + 1) with
                ⟨positions, collected, others⟩ | ⟨offset, field, lacking, refused⟩
              · exact .inl ⟨positions, collected, List.forall_mem_cons.mpr ⟨complete, others⟩⟩
              · refine .inr ⟨offset + 1, field, lacking.cons complete, ?_⟩
                rw [← Nat.add_comm 1 offset, ← Nat.add_assoc]
                exact refused

theorem ofItems_of_ne_nil (some_items : items ≠ []) : ofItems items = collect {} 0 items :=
  if_neg (by simpa using some_items)

/-- A payload is accepted exactly if it has items and none of them lacks a field. -/
theorem exists_ofItems_iff :
    (∃ positions, ofItems items = .ok positions) ↔
      items ≠ [] ∧ ∀ item ∈ items, item.Complete := by
  rcases eq_or_ne items [] with rfl | some_items
  · simp [ofItems]
  rw [ofItems_of_ne_nil some_items]
  rcases collect_cases {} 0 items with ⟨positions, collected, complete⟩ |
    ⟨offset, field, lacking, refused⟩
  · exact iff_of_true ⟨positions, collected⟩ ⟨some_items, complete⟩
  · refine iff_of_false ?_ fun ⟨_, complete⟩ => ?_
    · rintro ⟨positions, accepted⟩
      cases accepted.symm.trans refused
    · obtain ⟨item, found, lacks, -⟩ := lacking.lacks
      exact complete item (List.mem_of_getElem? found) field lacks

/-- A payload is refused for having no items, or for what it lacks first. -/
theorem ofItems_eq_error_iff {error : GalleryError} :
    ofItems items = .error error ↔
      (items = [] ∧ error = .invalidInput .noItems) ∨
        ∃ index field, FirstLacking items index field ∧
          error = .invalidInput (.item index field) := by
  rcases eq_or_ne items [] with rfl | some_items
  · have empty : ¬∃ index field, FirstLacking [] index field ∧
        error = .invalidInput (.item index field) := by
      rintro ⟨index, field, lacking, -⟩
      obtain ⟨item, found, -⟩ := lacking.lacks
      cases found
    rw [or_iff_left empty, and_iff_right rfl]
    exact ⟨fun refused => (Except.error.inj refused).symm, fun same => same ▸ rfl⟩
  rw [ofItems_of_ne_nil some_items, or_iff_right fun empty => some_items empty.1]
  rcases collect_cases {} 0 items with ⟨positions, collected, complete⟩ |
    ⟨offset, field, lacking, refused⟩
  · refine iff_of_false (fun refused => nomatch collected.symm.trans refused) ?_
    rintro ⟨index, field, lacking, -⟩
    obtain ⟨item, found, lacks, -⟩ := lacking.lacks
    exact complete item (List.mem_of_getElem? found) field lacks
  · rw [refused, Nat.zero_add, Except.error.injEq]
    constructor
    · intro same
      exact ⟨offset, field, lacking, same.symm⟩
    · rintro ⟨index, other, again, rfl⟩
      obtain ⟨rfl, rfl⟩ := lacking.unique again
      rfl

/-! ## Positions that are given -/

theorem lastOrder?_isSome_iff (complete : ∀ item ∈ items, item.Complete) {id : Int} :
    (lastOrder? items id).isSome ↔ ∃ item ∈ items, item.integer? .id = some id := by
  rw [lastOrder?, List.getLast?_isSome, ne_eq, List.filterMap_eq_nil_iff]
  push Not
  refine exists_congr fun item => and_congr_right fun mem => ?_
  obtain ⟨own, order, named, wanted⟩ := ReorderItem.complete_iff.mp (complete item mem)
  rw [Option.ne_none_iff_exists']
  simp only [ReorderItem.orderFor?_eq_some_iff]
  constructor
  · rintro ⟨-, named, -⟩
    exact named
  · exact fun named => ⟨order, named, wanted⟩

/-- The last item that names an id asks for its position. -/
theorem lastOrder?_of_last {earlier later : List ReorderItem} {item : ReorderItem} {id order : Int}
    (named : item.integer? .id = some id) (wanted : item.integer? .order = some order)
    (last : ∀ other ∈ later, other.integer? .id ≠ some id) :
    lastOrder? (earlier ++ item :: later) id = some order := by
  have silent : later.filterMap (·.orderFor? id) = [] := by
    rw [List.filterMap_eq_nil_iff]
    intro other mem
    rw [Option.eq_none_iff_forall_ne_some]
    exact fun order asked =>
      last other mem (ReorderItem.orderFor?_eq_some_iff.mp asked).1
  have asked : item.orderFor? id = some order :=
    ReorderItem.orderFor?_eq_some_iff.mpr ⟨named, wanted⟩
  rw [lastOrder?, List.filterMap_append, List.filterMap_cons, asked, silent,
    List.getLast?_append_cons, List.getLast?_singleton]

/-- Positions fit 63 bits, as the integers do that they are made of. -/
theorem find?_le (accepted : ofItems items = .ok positions) (within : ∀ item ∈ items, item.Within)
    {id : Int} {position : Nat} (found : positions.find? id = some position) :
    (position : Int) ≤ LooseInt.greatest := by
  rw [find?_of_ofItems accepted, Option.map_eq_some_iff] at found
  obtain ⟨order, asked, rfl⟩ := found
  obtain ⟨item, mem, answered⟩ := List.mem_filterMap.mp (List.mem_of_getLast? asked)
  obtain ⟨loose, written, coerced⟩ :=
    Option.bind_eq_some_iff.mp (ReorderItem.orderFor?_eq_some_iff.mp answered).2
  have bounds := LooseInt.bounds_of_coerce? (within item mem .order loose written) coerced
  unfold LooseInt.greatest at *
  omega

end Positions

/-! ## Payloads from end to end -/

/-- What becomes of a payload before the store is asked. -/
structure ValidatedExactly (items : List ReorderItem) : Prop where
  accepted_iff : (∃ positions, Positions.ofItems items = .ok positions) ↔
    items ≠ [] ∧ ∀ item ∈ items, item.Complete
  /-- Positions are given to the ids in the items, and to no others. -/
  domain {positions : Positions} (accepted : Positions.ofItems items = .ok positions) (id : Int) :
    (∃ position, positions.find? id = some position) ↔
      ∃ item ∈ items, item.integer? .id = some id
  /-- The last item that names an id decides. -/
  last {positions : Positions} (accepted : Positions.ofItems items = .ok positions)
    {earlier later : List ReorderItem} {item : ReorderItem} {id order : Int}
    (parts : items = earlier ++ item :: later) (named : item.integer? .id = some id)
    (wanted : item.integer? .order = some order)
    (final : ∀ other ∈ later, other.integer? .id ≠ some id) :
    ∃ position : Nat, positions.find? id = some position ∧ (position : Int) = max 0 order
  bounded {positions : Positions} (accepted : Positions.ofItems items = .ok positions)
    (within : ∀ item ∈ items, item.Within) {id : Int} {position : Nat}
    (found : positions.find? id = some position) : position < UInt64.size
  refused_iff (error : GalleryError) : Positions.ofItems items = .error error ↔
    (items = [] ∧ error = .invalidInput .noItems) ∨
      ∃ index field, FirstLacking items index field ∧ error = .invalidInput (.item index field)
  /-- A refusal is worded with the index and the field. -/
  worded {index : Nat} {field : ItemField} (lacking : FirstLacking items index field) :
    ∃ error, Positions.ofItems items = .error error ∧
      error.message = s!"item {index}: missing or invalid " ++ field.name
  /-- Whatever starting a transaction does, it is not done: the answer and what is left are told
  without it. -/
  unopened {error : GalleryError} (refused : Positions.ofItems items = .error error)
    {σ τ β : Type} [GalleryTx τ] [GalleryStore σ τ] (manager : Manager σ β) (parentId : String) :
    manager.reorder parentId items = (.error error, manager.tally (.operations .reorder false) 1)

/-- Payloads are validated exactly. -/
theorem validatedExactly (items : List ReorderItem) : ValidatedExactly items where
  accepted_iff := Positions.exists_ofItems_iff
  domain {_} accepted id := by
    have complete := (Positions.exists_ofItems_iff.mp ⟨_, accepted⟩).2
    rw [← Positions.lastOrder?_isSome_iff complete, find?_of_ofItems accepted,
      ← Option.isSome_iff_exists, Option.isSome_map]
  last {_} accepted {_ _ _ _ _} parts named wanted final := by
    subst parts
    refine ⟨_, ?_, (Int.toNat_eq_max _).trans (max_comm _ _)⟩
    rw [find?_of_ofItems accepted, Positions.lastOrder?_of_last named wanted final]
    rfl
  bounded {_} accepted within {_ _} found := by
    have bound := Positions.find?_le accepted within found
    unfold LooseInt.greatest at bound
    have size : UInt64.size = 18446744073709551616 := rfl
    omega
  refused_iff _ := Positions.ofItems_eq_error_iff
  worded {_ _} lacking :=
    ⟨_, Positions.ofItems_eq_error_iff.mpr (.inr ⟨_, _, lacking, rfl⟩), rfl⟩
  unopened {_} refused {_ _ _} _ _ manager parentId := by
    rw [Manager.reorder, Manager.rearrange, refused]
    rfl

/-- An id that is spelled in three ways is one id, and the last of its positions counts. -/
example : Positions.ofItems
    [ { id := some (.integer 1), order := some (.integer 4) },
      { id := some (.text " +01 "), order := some (.integer 5) },
      { id := some (.number ⟨false, 4503599627370496, -52⟩), order := some (.integer (-3)) } ] =
    .ok ⟨[(1, 0), (1, 5), (1, 4)]⟩ := by
  decide +kernel

end ImageGallery
