import ImageGallery.Http.Service
import ImageGallery.Proofs.Respelling

/-!
# Spellings without effect

A reordering only looks at the integers of the items, so that it does not matter how a payload
writes them. Payloads with the same items are refused alike, or reordered with the same outcome.
-/

namespace ImageGallery

/-! ## Payloads -/

namespace ReorderItem

open Json (skipGap)

variable {text others : List Char}

/-- The items of a request by itself. -/
def requested? (text : List Char) : Option (List ReorderItem) :=
  (readRequest (Json.fuelFor text) Json.depthLimit text).toOption.map (·.1)

theorem SameRequest.requested?_eq (request : SameRequest text others) :
    (requested? text).map (·.map integer?) = (requested? others).map (·.map integer?) := by
  have same := request.integersOfMany?_readRequest_eq Json.depthLimit
    (show 2 * text.length ≤ Json.fuelFor text by rw [Json.fuelFor]; omega)
    (show 2 * others.length ≤ Json.fuelFor others by rw [Json.fuelFor]; omega)
  have integers (text : List Char) : (requested? text).map (·.map integer?) =
      (integersOfMany? (readRequest (Json.fuelFor text) Json.depthLimit text)).map (·.1) := by
    rw [requested?, integersOfMany?, Option.map_map, Option.map_map]
    rfl
  rw [integers, integers, same]

theorem SameList.parseMany_eq (list : SameList text others) :
    (parseMany (String.ofList text)).toOption.map (·.map integer?) =
      (parseMany (String.ofList others)).toOption.map (·.map integer?) := by
  have same := list.integersOfMany?_readMany_eq Json.depthLimit
    (show 2 * text.length ≤ Json.fuelFor text by rw [Json.fuelFor]; omega)
    (show 2 * others.length ≤ Json.fuelFor others by rw [Json.fuelFor]; omega)
  have integers (text : List Char) :
      (parseMany (String.ofList text)).toOption.map (·.map integer?) =
        (integersOfMany? (readMany (Json.fuelFor text) Json.depthLimit text)).bind fun items =>
          if skipGap items.2 = [] then some items.1 else none := by
    rw [parseMany, String.toList_ofList, Json.readText]
    rcases readMany (Json.fuelFor text) Json.depthLimit text with fault | ⟨items, rest⟩
    · rfl
    · rw [Json.finish, integersOfMany?]
      dsimp only [Except.toOption, Option.map_some, Option.bind_some]
      by_cases ended : skipGap rest = []
      · rw [if_pos ended, if_pos ended]
        rfl
      · rw [if_neg ended, if_neg ended]
        rfl
  rw [integers, integers, same]

end ReorderItem

namespace Http

/-- The text in the body of a request. -/
def Request.bodyText (request : Request) : List Char :=
  Text.decodeWith strayByte (request.body.length + 1) request.body

theorem Request.toOption_items (request : Request) (maxBodyBytes : Nat) :
    (request.items maxBodyBytes).toOption =
      if request.contentType?.any ContentType.isJson ∧ request.body.length ≤ maxBodyBytes then
        ReorderItem.requested? request.bodyText
      else none := by
  rw [Request.items, ReorderItem.requested?]
  cases request.contentType?.any ContentType.isJson with
  | false =>
      rw [if_pos Bool.not_false, if_neg fun fits => Bool.false_ne_true fits.1]
      rfl
  | true =>
      rw [if_neg (ne_of_eq_of_ne Bool.not_true Bool.false_ne_true)]
      by_cases oversized : maxBodyBytes < request.body.length
      · rw [if_pos oversized, if_neg fun fits => Nat.not_lt.mpr fits.2 oversized]
        rfl
      · rw [if_neg oversized, if_pos ⟨rfl, Nat.not_lt.mp oversized⟩]
        dsimp only [bodyText]
        generalize ReorderItem.readRequest _ _ _ = read
        rcases read with (_ | _) | ⟨items, rest⟩ <;> rfl

/-- Two requests bring the same items: they declare the same, both fit, and their texts list the
same items. -/
structure SamePayload (maxBodyBytes : Nat) (request other : Request) : Prop where
  declared : request.contentType? = other.contentType?
  fits : request.body.length ≤ maxBodyBytes ∧ other.body.length ≤ maxBodyBytes
  text : ReorderItem.SameRequest request.bodyText other.bodyText

theorem SamePayload.toOption_items_eq {maxBodyBytes : Nat} {request other : Request}
    (same : SamePayload maxBodyBytes request other) :
    (request.items maxBodyBytes).toOption.map (·.map ReorderItem.integer?) =
      (other.items maxBodyBytes).toOption.map (·.map ReorderItem.integer?) := by
  rw [request.toOption_items, other.toOption_items, same.declared]
  simp only [same.fits.1, same.fits.2, and_true]
  split
  · exact same.text.requested?_eq
  · rfl

end Http

/-! ## Reorderings -/

namespace Positions

theorem collect_congr {items others : List ReorderItem}
    (same : items.map ReorderItem.integer? = others.map ReorderItem.integer?)
    (positions : Positions) (index : Nat) :
    collect positions index items = collect positions index others := by
  induction items generalizing others positions index with
  | nil => rw [List.map_eq_nil_iff.mp same.symm]
  | cons item items ih =>
      obtain ⟨other, others, rfl, integers, later⟩ := List.map_eq_cons_iff.mp same.symm
      have id : item.id.bind LooseInt.coerce? = other.id.bind LooseInt.coerce? :=
        (congrFun integers .id).symm
      have order : item.order.bind LooseInt.coerce? = other.order.bind LooseInt.coerce? :=
        (congrFun integers .order).symm
      rw [collect, collect, id, order]
      split
      · rfl
      · split
        · rfl
        · exact ih later.symm _ _

/-- Positions only depend on the integers of the items. -/
theorem ofItems_congr {items others : List ReorderItem}
    (same : items.map ReorderItem.integer? = others.map ReorderItem.integer?) :
    ofItems items = ofItems others := by
  have together : items.isEmpty = others.isEmpty := by
    rw [← List.isEmpty_map (f := ReorderItem.integer?), same, List.isEmpty_map]
  rw [ofItems, ofItems, together, collect_congr same]

end Positions

namespace Manager

variable {σ τ β : Type} [GalleryTx τ] [GalleryStore σ τ]

theorem reorder_congr (manager : Manager σ β) (parentId : String) {items others : List ReorderItem}
    (same : items.map ReorderItem.integer? = others.map ReorderItem.integer?) :
    manager.reorder parentId items = manager.reorder parentId others := by
  rw [reorder, reorder, rearrange, rearrange, Positions.ofItems_congr same]

/-- Readings with the same integers are reordered alike. -/
theorem map_reorder_congr (manager : Manager σ β) (parentId : String)
    {items? others? : Option (List ReorderItem)}
    (same : items?.map (·.map ReorderItem.integer?) = others?.map (·.map ReorderItem.integer?)) :
    items?.map (manager.reorder parentId) = others?.map (manager.reorder parentId) := by
  rcases items? with _ | items <;> rcases others? with _ | others
  · rfl
  · cases same
  · cases same
  · exact congrArg some (manager.reorder_congr parentId (Option.some.inj same))

/-- It does not matter how the integers of a payload are spelled, in which order its members stand,
and which members of unknown keys there are. -/
structure IgnoresSpelling (manager : Manager σ β) : Prop where
  /-- Every spelling of an integer of 64 bits is read as one that is coerced to it. -/
  spelled {value : Int} {source : List Char}
    (fits : LooseInt.least ≤ value ∧ value ≤ LooseInt.greatest)
    (spelling : LooseInt.Spelling value source) :
    ∃ loose, LooseInt.parse (String.ofList source) = .ok (some loose) ∧
      loose.coerce? = some value
  /-- A list of items is refused both ways, or the reorderings do and answer the same. -/
  list {text others : List Char} (same : ReorderItem.SameList text others) (parentId : String) :
    (ReorderItem.parseMany (String.ofList text)).toOption.map (manager.reorder parentId) =
      (ReorderItem.parseMany (String.ofList others)).toOption.map (manager.reorder parentId)
  /-- And so for the items of a request to the service. -/
  request {maxBodyBytes : Nat} {request other : Http.Request}
    (same : Http.SamePayload maxBodyBytes request other) (parentId : String) :
    (request.items maxBodyBytes).toOption.map (manager.reorder parentId) =
      (other.items maxBodyBytes).toOption.map (manager.reorder parentId)

theorem ignoresSpelling (manager : Manager σ β) : manager.IgnoresSpelling where
  spelled fits spelling :=
    LooseInt.exists_parse_of_coerced? spelling.isValue (spelling.coerced?_eq fits _)
  list same parentId := manager.map_reorder_congr parentId same.parseMany_eq
  request same parentId := manager.map_reorder_congr parentId same.toOption_items_eq

end Manager

/-! ## Two spellings -/

/-- The number four with a fraction. -/
def LooseInt.fourWithFraction : Json.NumeralText where
  negative := false
  whole := .ofNat 4
  unpadded := Json.naturalText_ne_padded 4
  fraction := some ⟨['0'], nofun, List.forall_mem_singleton.mpr rfl⟩
  exponent := none

theorem LooseInt.spelling_fourWithFraction : Spelling 4 fourWithFraction.text := by
  refine .ofShort ⟨by decide, by decide⟩ ?_ (by norm_num)
  have digits : Text.appendDigits 0 (fourWithFraction.whole.chars ++
    fourWithFraction.fractionDigits) = 40 := by decide
  rw [Json.NumeralText.value, digits]
  norm_num [fourWithFraction, Json.NumeralText.fractionDigits]

/-- The number zero with a blank, a sign and a leading zero. -/
def LooseInt.paddedZero : DigitText where
  before := [' ']
  sign := .plus
  digits := ⟨['0', '0'], nofun, List.forall_mem_cons.mpr ⟨rfl, List.forall_mem_singleton.mpr rfl⟩⟩
  behind := []
  blank_before := List.forall_mem_singleton.mpr rfl
  blank_behind := nofun

namespace ReorderItem

open Json (Member gapless)

/-- A member without any gaps. -/
def gaplessMember (key : String) (value : List Char) : Member where
  before := gapless
  key := .printed key
  behindKey := gapless
  element := ⟨gapless, value, gapless⟩

/-- Image four is wanted in front. -/
def spelledPlainly : List Member :=
  [gaplessMember "id" ['4'], gaplessMember "order" ['0']]

/-- The same, with the members in another order and one more of them. -/
def spelledOddly : List Member :=
  [gaplessMember "note" (Json.booleanText true),
    gaplessMember "order" (Json.printString (String.ofList LooseInt.paddedZero.chars)),
    gaplessMember "id" LooseInt.fourWithFraction.text]

/-- A list of one item. -/
def oneItem (members : List Member) : List Char :=
  '[' :: (Json.objectText gapless members ++ [']'])

theorem sameList_spelledPlainly : SameList (oneItem spelledPlainly) (oneItem spelledOddly) := by
  have four : LooseInt.Spelling 4 ['4'] := .ofInt 4
  have zero : LooseInt.Spelling 0 ['0'] := .ofInt 0
  have inner : ∀ member ∈ spelledPlainly, Json.IsValue member.element.value :=
    List.forall_mem_cons.mpr ⟨four.isValue, List.forall_mem_cons.mpr ⟨zero.isValue, nofun⟩⟩
  have unknown : Unknown (gaplessMember "note" (Json.booleanText true)) :=
    ⟨"note", Json.Quoted.contents?_printed _, by decide⟩
  have respelled : SameMembers spelledPlainly
      [gaplessMember "id" LooseInt.fourWithFraction.text,
        gaplessMember "order" (Json.printString (String.ofList LooseInt.paddedZero.chars))] :=
    .respelled (.cons ⟨rfl, .spelled (by decide) four LooseInt.spelling_fourWithFraction⟩
      (.cons ⟨rfl, .spelled (by decide) zero (.ofDigitText LooseInt.paddedZero)⟩ .nil))
  have same : SameMembers spelledPlainly spelledOddly :=
    respelled.trans ((SameMembers.permuted (.swap _ _ _)).trans (.added unknown (.boolean true) _))
  exact .items gapless gapless (.last (.members gapless gapless inner same) [']'])

end ReorderItem

/-- The last image of a gallery is moved to the front, in two spellings. -/
theorem Manager.reorder_spelledOddly :
    ∃ items others,
      ReorderItem.parseMany (String.ofList (ReorderItem.oneItem ReorderItem.spelledPlainly)) =
        .ok items ∧
      ReorderItem.parseMany (String.ofList (ReorderItem.oneItem ReorderItem.spelledOddly)) =
        .ok others ∧
      items ≠ others ∧
        (ofStore MemoryStore.uneven).reorder "p" items =
          (ofStore MemoryStore.uneven).reorder "p" others := by
  have outcomes := (ignoresSpelling (ofStore MemoryStore.uneven)).list
    ReorderItem.sameList_spelledPlainly "p"
  have plain : ReorderItem.parseMany (String.ofList
      (ReorderItem.oneItem ReorderItem.spelledPlainly)) =
        .ok [⟨some (.integer 4), some (.integer 0)⟩] := by decide +kernel
  have odd : ReorderItem.parseMany (String.ofList
      (ReorderItem.oneItem ReorderItem.spelledOddly)) =
        .ok [⟨some (.number ⟨false, 4503599627370496, -50⟩), some (.text " +00")⟩] := by
    decide +kernel
  rw [plain, odd] at outcomes
  exact ⟨_, _, plain, odd, by decide, Option.some.inj outcomes⟩

end ImageGallery
