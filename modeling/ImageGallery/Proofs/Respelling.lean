import ImageGallery.Proofs.ItemTexts

/-!
# Payloads written in other ways

A payload may write its integers in other spellings, the members of its items in another order, and
further members of unknown keys into them. Its items keep their integers, and the reading goes on
behind them as before, so that whatever follows the items in the text is left as it is.
-/

namespace ImageGallery

/-! ## Integers -/

namespace LooseInt

/-- Two texts are the same, or spell the same integer of 64 bits. -/
inductive SameInteger : List Char → List Char → Prop where
  | same (source : List Char) : SameInteger source source
  | spelled {value : Int} {source other : List Char} (fits : least ≤ value ∧ value ≤ greatest)
      (spelling : Spelling value source) (another : Spelling value other) :
      SameInteger source other

namespace SameInteger

variable {source other : List Char}

theorem coerced?_eq (same : SameInteger source other) (depth : Nat) :
    coerced? depth source = coerced? depth other := by
  cases same with
  | same => rfl
  | spelled fits spelling another =>
      rw [spelling.coerced?_eq fits, another.coerced?_eq fits]

theorem isValue (same : SameInteger source other) (isValue : Json.IsValue source) :
    Json.IsValue other := by
  cases same with
  | same => exact isValue
  | spelled fits spelling another => exact another.isValue

end SameInteger

end LooseInt

namespace ReorderItem

open Json (Element Gap IsValue Member readElements readMembers readSeparator skipGap)
open LooseInt (SameInteger)

/-! ## Items -/

/-- The key of the member stands for no field. -/
def Unknown (member : Member) : Prop :=
  ∃ key, member.key.contents? = some key ∧ fieldOf? key = none

/-- Two members have the same key and the same integer. -/
structure SameMember (member other : Member) : Prop where
  key_eq : member.key.contents? = other.key.contents?
  integer : SameInteger member.element.value other.element.value

/-- Members with other spellings, in another order, or with members of unknown keys added. -/
inductive SameMembers : List Member → List Member → Prop where
  | respelled {members others : List Member} (each : List.Forall₂ SameMember members others) :
      SameMembers members others
  | permuted {members others : List Member} (permuted : members.Perm others) :
      SameMembers members others
  | added {member : Member} (unknown : Unknown member) (isValue : IsValue member.element.value)
      (members : List Member) : SameMembers members (member :: members)
  | trans {members middle others : List Member} (first : SameMembers members middle)
      (second : SameMembers middle others) : SameMembers members others

/-- Two lists have the same integers, element by element. -/
def SameElements : List Element → List Element → Prop :=
  List.Forall₂ fun element other => SameInteger element.value other.value

/-- An item with its members written in another way, or its integers if it is a list. -/
inductive SameItem : List Char → List Char → Prop where
  | same {source : List Char} (isValue : IsValue source) : SameItem source source
  | members (gap otherGap : Gap) {members others : List Member}
      (inner : ∀ member ∈ members, IsValue member.element.value)
      (same : SameMembers members others) :
      SameItem (Json.objectText gap members) (Json.objectText otherGap others)
  | positions (gap otherGap : Gap) {elements others : List Element}
      (inner : ∀ element ∈ elements, IsValue element.value) (same : SameElements elements others) :
      SameItem (Json.listText gap elements) (Json.listText otherGap others)

section Items

variable {depth : Nat} {source other : List Char}

theorem SameMember.gift?_eq {member other : Member} (same : SameMember member other) :
    gift? depth member = gift? depth other := by
  rw [gift?, gift?, same.key_eq, same.integer.coerced?_eq]

theorem map_gift?_eq {members others : List Member}
    (each : List.Forall₂ SameMember members others) :
    members.map (gift? depth) = others.map (gift? depth) := by
  induction each with
  | nil => rfl
  | cons same _ ih => rw [List.map_cons, List.map_cons, same.gift?_eq, ih]

namespace SameMembers

variable {members others : List Member}

theorem gifts?_eq (same : SameMembers members others) (given : Given) :
    gifts? depth given members = gifts? depth given others := by
  induction same with
  | respelled each => rw [gifts?, gifts?, map_gift?_eq each]
  | permuted permuted => exact gifts?_perm given permuted
  | added unknown isValue members =>
      obtain ⟨key, contents, unknown⟩ := unknown
      rw [gifts?_cons, gift?_of_unknown contents unknown]
      rfl
  | trans _ _ ih later => exact ih.trans later

theorem inner (same : SameMembers members others)
    (values : ∀ member ∈ members, IsValue member.element.value) :
    ∀ member ∈ others, IsValue member.element.value := by
  induction same with
  | respelled each =>
      induction each with
      | nil => exact values
      | cons same _ ih =>
          obtain ⟨here, there⟩ := List.forall_mem_cons.mp values
          exact List.forall_mem_cons.mpr ⟨same.integer.isValue here, ih there⟩
  | permuted permuted => exact fun member mem => values member (permuted.mem_iff.mpr mem)
  | added unknown isValue members => exact List.forall_mem_cons.mpr ⟨isValue, values⟩
  | trans _ _ ih later => exact later (ih values)

end SameMembers

namespace SameElements

variable {elements others : List Element}

theorem map_coerced?_eq (same : SameElements elements others) (depth : Nat) :
    elements.map (fun element => LooseInt.coerced? depth element.value) =
      others.map fun element => LooseInt.coerced? depth element.value := by
  induction same with
  | nil => rfl
  | cons same _ ih => rw [List.map_cons, List.map_cons, same.coerced?_eq, ih]

theorem inner (same : SameElements elements others)
    (values : ∀ element ∈ elements, IsValue element.value) :
    ∀ element ∈ others, IsValue element.value := by
  induction same with
  | nil => exact values
  | cons same _ ih =>
      obtain ⟨here, there⟩ := List.forall_mem_cons.mp values
      exact List.forall_mem_cons.mpr ⟨same.isValue here, ih there⟩

end SameElements

namespace SameItem

/-- An item that is written in another way has the same integers. -/
theorem exists_has (same : SameItem source other) (depth : Nat) :
    ∃ integers?, Has depth source integers? ∧ Has depth other integers? := by
  cases same with
  | same isValue =>
      obtain ⟨integers?, has⟩ := ReorderItem.exists_has isValue depth
      exact ⟨integers?, has, has⟩
  | members gap otherGap inner same =>
      cases depth with
      | zero =>
          exact ⟨none, has_none_of_bottom ⟨_, .inl rfl⟩, has_none_of_bottom ⟨_, .inl rfl⟩⟩
      | succ depth =>
          refine ⟨_, has_gifts gap inner, ?_⟩
          rw [same.gifts?_eq]
          exact has_gifts otherGap (same.inner inner)
  | positions gap otherGap inner same =>
      cases depth with
      | zero =>
          exact ⟨none, has_none_of_bottom ⟨_, .inr rfl⟩, has_none_of_bottom ⟨_, .inr rfl⟩⟩
      | succ depth =>
          refine ⟨_, has_positional gap inner, ?_⟩
          rw [same.map_coerced?_eq]
          exact has_positional otherGap (same.inner inner)

theorem isValue (same : SameItem source other) : IsValue source ∧ IsValue other := by
  cases same with
  | same isValue => exact ⟨isValue, isValue⟩
  | members gap otherGap inner same =>
      exact ⟨.object gap inner, .object otherGap (same.inner inner)⟩
  | positions gap otherGap inner same =>
      exact ⟨.list gap inner, .list otherGap (same.inner inner)⟩

end SameItem

end Items

/-! ## Lists of items -/

/-- Two texts list the same items behind an opening bracket. The texts behind the last one of these
items agree, whatever they are. -/
inductive SameItems : List Char → List Char → Prop where
  | same (text : List Char) : SameItems text text
  | last {source other : List Char} (item : SameItem source other) (rest : List Char) :
      SameItems (source ++ rest) (other ++ rest)
  | next {source other text others : List Char} (item : SameItem source other)
      (gap otherGap : Gap) (later : SameItems text others) :
      SameItems (source ++ (gap.chars ++ ',' :: text)) (other ++ (otherGap.chars ++ ',' :: others))
  | gap {text others : List Char} (gap otherGap : Gap) (items : SameItems text others) :
      SameItems (gap.chars ++ text) (otherGap.chars ++ others)

/-- Two texts are the same, or each starts with a list of the same items. -/
inductive SameList : List Char → List Char → Prop where
  | same (text : List Char) : SameList text text
  | items (lead otherLead : Gap) {text others : List Char} (items : SameItems text others) :
      SameList (lead.chars ++ '[' :: text) (otherLead.chars ++ '[' :: others)

/-- The integers of the items that were read, with the text behind them. -/
def integersOfMany? (read : Json.Reading (List ReorderItem × List Char)) :
    Option (List (ItemField → Option Int) × List Char) :=
  read.toOption.map fun read => (read.1.map integer?, read.2)

section Lists

variable {fuel otherFuel : Nat} {text others : List Char}

theorem settles_read : Json.Settles read :=
  Json.settles_readRecord settles_fields {}

theorem read_skipGap (fuel depth : Nat) (chars : List Char) :
    read fuel depth (skipGap chars) = read fuel depth chars := by
  rw [read, read, Json.readRecord, Json.readRecord, Json.skipGap_skipGap]

theorem readElements_skipGap (fuel depth : Nat) (chars : List Char) :
    readElements read fuel depth (skipGap chars) = readElements read fuel depth chars := by
  cases fuel with
  | zero => rfl
  | succ fuel => rw [readElements, readElements, read_skipGap]

/-- The integers of a list are those of its first item, and those of the items behind it. -/
theorem integersOfMany?_readElements_succ (fuel depth : Nat) (chars : List Char) :
    integersOfMany? (readElements read (fuel + 1) depth chars) =
      (integersOf? (read fuel depth chars)).bind fun first =>
        (readSeparator ']' first.2).toOption.bind fun separator =>
          if separator.1 then
            (integersOfMany? (readElements read fuel depth separator.2)).map fun later =>
              (first.1 :: later.1, later.2)
          else some ([first.1], separator.2) := by
  rw [readElements]
  rcases read fuel depth chars with fault | ⟨item, rest⟩
  · rfl
  · simp only [integersOf?, bind, Except.bind, Except.toOption, Option.map_some, Option.bind_some]
    rcases readSeparator ']' rest with fault | ⟨more, rest⟩
    · rfl
    · cases more with
      | false => rfl
      | true =>
          dsimp only [Option.bind_some]
          rw [if_pos rfl, if_pos rfl]
          cases readElements read fuel depth rest <;> rfl

namespace SameItems

theorem integersOfMany?_readElements_eq (items : SameItems text others) (depth : Nat)
    (enough : 2 * text.length + 1 ≤ fuel) (otherEnough : 2 * others.length + 1 ≤ otherFuel) :
    integersOfMany? (readElements read fuel depth text) =
      integersOfMany? (readElements read otherFuel depth others) := by
  induction items generalizing fuel otherFuel with
  | same text => rw [Json.readElements_eq_of_enough settles_read enough otherEnough]
  | last item rest =>
      rw [List.length_append] at enough otherEnough
      obtain ⟨fuel, rfl⟩ : ∃ less, fuel = less + 1 := ⟨fuel - 1, by omega⟩
      obtain ⟨otherFuel, rfl⟩ : ∃ less, otherFuel = less + 1 := ⟨otherFuel - 1, by omega⟩
      obtain ⟨integers?, has, otherHas⟩ := item.exists_has depth
      have positive := item.isValue.1.length_pos
      have otherPositive := item.isValue.2.length_pos
      rw [integersOfMany?_readElements_succ, integersOfMany?_readElements_succ,
        has fuel rest (by omega), otherHas otherFuel rest (by omega)]
      refine Option.bind_congr fun first mem => ?_
      obtain ⟨integers, -, rfl⟩ := Option.map_eq_some_iff.mp mem
      rcases separated : readSeparator ']' rest with fault | ⟨more, behind⟩
      · rfl
      · have shorter := Json.leavesLess_readSeparator ']' rest more behind separated
        dsimp only [Except.toOption, Option.bind_some]
        rw [Json.readElements_eq_of_enough settles_read (show _ ≤ fuel by omega)
          (show _ ≤ otherFuel by omega)]
  | next item gap otherGap later ih =>
      simp only [List.length_append, List.length_cons] at enough otherEnough
      obtain ⟨fuel, rfl⟩ : ∃ less, fuel = less + 1 := ⟨fuel - 1, by omega⟩
      obtain ⟨otherFuel, rfl⟩ : ∃ less, otherFuel = less + 1 := ⟨otherFuel - 1, by omega⟩
      obtain ⟨integers?, has, otherHas⟩ := item.exists_has depth
      rw [integersOfMany?_readElements_succ, integersOfMany?_readElements_succ,
        has fuel _ (by omega), otherHas otherFuel _ (by omega)]
      cases integers? with
      | none => rfl
      | some integers =>
          dsimp only [Option.map_some, Option.bind_some]
          rw [Json.readSeparator_gap_comma (.inl rfl), Json.readSeparator_gap_comma (.inl rfl)]
          dsimp only [Except.toOption, Option.bind_some]
          rw [if_pos rfl, if_pos rfl, ih (show _ ≤ fuel by omega) (show _ ≤ otherFuel by omega)]
  | gap gap otherGap items ih =>
      rw [List.length_append] at enough otherEnough
      rw [← readElements_skipGap, Json.skipGap_append gap.gaps, readElements_skipGap,
        ← readElements_skipGap otherFuel, Json.skipGap_append otherGap.gaps, readElements_skipGap]
      exact ih (by omega) (by omega)

/-- Only the same text starts with a closing bracket. -/
theorem skipGap_eq_or (items : SameItems text others) :
    skipGap text = skipGap others ∨
      (∀ tail, skipGap text ≠ ']' :: tail) ∧ ∀ tail, skipGap others ≠ ']' :: tail := by
  induction items with
  | same text => exact .inl rfl
  | last item | next item =>
      exact .inr ⟨item.isValue.1.skipGap_ne_bracket _, item.isValue.2.skipGap_ne_bracket _⟩
  | gap gap otherGap items ih =>
      rwa [Json.skipGap_append gap.gaps, Json.skipGap_append otherGap.gaps]

end SameItems

/-- A list of items, from its bracket on. -/
theorem readMany_bracket_eq (fuel depth : Nat) (lead : Gap) (chars : List Char) :
    readMany fuel depth (lead.chars ++ '[' :: chars) =
      match depth with
      | 0 => .error .malformed
      | depth + 1 =>
        match skipGap chars with
        | ']' :: rest => .ok ([], rest)
        | _ => readElements read fuel depth chars := by
  rw [readMany, Json.readList, Json.skipGap_append lead.gaps, Json.skipGap_cons (by decide)]
  cases depth with
  | zero => rfl
  | succ depth =>
      have skipped := readElements_skipGap fuel depth chars
      change (match skipGap chars with
        | ']' :: rest => Except.ok ([], rest)
        | rest => readElements read fuel depth rest) = match skipGap chars with
        | ']' :: rest => Except.ok ([], rest)
        | _ => readElements read fuel depth chars
      split
      · rfl
      · exact skipped

/-- Lists of the same items have the same integers. -/
theorem SameList.integersOfMany?_readMany_eq (list : SameList text others) (depth : Nat)
    (enough : 2 * text.length ≤ fuel) (otherEnough : 2 * others.length ≤ otherFuel) :
    integersOfMany? (readMany fuel depth text) =
      integersOfMany? (readMany otherFuel depth others) := by
  cases list with
  | same =>
      rw [settles_readMany.eq_of_enough enough otherEnough]
  | items lead otherLead items =>
      rw [List.length_append, List.length_cons] at enough otherEnough
      rw [readMany_bracket_eq, readMany_bracket_eq]
      cases depth with
      | zero => rfl
      | succ depth =>
          have same := items.integersOfMany?_readElements_eq depth
            (show _ ≤ fuel by omega) (show _ ≤ otherFuel by omega)
          obtain agree | ⟨noClosing, otherNoClosing⟩ := items.skipGap_eq_or
          · dsimp only
            rw [agree]
            split
            · rfl
            · exact same
          · dsimp only
            split
            · exact absurd ‹_› (noClosing _)
            · exact same

end Lists

/-! ## Requests -/

/-- The member of a request that lists its items. -/
def itemsField : Json.Field (List ReorderItem) :=
  ⟨"items", fun fuel depth _ chars => readMany fuel depth chars⟩

/-- Two texts have the same members of a request behind the opening brace up to its items, and list
the same items there. -/
inductive SameRequestMembers : List Char → List Char → Prop where
  | here (before behindKey : Gap) {key : Json.Quoted} (named : key.contents? = some itemsField.key)
      {text others : List Char} (items : SameList text others) :
      SameRequestMembers (before.chars ++ (key.text ++ (behindKey.chars ++ ':' :: text)))
        (before.chars ++ (key.text ++ (behindKey.chars ++ ':' :: others)))
  | later {member : Member} (unnamed : member.key.contents? ≠ some itemsField.key)
      (isValue : IsValue member.element.value) {text others : List Char}
      (members : SameRequestMembers text others) :
      SameRequestMembers (member.text ++ ',' :: text) (member.text ++ ',' :: others)

/-- Two texts are the same, or requests that list the same items: as a member of an object or as the
first element of a list. -/
inductive SameRequest : List Char → List Char → Prop where
  | same (text : List Char) : SameRequest text text
  | object (lead : Gap) {text others : List Char} (members : SameRequestMembers text others) :
      SameRequest (lead.chars ++ '{' :: text) (lead.chars ++ '{' :: others)
  | list (lead : Gap) {text others : List Char} (items : SameList text others) :
      SameRequest (lead.chars ++ '[' :: text) (lead.chars ++ '[' :: others)

section Requests

variable {fuel otherFuel : Nat} {text others : List Char} {seen : List String}

theorem settles_itemsField : ∀ field ∈ [itemsField], field.Settles := by
  intro field mem record
  cases List.mem_singleton.mp mem
  exact settles_readMany

theorem itemsField_read (fuel depth : Nat) (items : List ReorderItem) (chars : List Char) :
    itemsField.read fuel depth items chars = readMany fuel depth chars :=
  rfl

theorem readRequest_eq : readRequest = Json.readRecord [itemsField] [] :=
  rfl

theorem length_lt_of_integersOfMany? {depth : Nat}
    {items : List (ItemField → Option Int) × List Char}
    (read : integersOfMany? (readMany fuel depth text) = some items) :
    items.2.length < text.length := by
  obtain ⟨⟨found, rest⟩, outcome, rfl⟩ := Option.map_eq_some_iff.mp read
  rcases answer : readMany fuel depth text with fault | ⟨value, behind⟩ <;>
    rw [answer] at outcome <;> cases outcome
  exact settles_readMany.leavesLess fuel depth text found rest answer

/-- The items of a request are those of its member, which is given once. -/
theorem integersOfMany?_readMembers_here (before behindKey : Gap) {key : Json.Quoted}
    (named : key.contents? = some itemsField.key) (fresh : itemsField.key ∉ seen)
    (fuel depth : Nat) (text : List Char) :
    integersOfMany? (readMembers [itemsField] (fuel + 1) depth seen []
        (before.chars ++ (key.text ++ (behindKey.chars ++ ':' :: text)))) =
      (integersOfMany? (readMany fuel depth text)).bind fun items =>
        (readSeparator '}' items.2).toOption.bind fun separator =>
          if separator.1 then
            (integersOfMany? (readMembers [itemsField] fuel depth (itemsField.key :: seen) []
              separator.2)).map fun later => (items.1, later.2)
          else some (items.1, separator.2) := by
  have given : ∀ field ∈ [itemsField], field.key ∈ itemsField.key :: seen := by
    intro field mem
    cases List.mem_singleton.mp mem
    exact List.mem_cons_self
  have found : [itemsField].find? (·.key = itemsField.key) = some itemsField := rfl
  rw [Json.readMembers_key [itemsField] before behindKey named, if_neg fun twice => fresh twice.2,
    Json.readMember, found]
  dsimp only [itemsField_read, bind, Except.bind]
  rcases readMany fuel depth text with fault | ⟨items, rest⟩
  · rfl
  dsimp only [integersOfMany?, Except.toOption, Option.map_some, Option.bind_some]
  rcases readSeparator '}' rest with fault | ⟨more, rest⟩
  · rfl
  cases more with
  | false => rfl
  | true =>
      obtain ⟨outcome, outcome_eq⟩ := Json.exists_readMembers_of_seen fuel depth given rest
      dsimp only [Option.bind_some]
      rw [if_pos rfl, if_pos rfl]
      rw [outcome_eq, outcome_eq]
      cases outcome <;> rfl

/-- Requests whose members list the same items have the same integers. -/
theorem SameRequestMembers.integersOfMany?_readMembers_eq
    (members : SameRequestMembers text others) (depth : Nat) (fresh : itemsField.key ∉ seen)
    (enough : 2 * text.length + 1 ≤ fuel)
    (otherEnough : 2 * others.length + 1 ≤ otherFuel) :
    integersOfMany? (readMembers [itemsField] fuel depth seen [] text) =
      integersOfMany? (readMembers [itemsField] otherFuel depth seen [] others) := by
  induction members generalizing fuel otherFuel seen with
  | @here before behindKey key named text others items =>
      simp only [List.length_append, List.length_cons] at enough otherEnough
      obtain ⟨fuel, rfl⟩ : ∃ less, fuel = less + 1 := ⟨fuel - 1, by omega⟩
      obtain ⟨otherFuel, rfl⟩ : ∃ less, otherFuel = less + 1 := ⟨otherFuel - 1, by omega⟩
      have same := items.integersOfMany?_readMany_eq depth
        (show 2 * text.length ≤ fuel by omega) (show 2 * others.length ≤ otherFuel by omega)
      rw [integersOfMany?_readMembers_here before behindKey named fresh,
        integersOfMany?_readMembers_here before behindKey named fresh, ← same]
      refine Option.bind_congr fun items mem => ?_
      have shorter := length_lt_of_integersOfMany? mem
      have otherShorter := length_lt_of_integersOfMany? (same ▸ mem)
      rcases separated : readSeparator '}' items.2 with fault | ⟨more, rest⟩
      · rfl
      · have less := Json.leavesLess_readSeparator '}' items.2 more rest separated
        dsimp only [Except.toOption, Option.bind_some]
        rw [Json.readMembers_eq_of_enough settles_itemsField (show _ ≤ fuel by omega)
          (show _ ≤ otherFuel by omega)]
  | @later member unnamed isValue text others members ih =>
      have positive := member.length_text
      simp only [List.length_append, List.length_cons] at enough otherEnough
      obtain ⟨fuel, rfl⟩ : ∃ less, fuel = less + 1 := ⟨fuel - 1, by omega⟩
      obtain ⟨otherFuel, rfl⟩ : ∃ less, otherFuel = less + 1 := ⟨otherFuel - 1, by omega⟩
      rcases contents : member.key.contents? with _ | key
      · rw [integersOfMany?, integersOfMany?, Json.readMembers_refused _ contents,
          Json.readMembers_refused _ contents]
      · have other : itemsField.key ≠ key := fun same => unnamed (by rw [contents, same])
        have unknown : [itemsField].find? (·.key = key) = none := by
          simpa using other
        rw [Json.readMembers_unknown contents unknown isValue depth seen [] (Json.stops_comma text)
            (by omega),
          Json.readMembers_unknown contents unknown isValue depth seen [] (Json.stops_comma others)
            (by omega),
          Json.readSeparator_gap_comma (.inr rfl), Json.readSeparator_gap_comma (.inr rfl)]
        exact ih (by simp [other, fresh]) (by omega) (by omega)

/-- Both requests have a member behind the brace. -/
theorem SameRequestMembers.skipGap_ne_brace (members : SameRequestMembers text others)
    (tail : List Char) : skipGap text ≠ '}' :: tail ∧ skipGap others ≠ '}' :: tail := by
  cases members with
  | here before behindKey named items =>
      rw [Json.skipGap_append before.gaps, Json.skipGap_append before.gaps,
        Json.Quoted.skipGap_text, Json.Quoted.skipGap_text]
      exact ⟨nofun, nofun⟩
  | later unnamed isValue members =>
      rw [Json.Member.skipGap_text_append, Json.Member.skipGap_text_append]
      exact ⟨nofun, nofun⟩

theorem skipsGap_itemsField : ∀ field ∈ [itemsField], field.SkipsGap := by
  intro field mem fuel depth items chars
  cases List.mem_singleton.mp mem
  rw [itemsField_read, itemsField_read, readMany, readMany, Json.readList, Json.readList,
    Json.skipGap_skipGap]

/-- A request written as a list has one element. -/
theorem integersOfMany?_readPositions (fuel depth : Nat) (text : List Char) :
    integersOfMany? (Json.readPositions fuel depth [itemsField] [] text) =
      (integersOfMany? (readMany fuel depth text)).bind fun items =>
        (readSeparator ']' items.2).toOption.bind fun separator =>
          if separator.1 then none else some (items.1, separator.2) := by
  rw [Json.readPositions, itemsField_read]
  rcases readMany fuel depth text with fault | ⟨items, rest⟩
  · rfl
  dsimp only [integersOfMany?, bind, Except.bind, Except.toOption, Option.map_some,
    Option.bind_some]
  rcases readSeparator ']' rest with fault | ⟨more, rest⟩
  · rfl
  · cases more <;> rfl

/-- Requests that list the same items have the same integers. -/
theorem SameRequest.integersOfMany?_readRequest_eq (request : SameRequest text others)
    (depth : Nat) (enough : 2 * text.length ≤ fuel) (otherEnough : 2 * others.length ≤ otherFuel) :
    integersOfMany? (readRequest fuel depth text) =
      integersOfMany? (readRequest otherFuel depth others) := by
  cases request with
  | same => rw [settles_readRequest.eq_of_enough enough otherEnough]
  | object lead members =>
      rw [List.length_append, List.length_cons] at enough otherEnough
      rw [readRequest_eq, Json.readRecord_gaps, Json.readRecord_gaps]
      cases depth with
      | zero => rw [Json.readRecord_brace_eq, Json.readRecord_brace_eq]
      | succ depth =>
          rw [Json.readRecord_members _ _ _ _ fun tail => (members.skipGap_ne_brace tail).1,
            Json.readRecord_members _ _ _ _ fun tail => (members.skipGap_ne_brace tail).2]
          exact members.integersOfMany?_readMembers_eq depth List.not_mem_nil (by omega) (by omega)
  | list lead items =>
      rw [List.length_append, List.length_cons] at enough otherEnough
      rw [readRequest_eq, Json.readRecord_gaps, Json.readRecord_gaps]
      cases depth with
      | zero => rw [Json.readRecord_bracket_eq, Json.readRecord_bracket_eq]
      | succ depth =>
          have same := items.integersOfMany?_readMany_eq depth
            (show _ ≤ fuel by omega) (show _ ≤ otherFuel by omega)
          cases items with
          | same text =>
              have settles := Json.settles_readRecord settles_itemsField []
              rw [settles.eq_of_enough (show _ ≤ fuel by rw [List.length_cons]; omega)
                (show _ ≤ otherFuel by rw [List.length_cons]; omega)]
          | items inner otherInner items =>
              have opens (gap : Gap) (chars tail : List Char) :
                  skipGap (gap.chars ++ '[' :: chars) ≠ ']' :: tail := by
                rw [Json.skipGap_append gap.gaps]
                exact nofun
              rw [Json.readRecord_positions [] skipsGap_itemsField fuel depth (opens inner _),
                Json.readRecord_positions [] skipsGap_itemsField otherFuel depth
                  (opens otherInner _), integersOfMany?_readPositions,
                integersOfMany?_readPositions, same]

end Requests

end ReorderItem

end ImageGallery
