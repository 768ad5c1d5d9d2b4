import ImageGallery.Proofs.IntegerSpellings
import ImageGallery.Proofs.PayloadValidation
import ImageGallery.Proofs.RecordTexts

/-!
# Items as they are written

The integers of an item are what its members give together: a member gives an integer to a field, or
nothing if its key is unknown, and each field may be given once. An item written as a list gives the
integers in the order of the fields. Nothing else of the text matters, and nothing behind it.
-/

namespace ImageGallery.ReorderItem

open Json (Element IsValue Member further)

variable {fuel depth : Nat} {item : ReorderItem} {rest : List Char}

/-! ## Fields -/

/-- The field that a key stands for. -/
def fieldOf? (key : String) : Option ItemField :=
  [ItemField.id, ItemField.order].find? (·.name = key)

theorem fieldOf?_eq_some_iff {key : String} {field : ItemField} :
    fieldOf? key = some field ↔ field.name = key := by
  constructor
  · intro found
    simpa using List.find?_some found
  · rintro rfl
    cases field <;> rfl

/-- Set a field of an item. -/
def put (item : ReorderItem) (field : ItemField) (value : Option LooseInt) : ReorderItem :=
  match field with
  | .id => { item with id := value }
  | .order => { item with order := value }

theorem integer?_put (item : ReorderItem) (field : ItemField) (value : Option LooseInt) :
    (item.put field value).integer? =
      Function.update item.integer? field (value.bind LooseInt.coerce?) := by
  funext other
  cases field <;> cases other <;> rfl

/-- How a field is read. -/
def reader (field : ItemField) : Json.Field ReorderItem where
  key := field.name
  read fuel depth item chars :=
    readLoose fuel depth chars >>= fun (value, rest) => .ok (item.put field value, rest)

theorem fields_eq : fields = [ItemField.id, ItemField.order].map reader :=
  rfl

theorem find?_fields (key : String) : fields.find? (·.key = key) = (fieldOf? key).map reader := by
  rw [fields_eq, List.find?_map]
  rfl

/-- The value of a field, up to the comma or the bracket behind it. -/
theorem toOption_readLoose {element : Element} (isValue : IsValue element.value)
    (stops : Json.Stops rest) (depth : Nat) (enough : 2 * element.text.length ≤ fuel) :
    (readLoose fuel depth (element.text ++ rest)).toOption =
      (Json.alone? depth element.value).map fun value =>
        (LooseInt.ofValue? value, element.behind.chars ++ rest) := by
  have read := element.toOption_readValue isValue stops depth enough
  rw [readLoose]
  rcases answer : Json.readValue fuel depth _ with fault | ⟨value, behind⟩ <;>
    rw [answer] at read <;> rcases alone : Json.alone? depth element.value with _ | found <;>
    rw [alone] at read <;> cases read <;> rfl

/-- A field is refused, or it is put into the item, and its integer is the one of its value. -/
theorem read_cases (field : ItemField) (item : ReorderItem) {element : Element}
    (isValue : IsValue element.value) (stops : Json.Stops rest) (depth : Nat)
    (enough : 2 * element.text.length ≤ fuel) :
    (LooseInt.coerced? depth element.value = none ∧
      ∃ fault, (reader field).read fuel depth item (element.text ++ rest) = .error fault) ∨
    ∃ loose : Option LooseInt,
      LooseInt.coerced? depth element.value = some (loose.bind LooseInt.coerce?) ∧
      (reader field).read fuel depth item (element.text ++ rest) =
        .ok (item.put field loose, element.behind.chars ++ rest) := by
  have read := toOption_readLoose isValue stops depth enough
  dsimp only [reader]
  rw [LooseInt.coerced?]
  rcases alone : Json.alone? depth element.value with _ | value <;> rw [alone] at read <;>
    rcases answer : readLoose fuel depth _ with fault | ⟨loose, behind⟩ <;>
    rw [answer] at read <;> cases read
  · exact .inl ⟨rfl, fault, rfl⟩
  · exact .inr ⟨_, rfl, rfl⟩

/-! ## Members -/

/-- For each field that was given, the integer that it was given, if it was one. -/
abbrev Given : Type :=
  ItemField → Option (Option Int)

/-- A field may be given once. -/
def Given.put? (given : Given) (field : ItemField) (value : Option Int) : Option Given :=
  if (given field).isSome then none else some (Function.update given field (some value))

/-- It does not matter which of two fields is given first. -/
theorem Given.put?_put? (given : Given) (field other : ItemField) (value another : Option Int) :
    ((given.put? field value).bind fun given => given.put? other another) =
      (given.put? other another).bind fun given => given.put? field value := by
  unfold put?
  by_cases same : field = other
  · subst same
    split <;> simp
  · have differ : other ≠ field := fun equal => same equal.symm
    by_cases first : (given field).isSome <;> by_cases second : (given other).isSome <;>
      simp [first, second, same, differ, Function.update_comm]

/-- The integers that were given. -/
def Given.integers (given : Given) (field : ItemField) : Option Int :=
  (given field).join

/-- What a member gives, unless it is refused: a field and its integer, or nothing. -/
def gift? (depth : Nat) (member : Member) : Option (Option (ItemField × Option Int)) := do
  match fieldOf? (← member.key.contents?) with
  | some field => return some (field, ← LooseInt.coerced? depth member.element.value)
  | none => return none

theorem gift?_of_refused {member : Member} (refused : member.key.contents? = none) :
    gift? depth member = none := by
  rw [gift?, refused]
  rfl

theorem gift?_of_unknown {member : Member} {key : String}
    (contents : member.key.contents? = some key) (unknown : fieldOf? key = none) :
    gift? depth member = some none := by
  rw [gift?, contents]
  simp [unknown]

theorem gift?_of_field {member : Member} {field : ItemField}
    (contents : member.key.contents? = some field.name) :
    gift? depth member = (LooseInt.coerced? depth member.element.value).map fun value =>
      some (field, value) := by
  have known := fieldOf?_eq_some_iff.mpr (rfl : field.name = field.name)
  rw [gift?, contents]
  cases LooseInt.coerced? depth member.element.value <;> simp [known]

/-- Add what a member gives. -/
def take (given : Option Given) (gift : Option (Option (ItemField × Option Int))) :
    Option Given := do
  match ← gift with
  | some (field, value) => (← given).put? field value
  | none => given

/-- What members give together. -/
def gifts? (depth : Nat) (given : Given) (members : List Member) : Option Given :=
  (members.map (gift? depth)).foldl take (some given)

theorem foldl_take_none (gifts : List (Option (Option (ItemField × Option Int)))) :
    gifts.foldl take none = none := by
  induction gifts with
  | nil => rfl
  | cons gift gifts ih =>
      rw [List.foldl_cons]
      rcases gift with _ | _ | _ <;> exact ih

theorem gifts?_cons (given : Given) (member : Member) (members : List Member) :
    gifts? depth given (member :: members) =
      (take (some given) (gift? depth member)).bind fun given => gifts? depth given members := by
  rw [gifts?, List.map_cons, List.foldl_cons]
  rcases take (some given) (gift? depth member) with _ | later
  · exact foldl_take_none _
  · rfl

/-- It does not matter which of two members is taken first. -/
theorem take_take (given : Option Given) (first second : Option (Option (ItemField × Option Int))) :
    take (take given first) second = take (take given second) first := by
  rcases first with _ | _ | ⟨field, value⟩ <;> rcases second with _ | _ | ⟨other, another⟩ <;>
    try rfl
  cases given with
  | none => rfl
  | some given => exact given.put?_put? field other value another

/-- Members give the same in any order. -/
theorem gifts?_perm (given : Given) {members others : List Member}
    (permuted : members.Perm others) :
    gifts? depth given members = gifts? depth given others :=
  (permuted.map _).foldl_eq' (fun first _ second _ given => take_take given first second) _

/-- The keys and the item that were read so far, and what was given for them. -/
structure Tracks (given : Given) (seen : List String) (item : ReorderItem) : Prop where
  seen_iff (field : ItemField) : field.name ∈ seen ↔ (given field).isSome
  integer_eq : item.integer? = given.integers

namespace Tracks

variable {given : Given} {seen : List String}

theorem start : Tracks (fun _ => none) [] {} where
  seen_iff field := by simp
  integer_eq := by
    funext field
    cases field <;> rfl

theorem pass (tracks : Tracks given seen item) {key : String} (unknown : fieldOf? key = none) :
    Tracks given (key :: seen) item where
  seen_iff field := by
    have other : field.name ≠ key := fun same => by
      rw [fieldOf?_eq_some_iff.mpr same] at unknown
      cases unknown
    rw [List.mem_cons, or_iff_right other, tracks.seen_iff]
  integer_eq := tracks.integer_eq

theorem put (tracks : Tracks given seen item) (field : ItemField) (value : Option LooseInt) :
    Tracks (Function.update given field (some (value.bind LooseInt.coerce?)))
      (field.name :: seen) (item.put field value) where
  seen_iff other := by
    by_cases same : other = field
    · subst same
      simp
    · have differ : other.name ≠ field.name := by
        cases field <;> cases other <;> first | exact absurd rfl same | decide
      rw [List.mem_cons, or_iff_right differ, tracks.seen_iff, Function.update_of_ne same]
  integer_eq := by
    funext other
    rw [integer?_put, tracks.integer_eq, Given.integers]
    by_cases same : other = field
    · subst same
      simp
    · rw [Function.update_of_ne same, Function.update_of_ne same, Given.integers]

end Tracks

/-- A member is refused as what it gives is, or it is taken and the next one is read. -/
theorem readMembers_cases {given : Given} {seen : List String} (tracks : Tracks given seen item)
    {member : Member} (isValue : IsValue member.element.value) (stops : Json.Stops rest)
    (depth : Nat) (enough : 2 * member.text.length ≤ fuel) :
    (take (some given) (gift? depth member) = none ∧
      (Json.readMembers fields (fuel + 1) depth seen item (member.text ++ rest)).toOption = none) ∨
    ∃ later key next, take (some given) (gift? depth member) = some later ∧
      Tracks later (key :: seen) next ∧
      Json.readMembers fields (fuel + 1) depth seen item (member.text ++ rest) =
        Json.readSeparator '}' (member.element.behind.chars ++ rest) >>= fun separator =>
          if separator.1 then Json.readMembers fields fuel depth (key :: seen) next separator.2
          else .ok (next, separator.2) := by
  have shorter := member.length_text
  rcases contents : member.key.contents? with _ | key
  · exact .inl ⟨by rw [gift?_of_refused contents]; rfl,
      Json.readMembers_refused fields contents fuel depth seen item rest⟩
  rcases unknown : fieldOf? key with _ | field
  · have other : fields.find? (·.key = key) = none := by
      rw [find?_fields, unknown]
      rfl
    refine .inr ⟨given, key, item, ?_, tracks.pass unknown,
      Json.readMembers_unknown contents other isValue depth seen item stops enough⟩
    rw [gift?_of_unknown contents unknown]
    rfl
  · obtain rfl := fieldOf?_eq_some_iff.mp unknown
    have known : fields.find? (·.key = field.name) = some (reader field) := by
      rw [find?_fields, unknown]
      rfl
    rw [gift?_of_field contents]
    by_cases again : field.name ∈ seen
    · have refused := Json.readMembers_again (reader field) contents known fuel depth again
        item rest
      refine .inl ⟨?_, by rw [refused]; rfl⟩
      cases LooseInt.coerced? depth member.element.value with
      | none => rfl
      | some value => exact if_pos ((tracks.seen_iff field).mp again)
    · have fresh : ¬(given field).isSome = true := fun held =>
        again ((tracks.seen_iff field).mpr held)
      have read := Json.readMembers_field (reader field) contents known fuel depth again item rest
      obtain ⟨refused, fault, failed⟩ | ⟨loose, integer, taken⟩ :=
        read_cases field item isValue stops depth
          (show 2 * member.element.text.length ≤ fuel by omega)
      · rw [refused, read, failed]
        exact .inl ⟨rfl, rfl⟩
      · rw [integer, read, taken]
        exact .inr ⟨_, field.name, item.put field loose, if_neg fresh, tracks.put field loose, rfl⟩

/-- The integers of an item that was read, with the text behind it. -/
def integersOf? (read : Json.Reading (ReorderItem × List Char)) :
    Option ((ItemField → Option Int) × List Char) :=
  read.toOption.map fun read => (read.1.integer?, read.2)

/-- An item written as an object has the integers that its members give. -/
theorem integersOf?_readMembers {given : Given} {seen : List String}
    (tracks : Tracks given seen item) {member : Member} {members : List Member}
    (inner : ∀ each ∈ member :: members, IsValue each.element.value) (rest : List Char)
    (enough : 2 * (member.text ++ further '}' (members.map Member.text)).length + 1 ≤ fuel) :
    integersOf? (Json.readMembers fields fuel depth seen item
        (member.text ++ (further '}' (members.map Member.text) ++ rest))) =
      (gifts? depth given (member :: members)).map fun given => (given.integers, rest) := by
  induction fuel generalizing member members seen given item with
  | zero => omega
  | succ fuel ih =>
      rw [List.length_append] at enough
      rw [gifts?_cons]
      obtain ⟨refused, failed⟩ | ⟨later, key, next, taken, tracked, read⟩ :=
        readMembers_cases tracks (inner member List.mem_cons_self)
          (Json.stops_further (.inr rfl) (members.map Member.text) rest) depth
          (show 2 * member.text.length ≤ fuel by omega)
      · rw [refused, integersOf?, failed]
        rfl
      · rw [taken, read, Json.readSeparator_further (.inr rfl)]
        cases members with
        | nil => exact congrArg (fun integers => some (integers, rest)) tracked.integer_eq
        | cons following members =>
            rw [List.map_cons, further, List.length_cons] at enough
            exact ih tracked (fun each mem => inner each (List.mem_cons_of_mem _ mem)) (by omega)

/-- The integers of an item that is written as a list, from the given field on. -/
def positional? : List ItemField → (ItemField → Option Int) → List (Option (Option Int)) →
    Option (ItemField → Option Int)
  | [], _, _ => none
  | _ :: _, integers, [] => some integers
  | field :: fields, integers, value :: values =>
    value.bind fun value =>
      match values with
      | [] => some (Function.update integers field value)
      | next :: values =>
        positional? fields (Function.update integers field value) (next :: values)

theorem integersOf?_readPositions {names : List ItemField} {element : Element}
    {elements : List Element} (inner : ∀ each ∈ element :: elements, IsValue each.value)
    (rest : List Char)
    (enough : 2 * (element.text ++ further ']' (elements.map Element.text)).length ≤ fuel) :
    integersOf? (Json.readPositions fuel depth (names.map reader) item
        (element.text ++ (further ']' (elements.map Element.text) ++ rest))) =
      (positional? names item.integer? ((element :: elements).map fun element =>
        LooseInt.coerced? depth element.value)).map fun integers => (integers, rest) := by
  induction names generalizing item element elements with
  | nil => rfl
  | cons field names ih =>
      rw [List.length_append] at enough
      rw [List.map_cons, Json.readPositions, List.map_cons, positional?]
      obtain ⟨refused, fault, failed⟩ | ⟨loose, integer, taken⟩ :=
        read_cases field item (inner element List.mem_cons_self)
          (Json.stops_further (.inl rfl) (elements.map Element.text) rest) depth
          (show 2 * element.text.length ≤ fuel by omega)
      · rw [refused, failed]
        rfl
      · rw [integer, taken, Option.bind_some, ← integer?_put]
        dsimp only [bind, Except.bind]
        rw [Json.readSeparator_further (.inl rfl)]
        cases elements with
        | nil => rfl
        | cons following elements =>
            rw [List.map_cons, further, List.length_cons] at enough
            exact ih (fun each mem => inner each (List.mem_cons_of_mem _ mem)) (by omega)

/-! ## Items -/

theorem skipsGap_fields : ∀ field ∈ fields, field.SkipsGap := by
  rw [fields_eq]
  intro field mem fuel depth record chars
  obtain ⟨name, -, rfl⟩ := List.mem_map.mp mem
  dsimp only [reader]
  rw [readLoose, readLoose, Json.readValue, Json.readValueWith_skipGap]

/-- What an item has for its integers, unless it is refused, and whatever stands behind it. -/
def Has (depth : Nat) (source : List Char) (integers? : Option (ItemField → Option Int)) : Prop :=
  ∀ fuel rest, 2 * source.length ≤ fuel →
    integersOf? (read fuel depth (source ++ rest)) = integers?.map fun integers => (integers, rest)

/-- No item is read below the last level. -/
theorem has_none_of_bottom {source : List Char}
    (isRecord : ∃ tail, source = '{' :: tail ∨ source = '[' :: tail) : Has 0 source none := by
  intro fuel rest _
  obtain ⟨tail, rfl | rfl⟩ := isRecord
  · rw [read, List.cons_append, Json.readRecord_brace_eq]
    rfl
  · rw [read, List.cons_append, Json.readRecord_bracket_eq]
    rfl

/-- An item written as an object has what its members give. -/
theorem has_gifts {depth : Nat} (gap : Json.Gap) {members : List Member}
    (inner : ∀ member ∈ members, IsValue member.element.value) :
    Has (depth + 1) (Json.objectText gap members)
      ((gifts? depth (fun _ => none) members).map Given.integers) := by
  intro fuel rest enough
  rw [read, Json.readRecord_object]
  cases members with
  | nil => exact congrArg (fun integers => some (integers, rest)) Tracks.start.integer_eq
  | cons member members =>
      rw [Json.objectText, List.length_cons, List.map_cons, Json.enclosed] at enough
      dsimp only
      rw [integersOf?_readMembers Tracks.start inner rest (by omega), Option.map_map]
      rfl

/-- An item written as a list has the integers in the order of the fields. -/
theorem has_positional {depth : Nat} (gap : Json.Gap) {elements : List Element}
    (inner : ∀ element ∈ elements, IsValue element.value) :
    Has (depth + 1) (Json.listText gap elements)
      (positional? [.id, .order] (fun _ => none) (elements.map fun element =>
        LooseInt.coerced? depth element.value)) := by
  intro fuel rest enough
  have empty : integer? {} = fun _ => none := Tracks.start.integer_eq
  rw [read, Json.readRecord_list _ skipsGap_fields _ _ gap inner]
  cases elements with
  | nil => exact congrArg (fun integers => some (integers, rest)) empty
  | cons element elements =>
      rw [Json.listText, List.length_cons, List.map_cons, Json.enclosed] at enough
      dsimp only
      rw [fields_eq, integersOf?_readPositions inner rest (by omega), empty]

/-- No other value is an item. -/
theorem has_none_of_scalar {source : List Char} (isValue : IsValue source)
    (scalar : ∀ tail, source ≠ '{' :: tail ∧ source ≠ '[' :: tail) : Has depth source none := by
  intro fuel rest _
  obtain ⟨fault, refused⟩ := Json.readRecord_scalar {} fields isValue scalar fuel depth rest
  rw [read, refused]
  rfl

/-- Every value is an item of its own or none. -/
theorem exists_has {source : List Char} (isValue : IsValue source) (depth : Nat) :
    ∃ integers?, Has depth source integers? := by
  cases isValue with
  | null => exact ⟨_, has_none_of_scalar .null (by simp)⟩
  | boolean value =>
      exact ⟨_, has_none_of_scalar (.boolean value) (by cases value <;> simp [Json.booleanText])⟩
  | numeral numeral =>
      refine ⟨_, has_none_of_scalar (.numeral numeral) fun tail => ?_⟩
      obtain ⟨first, others, shape, opening⟩ := numeral.exists_first
      rw [shape]
      constructor <;>
      · rintro ⟨⟩
        exact absurd opening (by decide)
  | string string => exact ⟨_, has_none_of_scalar (.string string) (by simp [Json.Quoted.text])⟩
  | list gap inner =>
      cases depth with
      | zero => exact ⟨_, has_none_of_bottom ⟨_, .inr rfl⟩⟩
      | succ depth => exact ⟨_, has_positional gap inner⟩
  | object gap inner =>
      cases depth with
      | zero => exact ⟨_, has_none_of_bottom ⟨_, .inl rfl⟩⟩
      | succ depth => exact ⟨_, has_gifts gap inner⟩

end ImageGallery.ReorderItem
