import ImageGallery.Proofs.JsonLexemes

/-!
# Values as they are written

The texts of JSON values, with gaps between their parts. Such a text is read on its own: whatever
stands behind it is left over and has no influence. A value that is kept may be refused for its
depth, its surrogates or the size of its numbers, but it is always skipped.
-/

namespace ImageGallery.Json

/-! ## The grammar -/

/-- What may stand between two tokens. -/
structure Gap where
  chars : List Char
  gaps : Gaps chars

/-- Nothing between two tokens. -/
def gapless : Gap where
  chars := []
  gaps := nofun

/-- A value among others in a list, or behind its key. -/
structure Element where
  before : Gap
  value : List Char
  behind : Gap

/-- A member of an object. -/
structure Member where
  before : Gap
  key : Quoted
  behindKey : Gap
  element : Element

def Element.text (element : Element) : List Char :=
  element.before.chars ++ (element.value ++ element.behind.chars)

def Member.text (member : Member) : List Char :=
  member.before.chars ++ (member.key.text ++ (member.behindKey.chars ++ ':' :: member.element.text))

/-- Further parts, each after a comma, and the closing bracket. -/
def further (close : Char) : List (List Char) → List Char
  | [] => [close]
  | part :: parts => ',' :: (part ++ further close parts)

/-- Parts up to the closing bracket, or a gap if there are none. -/
def enclosed (gap : Gap) (close : Char) : List (List Char) → List Char
  | [] => gap.chars ++ [close]
  | part :: parts => part ++ further close parts

def booleanText : Bool → List Char
  | true => ['t', 'r', 'u', 'e']
  | false => ['f', 'a', 'l', 's', 'e']

def listText (gap : Gap) (elements : List Element) : List Char :=
  '[' :: enclosed gap ']' (elements.map Element.text)

def objectText (gap : Gap) (members : List Member) : List Char :=
  '{' :: enclosed gap '}' (members.map Member.text)

/-- The text is that of a JSON value. -/
inductive IsValue : List Char → Prop where
  | null : IsValue ['n', 'u', 'l', 'l']
  | boolean (value : Bool) : IsValue (booleanText value)
  | numeral (numeral : NumeralText) : IsValue numeral.text
  | string (string : Quoted) : IsValue string.text
  | list (gap : Gap) {elements : List Element}
      (inner : ∀ element ∈ elements, IsValue element.value) : IsValue (listText gap elements)
  | object (gap : Gap) {members : List Member}
      (inner : ∀ member ∈ members, IsValue member.element.value) : IsValue (objectText gap members)

/-! ## What stands around a value -/

section Around

variable {source rest : List Char}

theorem IsValue.exists_first (value : IsValue source) :
    ∃ first others, source = first :: others ∧ Opening first := by
  cases value with
  | null | string | list | object => exact ⟨_, _, rfl, by decide, by decide⟩
  | boolean value => cases value <;> exact ⟨_, _, rfl, by decide, by decide⟩
  | numeral numeral =>
      obtain ⟨first, others, shape, opening⟩ := numeral.exists_first
      refine ⟨first, others, shape, noGap_of_numeral opening, ?_⟩
      constructor <;>
      · rintro rfl
        exact absurd opening (by decide)

theorem IsValue.length_pos (value : IsValue source) : 0 < source.length := by
  obtain ⟨first, others, rfl, -⟩ := value.exists_first
  exact Nat.succ_pos _

/-- A gap does not go on with a numeral, nor does a comma or a closing bracket. -/
theorem stops_gap_append (gap : Gap) (stops : Stops rest) : Stops (gap.chars ++ rest) := by
  obtain ⟨chars, gaps⟩ := gap
  cases chars with
  | nil => exact stops
  | cons char chars =>
      refine stops_cons _ ?_
      have blank := gaps char List.mem_cons_self
      simp only [isGap, Bool.or_eq_true, decide_eq_true_eq] at blank
      rcases blank with ((rfl | rfl) | rfl) | rfl <;> decide

/-- A bracket that closes a list or an object. -/
def Closing (close : Char) : Prop :=
  close = ']' ∨ close = '}'

theorem stops_further {close : Char} (closing : Closing close) (parts : List (List Char))
    (rest : List Char) : Stops (further close parts ++ rest) := by
  cases parts with
  | nil => rcases closing with rfl | rfl <;> exact stops_cons _ (by decide)
  | cons part parts => exact stops_comma _

theorem readSeparator_gap_comma {close : Char} (closing : Closing close) (gap : Gap)
    (rest : List Char) : readSeparator close (gap.chars ++ ',' :: rest) = .ok (true, rest) := by
  have other : close ≠ ',' := by rcases closing with rfl | rfl <;> decide
  rw [readSeparator, skipGap_append gap.gaps, ← readSeparator]
  exact readSeparator_comma other rest

/-- Behind a part stands the closing bracket, or a comma and the next part. -/
theorem readSeparator_further {close : Char} (closing : Closing close) (gap : Gap)
    (parts : List (List Char)) (rest : List Char) :
    readSeparator close (gap.chars ++ (further close parts ++ rest)) =
      match parts with
      | [] => .ok (false, rest)
      | part :: parts => .ok (true, part ++ (further close parts ++ rest)) := by
  have noGap : isGap close = false := by rcases closing with rfl | rfl <;> decide
  cases parts with
  | nil =>
      rw [further, readSeparator, skipGap_append gap.gaps, List.singleton_append,
        skipGap_cons noGap]
      exact if_pos rfl
  | cons part parts =>
      rw [further, List.cons_append, List.append_assoc, readSeparator_gap_comma closing]

end Around

/-! ## Reading on its own -/

/-- What a value is read as, whatever stands behind it. -/
def ReadsAs (care : Care) (depth : Nat) (source : List Char) (outcome : Reading Value) : Prop :=
  ∀ rest fuel, Stops rest → 2 * source.length ≤ fuel →
    readValueWith care fuel depth (source ++ rest) = outcome.leaving rest

/-- A value is read on its own, and skipped without a fault. -/
def ReadAlone (care : Care) (depth : Nat) (source : List Char) : Prop :=
  ∃ outcome, ReadsAs care depth source outcome ∧
    (care = .skipped → ∃ value, outcome = .ok value)

section Parts

variable {care : Care} {fuel depth : Nat} {rest : List Char}

theorem Element.text_append (element : Element) (rest : List Char) :
    element.text ++ rest =
      element.before.chars ++ (element.value ++ (element.behind.chars ++ rest)) := by
  rw [Element.text, List.append_assoc, List.append_assoc]

theorem Element.length_value_le (element : Element) :
    element.value.length ≤ element.text.length := by
  rw [Element.text, List.length_append, List.length_append]
  omega

/-- An element is read up to the comma or the bracket behind it. -/
theorem Element.readValueWith_append (element : Element) {outcome : Reading Value}
    (reads : ReadsAs care depth element.value outcome) (stops : Stops rest)
    (enough : 2 * element.text.length ≤ fuel) :
    readValueWith care fuel depth (element.text ++ rest) =
      outcome.leaving (element.behind.chars ++ rest) := by
  have shorter := element.length_value_le
  rw [element.text_append, readValueWith_gaps care fuel depth element.before.gaps]
  exact reads _ fuel (stops_gap_append element.behind stops) (by omega)

theorem Member.text_append (member : Member) (rest : List Char) :
    member.text ++ rest =
      member.before.chars ++ (member.key.text ++
        (member.behindKey.chars ++ ':' :: (member.element.text ++ rest))) := by
  simp only [Member.text, List.append_assoc, List.cons_append]

theorem Member.length_text (member : Member) :
    member.element.text.length + 1 ≤ member.text.length := by
  simp only [Member.text, List.length_append, List.length_cons]
  omega

/-- The key of a member is read together with the colon. -/
theorem Member.readKey_append (member : Member) (care : Care) :
    ∃ outcome : Reading String,
      (∀ rest, readKey care (member.text ++ rest) =
        outcome.leaving (member.element.text ++ rest)) ∧
        (care = .skipped → ∃ key, outcome = .ok key) := by
  obtain ⟨outcome, outcome_eq, skipped⟩ := member.key.alone care
  refine ⟨outcome, fun rest => ?_, skipped⟩
  rw [readKey, member.text_append, skipGap_append member.before.gaps, member.key.skipGap_text,
    outcome_eq]
  rcases outcome with fault | key
  · rfl
  · simp only [Reading.leaving, Except.map, bind, Except.bind]
    rw [skipGap_append member.behindKey.gaps, skipGap_cons (by decide)]
    rfl

/-- Read an element, and those behind it if there are any. -/
theorem readItemsWith_element (element : Element) {outcome : Reading Value}
    (reads : ReadsAs care depth element.value outcome) (parts : List (List Char))
    (rest : List Char) (enough : 2 * element.text.length ≤ fuel) :
    readItemsWith care (fuel + 1) depth (element.text ++ (further ']' parts ++ rest)) =
      outcome >>= fun value =>
        match parts with
        | [] => .ok ([value], rest)
        | part :: parts =>
          (readItemsWith care fuel depth (part ++ (further ']' parts ++ rest))).map
            fun read => (value :: read.1, read.2) := by
  rw [readItemsWith,
    element.readValueWith_append reads (stops_further (.inl rfl) parts rest) enough]
  rcases outcome with fault | value
  · rfl
  · simp only [Reading.leaving, Except.map, bind, Except.bind]
    rw [readSeparator_further (.inl rfl)]
    cases parts <;> rfl

/-- The elements of a list are read one after the other. -/
theorem readItemsWith_further (element : Element) (elements : List Element)
    (alone : ∀ each ∈ element :: elements, ReadAlone care depth each.value) :
    ∃ outcome : Reading (List Value),
      (∀ rest fuel,
        2 * (element.text ++ further ']' (elements.map Element.text)).length + 1 ≤ fuel →
          readItemsWith care fuel depth
              (element.text ++ (further ']' (elements.map Element.text) ++ rest)) =
            outcome.leaving rest) ∧
        (care = .skipped → ∃ values, outcome = .ok values) := by
  induction elements generalizing element with
  | nil =>
      obtain ⟨first, reads, skipped⟩ := alone element List.mem_cons_self
      refine ⟨first.map fun value => [value], fun rest fuel enough => ?_, fun care_eq => ?_⟩
      · rw [List.length_append] at enough
        obtain ⟨fuel, rfl⟩ : ∃ less, fuel = less + 1 := ⟨fuel - 1, by omega⟩
        rw [readItemsWith_element element reads _ rest (by omega)]
        cases first <;> rfl
      · obtain ⟨value, rfl⟩ := skipped care_eq
        exact ⟨[value], rfl⟩
  | cons next elements ih =>
      obtain ⟨first, reads, skipped⟩ := alone element List.mem_cons_self
      obtain ⟨others, others_eq, skippedToo⟩ := ih next fun each mem =>
        alone each (List.mem_cons_of_mem _ mem)
      refine ⟨first >>= fun value => others.map fun values => value :: values,
        fun rest fuel enough => ?_, fun care_eq => ?_⟩
      · rw [List.map_cons, further, List.length_append, List.length_cons] at enough
        obtain ⟨fuel, rfl⟩ : ∃ less, fuel = less + 1 := ⟨fuel - 1, by omega⟩
        rw [readItemsWith_element element reads _ rest (by omega), List.map_cons]
        dsimp only
        rw [others_eq rest fuel (by omega)]
        cases first <;> cases others <;> rfl
      · obtain ⟨value, rfl⟩ := skipped care_eq
        obtain ⟨values, rfl⟩ := skippedToo care_eq
        exact ⟨value :: values, rfl⟩

/-- Read a member behind its key, and those behind it if there are any. -/
theorem readMembersWith_member (member : Member) {key : Reading String}
    (readsKey : ∀ rest, readKey care (member.text ++ rest) =
      key.leaving (member.element.text ++ rest)) {outcome : Reading Value}
    (reads : ReadsAs care depth member.element.value outcome) (parts : List (List Char))
    (rest : List Char) (enough : 2 * member.text.length ≤ fuel) :
    readMembersWith care (fuel + 1) depth (member.text ++ (further '}' parts ++ rest)) =
      key >>= fun key => outcome >>= fun value =>
        match parts with
        | [] => .ok ([(key, value)], rest)
        | part :: parts =>
          (readMembersWith care fuel depth (part ++ (further '}' parts ++ rest))).map
            fun read => ((key, value) :: read.1, read.2) := by
  have shorter := member.length_text
  rw [readMembersWith, readsKey]
  rcases key with fault | key
  · rfl
  · simp only [Reading.leaving, Except.map, bind, Except.bind]
    rw [member.element.readValueWith_append reads (stops_further (.inr rfl) parts rest) (by omega)]
    rcases outcome with fault | value
    · rfl
    · simp only [Reading.leaving, Except.map]
      rw [readSeparator_further (.inr rfl)]
      cases parts <;> rfl

/-- The members of an object are read one after the other. -/
theorem readMembersWith_further (member : Member) (members : List Member)
    (alone : ∀ each ∈ member :: members, ReadAlone care depth each.element.value) :
    ∃ outcome : Reading (List (String × Value)),
      (∀ rest fuel,
        2 * (member.text ++ further '}' (members.map Member.text)).length + 1 ≤ fuel →
          readMembersWith care fuel depth
              (member.text ++ (further '}' (members.map Member.text) ++ rest)) =
            outcome.leaving rest) ∧
        (care = .skipped → ∃ values, outcome = .ok values) := by
  induction members generalizing member with
  | nil =>
      obtain ⟨key, key_eq, keySkipped⟩ := member.readKey_append care
      obtain ⟨first, reads, skipped⟩ := alone member List.mem_cons_self
      refine ⟨key >>= fun key => first.map fun value => [(key, value)],
        fun rest fuel enough => ?_, fun care_eq => ?_⟩
      · rw [List.length_append] at enough
        obtain ⟨fuel, rfl⟩ : ∃ less, fuel = less + 1 := ⟨fuel - 1, by omega⟩
        rw [readMembersWith_member member key_eq reads _ rest (by omega)]
        cases key <;> cases first <;> rfl
      · obtain ⟨key, rfl⟩ := keySkipped care_eq
        obtain ⟨value, rfl⟩ := skipped care_eq
        exact ⟨[(key, value)], rfl⟩
  | cons next members ih =>
      obtain ⟨key, key_eq, keySkipped⟩ := member.readKey_append care
      obtain ⟨first, reads, skipped⟩ := alone member List.mem_cons_self
      obtain ⟨others, others_eq, skippedToo⟩ := ih next fun each mem =>
        alone each (List.mem_cons_of_mem _ mem)
      refine ⟨key >>= fun key => first >>= fun value =>
          others.map fun values => (key, value) :: values,
        fun rest fuel enough => ?_, fun care_eq => ?_⟩
      · rw [List.map_cons, further, List.length_append, List.length_cons] at enough
        obtain ⟨fuel, rfl⟩ : ∃ less, fuel = less + 1 := ⟨fuel - 1, by omega⟩
        rw [readMembersWith_member member key_eq reads _ rest (by omega), List.map_cons]
        dsimp only
        rw [others_eq rest fuel (by omega)]
        cases key <;> cases first <;> cases others <;> rfl
      · obtain ⟨key, rfl⟩ := keySkipped care_eq
        obtain ⟨value, rfl⟩ := skipped care_eq
        obtain ⟨values, rfl⟩ := skippedToo care_eq
        exact ⟨(key, value) :: values, rfl⟩

theorem readMembersWith_gaps (care : Care) (fuel depth : Nat) (gap : Gap) (chars : List Char) :
    readMembersWith care fuel depth (gap.chars ++ chars) =
      readMembersWith care fuel depth chars := by
  cases fuel with
  | zero => rfl
  | succ fuel =>
      rw [readMembersWith, readMembersWith, readKey, skipGap_append gap.gaps, ← readKey]

theorem readValueWith_bracket_eq (care : Care) (fuel depth : Nat) (chars : List Char) :
    readValueWith care (fuel + 1) depth ('[' :: chars) =
      match deeper? care depth with
      | none => .error .malformed
      | some depth =>
        match skipGap chars with
        | ']' :: rest => .ok (.list [], rest)
        | rest => (readItemsWith care fuel depth rest).map fun read => (.list read.1, read.2) := by
  rw [readValueWith, skipGap_cons (by decide)]
  rfl

/-- A list, from its bracket on. -/
theorem readValueWith_list (care : Care) (fuel depth : Nat) (gap : Gap) {elements : List Element}
    (inner : ∀ element ∈ elements, IsValue element.value) (rest : List Char) :
    readValueWith care (fuel + 1) depth (listText gap elements ++ rest) =
      match deeper? care depth with
      | none => .error .malformed
      | some depth =>
        match elements with
        | [] => .ok (.list [], rest)
        | element :: elements =>
          (readItemsWith care fuel depth
            (element.text ++ (further ']' (elements.map Element.text) ++ rest))).map
              fun read => (.list read.1, read.2) := by
  rw [listText, List.cons_append, readValueWith_bracket_eq]
  cases deeper? care depth with
  | none => rfl
  | some depth =>
      cases elements with
      | nil =>
          dsimp only
          rw [List.map_nil, enclosed, List.append_assoc, skipGap_append gap.gaps,
            List.singleton_append, skipGap_cons (by decide)]
          rfl
      | cons element elements =>
          obtain ⟨first, others, shape, opening⟩ :=
            (inner element List.mem_cons_self).exists_first
          dsimp only
          rw [List.map_cons, enclosed, List.append_assoc, element.text_append,
            skipGap_append element.before.gaps,
            readItemsWith_gaps care fuel depth element.before.gaps, shape, List.cons_append,
            skipGap_cons opening.noGap]
          split
          · rename_i closing
            exact absurd (List.cons_eq_cons.mp closing).1 opening.notClosing.1
          · rfl

theorem readValueWith_brace_eq (care : Care) (fuel depth : Nat) (chars : List Char) :
    readValueWith care (fuel + 1) depth ('{' :: chars) =
      match deeper? care depth with
      | none => .error .malformed
      | some depth =>
        match skipGap chars with
        | '}' :: rest => .ok (.object [], rest)
        | rest =>
          (readMembersWith care fuel depth rest).map fun read => (.object read.1, read.2) := by
  rw [readValueWith, skipGap_cons (by decide)]
  rfl

/-- An object, from its brace on. -/
theorem readValueWith_object (care : Care) (fuel depth : Nat) (gap : Gap) (members : List Member)
    (rest : List Char) :
    readValueWith care (fuel + 1) depth (objectText gap members ++ rest) =
      match deeper? care depth with
      | none => .error .malformed
      | some depth =>
        match members with
        | [] => .ok (.object [], rest)
        | member :: members =>
          (readMembersWith care fuel depth
            (member.text ++ (further '}' (members.map Member.text) ++ rest))).map
              fun read => (.object read.1, read.2) := by
  rw [objectText, List.cons_append, readValueWith_brace_eq]
  cases deeper? care depth with
  | none => rfl
  | some depth =>
      cases members with
      | nil =>
          dsimp only
          rw [List.map_nil, enclosed, List.append_assoc, skipGap_append gap.gaps,
            List.singleton_append, skipGap_cons (by decide)]
          rfl
      | cons member members =>
          dsimp only
          rw [List.map_cons, enclosed, List.append_assoc, member.text_append,
            skipGap_append member.before.gaps,
            readMembersWith_gaps care fuel depth member.before, Quoted.text, List.cons_append,
            skipGap_cons (by decide)]
          rfl

theorem ReadAlone.of_succ {source : List Char} (nonempty : 0 < source.length)
    (outcome : Reading Value)
    (read : ∀ rest fuel, Stops rest → 2 * source.length ≤ fuel + 1 →
      readValueWith care (fuel + 1) depth (source ++ rest) = outcome.leaving rest)
    (skipped : care = .skipped → ∃ value, outcome = .ok value) : ReadAlone care depth source := by
  refine ⟨outcome, fun rest fuel stops enough => ?_, skipped⟩
  obtain ⟨fuel, rfl⟩ : ∃ less, fuel = less + 1 := ⟨fuel - 1, by omega⟩
  exact read rest fuel stops enough

theorem readValueWith_numeralText (fuel : Nat) (numeral : NumeralText) (rest : List Char) :
    readValueWith care (fuel + 1) depth (numeral.text ++ rest) =
      (readNumeral care (numeral.text ++ rest)).map fun read => (.number read.1, read.2) := by
  obtain ⟨first, others, shape, opening⟩ := numeral.exists_first
  rw [shape]
  exact readValueWith_numeral care fuel depth (others ++ rest) opening

theorem readValueWith_quoted (fuel : Nat) (string : Quoted) (rest : List Char) :
    readValueWith care (fuel + 1) depth (string.text ++ rest) =
      (readString care (string.text ++ rest)).map fun read => (.text read.1, read.2) := by
  rw [Quoted.text, List.cons_append, readValueWith, skipGap_cons (by decide)]
  rfl

theorem readAlone_numeral (numeral : NumeralText) : ReadAlone care depth numeral.text := by
  have nonempty := (IsValue.numeral numeral).length_pos
  by_cases accepted : care = .skipped ∨ numeral.numeral.toBinary64?.isSome
  · refine .of_succ nonempty (.ok (.number numeral.numeral)) (fun rest fuel stops _ => ?_)
      fun _ => ⟨_, rfl⟩
    rw [readValueWith_numeralText, numeral.readNumeral_append care stops, if_pos accepted]
    rfl
  · refine .of_succ nonempty (.error .malformed) (fun rest fuel stops _ => ?_)
      fun care_eq => absurd (.inl care_eq) accepted
    rw [readValueWith_numeralText, numeral.readNumeral_append care stops, if_neg accepted]
    rfl

theorem readAlone_string (string : Quoted) : ReadAlone care depth string.text := by
  obtain ⟨outcome, outcome_eq, skipped⟩ := string.alone care
  refine .of_succ (Nat.succ_pos _) (outcome.map .text) (fun rest fuel _ _ => ?_) fun care_eq => ?_
  · rw [readValueWith_quoted, outcome_eq]
    cases outcome <;> rfl
  · obtain ⟨contents, rfl⟩ := skipped care_eq
    exact ⟨.text contents, rfl⟩

theorem readAlone_list (gap : Gap) {elements : List Element}
    (inner : ∀ element ∈ elements, IsValue element.value)
    (alone : ∀ element ∈ elements, ∀ depth, ReadAlone care depth element.value) :
    ReadAlone care depth (listText gap elements) := by
  have read (fuel : Nat) (rest : List Char) := readValueWith_list care fuel depth gap inner rest
  cases levels : deeper? care depth with
  | none =>
      rw [levels] at read
      refine .of_succ (Nat.succ_pos _) (.error .malformed) (fun rest fuel _ _ => read fuel rest) ?_
      rintro rfl
      cases depth <;> cases levels
  | some below =>
      rw [levels] at read
      cases elements with
      | nil =>
          exact .of_succ (Nat.succ_pos _) (.ok (.list [])) (fun rest fuel _ _ => read fuel rest)
            fun _ => ⟨_, rfl⟩
      | cons element elements =>
          obtain ⟨outcome, outcome_eq, skipped⟩ := readItemsWith_further element elements
            fun each mem => alone each mem below
          refine .of_succ (Nat.succ_pos _) (outcome.map .list) (fun rest fuel _ enough => ?_)
            fun care_eq => ?_
          · rw [listText, List.length_cons, List.map_cons, enclosed] at enough
            refine (read fuel rest).trans ?_
            dsimp only
            rw [outcome_eq rest fuel (by omega)]
            cases outcome <;> rfl
          · obtain ⟨values, rfl⟩ := skipped care_eq
            exact ⟨.list values, rfl⟩

theorem readAlone_object (gap : Gap) {members : List Member}
    (alone : ∀ member ∈ members, ∀ depth, ReadAlone care depth member.element.value) :
    ReadAlone care depth (objectText gap members) := by
  have read (fuel : Nat) (rest : List Char) :=
    readValueWith_object care fuel depth gap members rest
  cases levels : deeper? care depth with
  | none =>
      rw [levels] at read
      refine .of_succ (Nat.succ_pos _) (.error .malformed) (fun rest fuel _ _ => read fuel rest) ?_
      rintro rfl
      cases depth <;> cases levels
  | some below =>
      rw [levels] at read
      cases members with
      | nil =>
          exact .of_succ (Nat.succ_pos _) (.ok (.object [])) (fun rest fuel _ _ => read fuel rest)
            fun _ => ⟨_, rfl⟩
      | cons member members =>
          obtain ⟨outcome, outcome_eq, skipped⟩ := readMembersWith_further member members
            fun each mem => alone each mem below
          refine .of_succ (Nat.succ_pos _) (outcome.map .object) (fun rest fuel _ enough => ?_)
            fun care_eq => ?_
          · rw [objectText, List.length_cons, List.map_cons, enclosed] at enough
            refine (read fuel rest).trans ?_
            dsimp only
            rw [outcome_eq rest fuel (by omega)]
            cases outcome <;> rfl
          · obtain ⟨values, rfl⟩ := skipped care_eq
            exact ⟨.object values, rfl⟩

end Parts

section Values

variable {source rest : List Char}

/-- Every value is read on its own. -/
theorem IsValue.readAlone (value : IsValue source) (care : Care) (depth : Nat) :
    ReadAlone care depth source := by
  induction value generalizing depth with
  | null =>
      exact .of_succ (by decide) (.ok .null) (fun _ _ _ _ => rfl) fun _ => ⟨_, rfl⟩
  | boolean value =>
      cases value with
      | true =>
          exact .of_succ (by decide) (.ok (.boolean true)) (fun _ _ _ _ => rfl)
            fun _ => ⟨_, rfl⟩
      | false =>
          exact .of_succ (by decide) (.ok (.boolean false)) (fun _ _ _ _ => rfl)
            fun _ => ⟨_, rfl⟩
  | numeral numeral => exact readAlone_numeral numeral
  | string string => exact readAlone_string string
  | list gap inner ih => exact readAlone_list gap inner ih
  | object gap inner ih => exact readAlone_object gap ih

/-- What a kept value is read as by itself. -/
def alone? (depth : Nat) (source : List Char) : Option Value :=
  (readValue (2 * source.length) depth source).toOption.map (·.1)

theorem IsValue.toOption_readValue (value : IsValue source) (stops : Stops rest)
    {fuel depth : Nat} (enough : 2 * source.length ≤ fuel) :
    (readValue fuel depth (source ++ rest)).toOption =
      (alone? depth source).map fun value => (value, rest) := by
  obtain ⟨outcome, reads, -⟩ := value.readAlone .kept depth
  have empty := reads [] _ stops_nil (Nat.le_refl _)
  rw [List.append_nil] at empty
  rw [alone?, readValue, empty, reads rest fuel stops enough]
  cases outcome <;> rfl

theorem IsValue.skipValue_append (value : IsValue source) (stops : Stops rest) {fuel : Nat}
    (enough : 2 * source.length ≤ fuel) : skipValue fuel (source ++ rest) = .ok rest := by
  obtain ⟨outcome, reads, skipped⟩ := value.readAlone .skipped 0
  obtain ⟨value, rfl⟩ := skipped rfl
  rw [skipValue, reads rest fuel stops enough]
  rfl

/-- An element that is kept, up to the comma or the bracket behind it. -/
theorem Element.toOption_readValue {element : Element} (isValue : IsValue element.value)
    (stops : Stops rest) (depth : Nat) {fuel : Nat} (enough : 2 * element.text.length ≤ fuel) :
    (readValue fuel depth (element.text ++ rest)).toOption =
      (alone? depth element.value).map fun value => (value, element.behind.chars ++ rest) := by
  have shorter := element.length_value_le
  rw [element.text_append, readValue, readValueWith_gaps .kept fuel depth element.before.gaps]
  exact isValue.toOption_readValue (stops_gap_append element.behind stops) (by omega)

theorem Element.skipValue_append {element : Element} (isValue : IsValue element.value)
    (stops : Stops rest) {fuel : Nat} (enough : 2 * element.text.length ≤ fuel) :
    skipValue fuel (element.text ++ rest) = .ok (element.behind.chars ++ rest) := by
  have shorter := element.length_value_le
  rw [element.text_append, skipValue, readValueWith_gaps .skipped fuel 0 element.before.gaps]
  exact isValue.skipValue_append (stops_gap_append element.behind stops) (by omega)

/-- A numeral that is not too large is kept as it is. -/
theorem alone?_numeral (depth : Nat) {numeral : NumeralText}
    (kept : numeral.numeral.toBinary64?.isSome = true) :
    alone? depth numeral.text = some (.number numeral.numeral) := by
  have nonempty := (IsValue.numeral numeral).length_pos
  obtain ⟨fuel, fuel_eq⟩ : ∃ fuel, 2 * numeral.text.length = fuel + 1 :=
    ⟨2 * numeral.text.length - 1, by omega⟩
  have read := numeral.readNumeral_append .kept stops_nil
  rw [List.append_nil, if_pos (.inr kept)] at read
  rw [alone?, fuel_eq, readValue, ← List.append_nil numeral.text, readValueWith_numeralText,
    List.append_nil, read]
  rfl

theorem alone?_string (depth : Nat) (string : Quoted) :
    alone? depth string.text = string.contents?.map .text := by
  obtain ⟨fuel, fuel_eq⟩ : ∃ fuel, 2 * string.text.length = fuel + 1 :=
    ⟨2 * string.text.length - 1, by rw [Quoted.text, List.length_cons]; omega⟩
  rw [alone?, fuel_eq, readValue, ← List.append_nil string.text, readValueWith_quoted,
    List.append_nil, Quoted.contents?]
  cases readString .kept string.text <;> rfl

end Values

end ImageGallery.Json
