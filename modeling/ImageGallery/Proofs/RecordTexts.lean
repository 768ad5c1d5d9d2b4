import Mathlib.Data.List.DropRight
import ImageGallery.Proofs.JsonFuel
import ImageGallery.Proofs.JsonGrammar

/-!
# Records as they are written

A record is read from the members of an object up to its brace, or from the elements of a list up to
its bracket, and whatever stands behind it is left over. Members of unknown keys are skipped, and
once all fields were given, the other members have no effect.
-/

namespace ImageGallery.Json

/-! ## Gaps -/

variable {σ : Type} {fields : List (Field σ)} (start : σ)

theorem skipGap_skipGap (chars : List Char) : skipGap (skipGap chars) = skipGap chars :=
  List.dropWhile_idempotent isGap chars

theorem readValueWith_skipGap (care : Care) (fuel depth : Nat) (chars : List Char) :
    readValueWith care fuel depth (skipGap chars) = readValueWith care fuel depth chars := by
  cases fuel with
  | zero => rfl
  | succ fuel => rw [readValueWith, readValueWith, skipGap_skipGap]

theorem readMembers_skipGap (fields : List (Field σ)) (fuel depth : Nat) (seen : List String)
    (record : σ) (chars : List Char) :
    readMembers fields fuel depth seen record (skipGap chars) =
      readMembers fields fuel depth seen record chars := by
  cases fuel with
  | zero => rfl
  | succ fuel => rw [readMembers_succ_eq, readMembers_succ_eq, skipGap_skipGap]

/-- A field that is read the same behind a gap. -/
def Field.SkipsGap (field : Field σ) : Prop :=
  ∀ fuel depth record chars,
    field.read fuel depth record (skipGap chars) = field.read fuel depth record chars

theorem readPositions_skipGap (skips : ∀ field ∈ fields, field.SkipsGap) (fuel depth : Nat)
    (record : σ) (chars : List Char) :
    readPositions fuel depth fields record (skipGap chars) =
      readPositions fuel depth fields record chars := by
  cases fields with
  | nil => rfl
  | cons field fields =>
      rw [readPositions, readPositions, skips field List.mem_cons_self]

theorem readRecord_gaps (fields : List (Field σ)) (fuel depth : Nat) (gap : Gap)
    (chars : List Char) :
    readRecord fields start fuel depth (gap.chars ++ chars) =
      readRecord fields start fuel depth chars := by
  rw [readRecord, readRecord, skipGap_append gap.gaps]

/-! ## Objects -/

theorem readRecord_brace_eq (fields : List (Field σ)) (fuel depth : Nat) (chars : List Char) :
    readRecord fields start fuel depth ('{' :: chars) =
      match depth with
      | 0 => .error .malformed
      | depth + 1 =>
        match skipGap chars with
        | '}' :: rest => .ok (start, rest)
        | rest => readMembers fields fuel depth [] start rest := by
  rw [readRecord, skipGap_cons (by decide)]
  rfl

/-- Behind its brace, an object is read member by member. -/
theorem readRecord_members (fields : List (Field σ)) (fuel depth : Nat) {chars : List Char}
    (opens : ∀ tail, skipGap chars ≠ '}' :: tail) :
    readRecord fields start fuel (depth + 1) ('{' :: chars) =
      readMembers fields fuel depth [] start chars := by
  rw [readRecord_brace_eq, ← readMembers_skipGap]
  dsimp only
  split
  · exact absurd ‹_› (opens _)
  · rfl

theorem Member.skipGap_text_append (member : Member) (rest : List Char) :
    skipGap (member.text ++ rest) =
      member.key.text ++ (member.behindKey.chars ++ ':' :: (member.element.text ++ rest)) := by
  rw [member.text_append, skipGap_append member.before.gaps, member.key.skipGap_text]

/-- A record that is written as an object. -/
theorem readRecord_object (fields : List (Field σ)) (fuel depth : Nat) (gap : Gap)
    (members : List Member) (rest : List Char) :
    readRecord fields start fuel depth (objectText gap members ++ rest) =
      match depth with
      | 0 => .error .malformed
      | depth + 1 =>
        match members with
        | [] => .ok (start, rest)
        | member :: members =>
          readMembers fields fuel depth [] start
            (member.text ++ (further '}' (members.map Member.text) ++ rest)) := by
  rw [objectText, List.cons_append]
  cases depth with
  | zero => rw [readRecord_brace_eq]
  | succ depth =>
      cases members with
      | nil =>
          rw [readRecord_brace_eq, List.map_nil, enclosed, List.append_assoc,
            skipGap_append gap.gaps, List.singleton_append, skipGap_cons (by decide)]
          rfl
      | cons member members =>
          rw [List.map_cons, enclosed, List.append_assoc]
          refine readRecord_members start fields fuel depth fun tail closing => ?_
          rw [member.skipGap_text_append, Quoted.text] at closing
          cases closing

/-! ## Lists -/

theorem readRecord_bracket_eq (fields : List (Field σ)) (fuel depth : Nat) (chars : List Char) :
    readRecord fields start fuel depth ('[' :: chars) =
      match depth with
      | 0 => .error .malformed
      | depth + 1 =>
        match skipGap chars with
        | ']' :: rest => .ok (start, rest)
        | rest => readPositions fuel depth fields start rest := by
  rw [readRecord, skipGap_cons (by decide)]
  rfl

/-- Behind its bracket, a list is read field by field. -/
theorem readRecord_positions (skips : ∀ field ∈ fields, field.SkipsGap) (fuel depth : Nat)
    {chars : List Char} (opens : ∀ tail, skipGap chars ≠ ']' :: tail) :
    readRecord fields start fuel (depth + 1) ('[' :: chars) =
      readPositions fuel depth fields start chars := by
  rw [readRecord_bracket_eq, ← readPositions_skipGap skips]
  dsimp only
  split
  · exact absurd ‹_› (opens _)
  · rfl

/-- No value starts with a closing bracket. -/
theorem IsValue.skipGap_ne_bracket {source : List Char} (isValue : IsValue source)
    (rest tail : List Char) : skipGap (source ++ rest) ≠ ']' :: tail := by
  obtain ⟨first, others, rfl, opening⟩ := isValue.exists_first
  rw [List.cons_append, skipGap_cons opening.noGap]
  exact fun closing => opening.notClosing.1 (List.cons_eq_cons.mp closing).1

/-- A record that is written as a list. -/
theorem readRecord_list (skips : ∀ field ∈ fields, field.SkipsGap) (fuel depth : Nat) (gap : Gap)
    {elements : List Element} (inner : ∀ element ∈ elements, IsValue element.value)
    (rest : List Char) :
    readRecord fields start fuel depth (listText gap elements ++ rest) =
      match depth with
      | 0 => .error .malformed
      | depth + 1 =>
        match elements with
        | [] => .ok (start, rest)
        | element :: elements =>
          readPositions fuel depth fields start
            (element.text ++ (further ']' (elements.map Element.text) ++ rest)) := by
  rw [listText, List.cons_append]
  cases depth with
  | zero => rw [readRecord_bracket_eq]
  | succ depth =>
      cases elements with
      | nil =>
          rw [readRecord_bracket_eq, List.map_nil, enclosed, List.append_assoc,
            skipGap_append gap.gaps, List.singleton_append, skipGap_cons (by decide)]
          rfl
      | cons element elements =>
          rw [List.map_cons, enclosed, List.append_assoc]
          refine readRecord_positions start skips fuel depth fun tail => ?_
          rw [element.text_append, skipGap_append element.before.gaps]
          exact (inner element List.mem_cons_self).skipGap_ne_bracket _ tail

/-! ## Scalars -/

/-- A value that is neither an object nor a list is no record. -/
theorem readRecord_scalar (fields : List (Field σ)) {source : List Char}
    (isValue : IsValue source)
    (scalar : ∀ tail, source ≠ '{' :: tail ∧ source ≠ '[' :: tail) (fuel depth : Nat)
    (rest : List Char) :
    ∃ fault, readRecord fields start fuel depth (source ++ rest) = .error fault := by
  obtain ⟨first, others, rfl, opening⟩ := isValue.exists_first
  rw [readRecord, List.cons_append, skipGap_cons opening.noGap]
  split
  · rename_i brace
    cases (List.cons_eq_cons.mp brace).1
    exact absurd rfl (scalar others).1
  · rename_i bracket
    cases (List.cons_eq_cons.mp bracket).1
    exact absurd rfl (scalar others).2
  · exact ⟨_, rfl⟩

/-! ## Members without effect -/

/-- Once all fields were given, the record is not changed anymore. -/
theorem exists_readMembers_of_seen {fields : List (Field σ)} (fuel depth : Nat)
    {seen : List String} (given : ∀ field ∈ fields, field.key ∈ seen) (chars : List Char) :
    ∃ outcome : Reading (List Char), ∀ record,
      readMembers fields fuel depth seen record chars = outcome.map fun rest => (record, rest) := by
  induction fuel generalizing seen chars with
  | zero => exact ⟨.error .malformed, fun _ => rfl⟩
  | succ fuel ih =>
      simp only [readMembers_succ_eq]
      rcases readString .kept (skipGap chars) with fault | ⟨key, rest⟩
      · exact ⟨.error fault, fun _ => rfl⟩
      rcases found : fields.find? (·.key = key) with _ | field
      · simp only [bind, Except.bind, found, readMember, Option.isSome_none, Bool.false_eq_true,
          false_and, if_false]
        rcases expect [':'] (skipGap rest) with fault | rest
        · exact ⟨.error fault, fun _ => rfl⟩
        dsimp only
        rcases skipValue fuel rest with fault | rest
        · exact ⟨.error fault, fun _ => rfl⟩
        dsimp only
        rcases readSeparator '}' rest with fault | ⟨more, rest⟩
        · exact ⟨.error fault, fun _ => rfl⟩
        cases more with
        | false => exact ⟨.ok rest, fun _ => rfl⟩
        | true => exact ih (fun field mem => List.mem_cons_of_mem key (given field mem)) rest
      · have named : field.key = key := by simpa using List.find?_some found
        refine ⟨.error .mismatch, fun record => if_pos ⟨?_, ?_⟩⟩
        · rw [found]
          rfl
        · rw [← named]
          exact given field (List.mem_of_find?_eq_some found)

/-- A member whose key is refused is refused. -/
theorem readMembers_refused (fields : List (Field σ)) {member : Member}
    (refused : member.key.contents? = none) (fuel depth : Nat) (seen : List String) (record : σ)
    (text : List Char) :
    (readMembers fields (fuel + 1) depth seen record (member.text ++ text)).toOption = none := by
  obtain ⟨fault, read⟩ := Quoted.readString_of_refused refused
    (member.behindKey.chars ++ ':' :: (member.element.text ++ text))
  rw [readMembers_succ_eq, member.skipGap_text_append, read]
  rfl

/-- Behind its key, a member is read unless its field was given, and then those behind it. -/
theorem readMembers_key (fields : List (Field σ)) (before behindKey : Gap) {key : Quoted}
    {name : String} (contents : key.contents? = some name) (fuel depth : Nat) (seen : List String)
    (record : σ) (text : List Char) :
    readMembers fields (fuel + 1) depth seen record
        (before.chars ++ (key.text ++ (behindKey.chars ++ ':' :: text))) =
      if (fields.find? (·.key = name)).isSome ∧ name ∈ seen then .error .mismatch
      else
        readMember fields name fuel depth record text >>= fun read =>
          readSeparator '}' read.2 >>= fun separator =>
            if separator.1 then
              readMembers fields fuel depth (name :: seen) read.1 separator.2
            else .ok (read.1, separator.2) := by
  rw [readMembers_succ_eq, skipGap_append before.gaps, key.skipGap_text,
    Quoted.readString_of_contents contents]
  simp only [bind, Except.bind, skipGap_append behindKey.gaps]
  rw [skipGap_cons (by decide), expect, if_pos rfl, expect]

/-- A member of an unknown key is skipped. -/
theorem readMembers_unknown {fields : List (Field σ)} {member : Member} {key : String}
    (contents : member.key.contents? = some key) (unknown : fields.find? (·.key = key) = none)
    (isValue : IsValue member.element.value) {fuel : Nat} (depth : Nat) (seen : List String)
    (record : σ) {text : List Char} (stops : Stops text)
    (enough : 2 * member.text.length ≤ fuel) :
    readMembers fields (fuel + 1) depth seen record (member.text ++ text) =
      readSeparator '}' (member.element.behind.chars ++ text) >>= fun separator =>
        if separator.1 then readMembers fields fuel depth (key :: seen) record separator.2
        else .ok (record, separator.2) := by
  have shorter := member.length_text
  rw [member.text_append, readMembers_key fields _ _ contents, readMember, unknown,
    if_neg fun known => Bool.false_ne_true known.1]
  dsimp only
  rw [Element.skipValue_append isValue stops (by omega)]
  rfl

/-- A member of a field that was not given yet is read into it. -/
theorem readMembers_field {fields : List (Field σ)} {member : Member} (field : Field σ)
    (contents : member.key.contents? = some field.key)
    (known : fields.find? (·.key = field.key) = some field) (fuel depth : Nat)
    {seen : List String} (fresh : field.key ∉ seen) (record : σ) (text : List Char) :
    readMembers fields (fuel + 1) depth seen record (member.text ++ text) =
      field.read fuel depth record (member.element.text ++ text) >>= fun read =>
        readSeparator '}' read.2 >>= fun separator =>
          if separator.1 then
            readMembers fields fuel depth (field.key :: seen) read.1 separator.2
          else .ok (read.1, separator.2) := by
  rw [member.text_append, readMembers_key fields _ _ contents, readMember, known,
    if_neg fun given => fresh given.2]

/-- A field must not be given again. -/
theorem readMembers_again {fields : List (Field σ)} {member : Member} (field : Field σ)
    (contents : member.key.contents? = some field.key)
    (known : fields.find? (·.key = field.key) = some field) (fuel depth : Nat)
    {seen : List String} (again : field.key ∈ seen) (record : σ) (text : List Char) :
    readMembers fields (fuel + 1) depth seen record (member.text ++ text) = .error .mismatch := by
  rw [member.text_append, readMembers_key fields _ _ contents, known, if_pos ⟨rfl, again⟩]

end ImageGallery.Json
