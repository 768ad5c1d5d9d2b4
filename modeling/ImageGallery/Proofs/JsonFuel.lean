import ImageGallery.Order.Payload
import ImageGallery.Proofs.JsonText

/-!
# Fuel of readers

A reader takes one from its fuel at each step. What it leaves of a text is shorter than the text, so
two steps for each character are enough: more fuel does not change what is read, and a reader that
is given that much never stops for want of it.
-/

namespace ImageGallery.Json

variable {α β σ : Type} {limit : Nat} {chars rest : List Char}

/-! ## What is left of a text -/

/-- Whatever was read, less than the given number of characters are left. -/
def LeavesLess (limit : Nat) (read : Reading (α × List Char)) : Prop :=
  ∀ value rest, read = .ok (value, rest) → rest.length < limit

namespace LeavesLess

theorem error (fault : Fault) : LeavesLess (α := α) limit (.error fault) := by
  rintro value rest ⟨⟩

theorem ok {value : α} (less : rest.length < limit) : LeavesLess limit (.ok (value, rest)) := by
  rintro _ _ ⟨⟩
  exact less

theorem mono {read : Reading (α × List Char)} {larger : Nat} (leaves : LeavesLess limit read)
    (le : limit ≤ larger) : LeavesLess larger read :=
  fun value rest same => Nat.lt_of_lt_of_le (leaves value rest same) le

theorem bind {read : Reading (α × List Char)} {next : α × List Char → Reading (β × List Char)}
    (leaves : LeavesLess limit read)
    (later : ∀ value rest, rest.length < limit → LeavesLess limit (next (value, rest))) :
    LeavesLess limit (read >>= next) := by
  rcases read with fault | ⟨value, rest⟩
  · exact error fault
  · exact later value rest (leaves value rest rfl)

/-- What follows a reading only matters on texts that it can leave. -/
theorem bind_congr {read : Reading (α × List Char)}
    {next other : α × List Char → Reading (β × List Char)} (leaves : LeavesLess limit read)
    (same : ∀ value rest, rest.length < limit → next (value, rest) = other (value, rest)) :
    (read >>= next) = (read >>= other) := by
  rcases read with fault | ⟨value, rest⟩
  · rfl
  · exact same value rest (leaves value rest rfl)

end LeavesLess

theorem length_skipGap_le (chars : List Char) : (skipGap chars).length ≤ chars.length :=
  (List.dropWhile_sublist _).length_le

theorem length_lt_of_skipGap {char : Char} (first : skipGap chars = char :: rest) :
    rest.length < chars.length := by
  have short := length_skipGap_le chars
  rw [first] at short
  exact short

theorem length_le_of_expect {word : List Char} (expected : expect word chars = .ok rest) :
    rest.length ≤ chars.length := by
  induction word generalizing chars with
  | nil =>
      cases expected
      exact Nat.le_refl _
  | cons wanted word ih =>
      cases chars with
      | nil => cases expected
      | cons char chars =>
          rw [expect] at expected
          split at expected
          · exact (ih expected).trans (Nat.le_succ _)
          · cases expected

theorem leavesLess_expect {word : List Char} {value : List Char → α}
    (short : chars.length < limit) :
    LeavesLess limit (expect word chars >>= fun rest => .ok (value rest, rest)) := by
  rcases expected : expect word chars with fault | rest
  · exact .error fault
  · exact .ok (Nat.lt_of_le_of_lt (length_le_of_expect expected) short)

theorem LeavesLess.prepend {char : Char} {read : Reading (List Char × List Char)}
    (leaves : LeavesLess limit read) : LeavesLess limit (prepend char read) := by
  rcases read with fault | ⟨contents, rest⟩
  · exact .error fault
  · exact .ok (leaves contents rest rfl)

theorem leavesLess_readCharacters (care : Care) (chars : List Char) :
    LeavesLess chars.length (readCharacters care chars) := by
  fun_induction readCharacters care chars
  all_goals first
    | exact .error _
    | exact .ok (Nat.lt_succ_self _)
    | rename_i ih
      simp only [List.length_cons]
      first
        | exact (ih.mono (by omega)).prepend
        | exact ih.mono (by omega)

/-! ## Strings and numerals -/

theorem leavesLess_readString (care : Care) (chars : List Char) :
    LeavesLess chars.length (readString care chars) := by
  unfold readString
  split
  · rename_i chars
    exact ((leavesLess_readCharacters care chars).mono (Nat.le_succ _)).bind
      fun contents rest less => .ok less
  · exact .error _

theorem length_of_splitDigits {digits : List Char} (split : splitDigits chars = (digits, rest)) :
    digits.length + rest.length = chars.length := by
  obtain ⟨rfl, rfl⟩ := Prod.mk.inj split
  rw [← List.length_append, List.takeWhile_append_dropWhile]

/-- What digits leave is shorter if there are any. -/
theorem length_lt_of_splitDigits {digit : Char} {digits : List Char}
    (split : splitDigits chars = (digit :: digits, rest)) : rest.length < chars.length := by
  have parts := length_of_splitDigits split
  rw [List.length_cons] at parts
  omega

theorem leavesLess_readWhole (chars : List Char) : LeavesLess chars.length (readWhole chars) := by
  rw [readWhole]
  rcases digits : splitDigits chars with ⟨_ | ⟨digit, digits⟩, rest⟩
  · exact .error _
  · split
    · exact .error _
    · exact .error _
    · exact .ok (length_lt_of_splitDigits digits)

theorem leavesLess_readFraction (chars : List Char) :
    LeavesLess (chars.length + 1) (readFraction chars) := by
  unfold readFraction
  split
  · rename_i chars
    rcases digits : splitDigits chars with ⟨_ | ⟨digit, digits⟩, rest⟩
    · exact .error _
    · refine .ok ?_
      have less := length_lt_of_splitDigits digits
      rw [List.length_cons]
      omega
  · exact .ok (Nat.lt_succ_self _)

theorem leavesLess_readPower (negative : Bool) (chars : List Char) :
    LeavesLess chars.length (readPower negative chars) := by
  rw [readPower]
  rcases digits : splitDigits chars with ⟨_ | ⟨digit, digits⟩, rest⟩
  · exact .error _
  · exact .ok (length_lt_of_splitDigits digits)

theorem leavesLess_readExponent (chars : List Char) :
    LeavesLess (chars.length + 1) (readExponent chars) := by
  unfold readExponent
  split
  · split
    · split <;> exact (leavesLess_readPower _ _).mono (by simp only [List.length_cons]; omega)
    · exact .ok (Nat.lt_succ_self _)
  · exact .ok (Nat.lt_succ_self _)

theorem leavesLess_readUnsigned (care : Care) (negative : Bool) (chars : List Char) :
    LeavesLess chars.length (readUnsigned care negative chars) := by
  refine (leavesLess_readWhole chars).bind fun whole rest less => ?_
  refine ((leavesLess_readFraction rest).mono less).bind fun fraction rest less => ?_
  refine ((leavesLess_readExponent rest).mono less).bind fun power rest less => ?_
  dsimp only
  split
  · exact .ok less
  · exact .error _

theorem leavesLess_readNumeral (care : Care) (chars : List Char) :
    LeavesLess chars.length (readNumeral care chars) := by
  unfold readNumeral
  split
  · exact (leavesLess_readUnsigned care true _).mono (Nat.le_succ _)
  · exact leavesLess_readUnsigned care false chars

/-! ## Values -/

theorem leavesLess_readSeparator (close : Char) (chars : List Char) :
    LeavesLess chars.length (readSeparator close chars) := by
  unfold readSeparator
  split
  · rename_i char rest first
    have less := length_lt_of_skipGap first
    split
    · exact .ok less
    · split
      · exact .ok less
      · exact .error _
  · exact .error _

theorem leavesLess_readKey (care : Care) (chars : List Char) :
    LeavesLess chars.length (readKey care chars) := by
  refine ((leavesLess_readString care _).mono (length_skipGap_le chars)).bind
    fun key rest less => ?_
  exact leavesLess_expect (Nat.lt_of_le_of_lt (length_skipGap_le rest) less)

section Steps

variable {care : Care} {fuel : Nat}

/-- A value leaves less if the readers of what is inside it do. -/
theorem leavesLess_readValueWith_succ
    (items : ∀ depth chars, LeavesLess chars.length (readItemsWith care fuel depth chars))
    (members : ∀ depth chars, LeavesLess chars.length (readMembersWith care fuel depth chars))
    (depth : Nat) (chars : List Char) :
    LeavesLess chars.length (readValueWith care (fuel + 1) depth chars) := by
  rw [readValueWith]
  split
  · exact leavesLess_expect (length_lt_of_skipGap ‹_›)
  · exact leavesLess_expect (length_lt_of_skipGap ‹_›)
  · exact leavesLess_expect (length_lt_of_skipGap ‹_›)
  · rename_i rest first
    have string := leavesLess_readString care (skipGap chars)
    rw [first] at string
    exact (string.mono (first ▸ length_skipGap_le chars)).bind fun contents rest less => .ok less
  · rename_i rest first
    have less := length_lt_of_skipGap first
    split
    · exact .error _
    · split
      · exact .ok ((length_lt_of_skipGap ‹_›).trans less)
      · have shorter := (length_skipGap_le rest).trans less.le
        exact ((items _ _).mono shorter).bind fun items rest less => .ok less
  · rename_i rest first
    have less := length_lt_of_skipGap first
    split
    · exact .error _
    · split
      · exact .ok ((length_lt_of_skipGap ‹_›).trans less)
      · have shorter := (length_skipGap_le rest).trans less.le
        exact ((members _ _).mono shorter).bind fun members rest less => .ok less
  · exact ((leavesLess_readNumeral care _).mono (length_skipGap_le chars)).bind
      fun numeral rest less => .ok less

theorem leavesLess_readItemsWith_succ
    (value : ∀ depth chars, LeavesLess chars.length (readValueWith care fuel depth chars))
    (items : ∀ depth chars, LeavesLess chars.length (readItemsWith care fuel depth chars))
    (depth : Nat) (chars : List Char) :
    LeavesLess chars.length (readItemsWith care (fuel + 1) depth chars) := by
  rw [readItemsWith]
  refine (value depth chars).bind fun item rest less => ?_
  refine ((leavesLess_readSeparator ']' rest).mono less.le).bind fun more rest less => ?_
  dsimp only
  split
  · exact ((items depth rest).mono less.le).bind fun items rest less => .ok less
  · exact .ok less

theorem leavesLess_readMembersWith_succ
    (value : ∀ depth chars, LeavesLess chars.length (readValueWith care fuel depth chars))
    (members : ∀ depth chars, LeavesLess chars.length (readMembersWith care fuel depth chars))
    (depth : Nat) (chars : List Char) :
    LeavesLess chars.length (readMembersWith care (fuel + 1) depth chars) := by
  rw [readMembersWith]
  refine (leavesLess_readKey care chars).bind fun key rest less => ?_
  refine ((value depth rest).mono less.le).bind fun value rest less => ?_
  refine ((leavesLess_readSeparator '}' rest).mono less.le).bind fun more rest less => ?_
  dsimp only
  split
  · exact ((members depth rest).mono less.le).bind fun members rest less => .ok less
  · exact .ok less

end Steps

/-- Each of the three readers of values leaves less than it was given. -/
theorem leavesLess_reading (care : Care) (fuel : Nat) :
    (∀ depth chars, LeavesLess chars.length (readValueWith care fuel depth chars)) ∧
      (∀ depth chars, LeavesLess chars.length (readItemsWith care fuel depth chars)) ∧
      ∀ depth chars, LeavesLess chars.length (readMembersWith care fuel depth chars) := by
  induction fuel with
  | zero =>
      refine ⟨fun depth chars => ?_, fun depth chars => ?_, fun depth chars => ?_⟩
      · rw [readValueWith]
        exact .error _
      · rw [readItemsWith]
        exact .error _
      · rw [readMembersWith]
        exact .error _
  | succ fuel ih =>
      obtain ⟨value, items, members⟩ := ih
      exact ⟨leavesLess_readValueWith_succ items members, leavesLess_readItemsWith_succ value items,
        leavesLess_readMembersWith_succ value members⟩

/-! ## Enough fuel -/

section Steps

variable {care : Care} {fuel depth : Nat}

/-- One more step makes no difference to a value if it makes none to what is inside it. -/
theorem readValueWith_succ
    (items : ∀ depth chars, 2 * chars.length + 1 ≤ fuel →
      readItemsWith care (fuel + 1) depth chars = readItemsWith care fuel depth chars)
    (members : ∀ depth chars, 2 * chars.length + 1 ≤ fuel →
      readMembersWith care (fuel + 1) depth chars = readMembersWith care fuel depth chars)
    (enough : 2 * chars.length ≤ fuel + 1) :
    readValueWith care (fuel + 1 + 1) depth chars = readValueWith care (fuel + 1) depth chars := by
  rw [readValueWith, readValueWith]
  split
  · rfl
  · rfl
  · rfl
  · rfl
  · rename_i rest first
    have less := length_lt_of_skipGap first
    have shorter := length_skipGap_le rest
    split
    · rfl
    · split
      · rfl
      · rw [items _ _ (by omega)]
  · rename_i rest first
    have less := length_lt_of_skipGap first
    have shorter := length_skipGap_le rest
    split
    · rfl
    · split
      · rfl
      · rw [members _ _ (by omega)]
  · rfl

theorem readItemsWith_succ
    (value : ∀ depth chars, 2 * chars.length ≤ fuel →
      readValueWith care (fuel + 1) depth chars = readValueWith care fuel depth chars)
    (items : ∀ depth chars, 2 * chars.length + 1 ≤ fuel →
      readItemsWith care (fuel + 1) depth chars = readItemsWith care fuel depth chars)
    (enough : 2 * chars.length + 1 ≤ fuel + 1) :
    readItemsWith care (fuel + 1 + 1) depth chars = readItemsWith care (fuel + 1) depth chars := by
  rw [readItemsWith, readItemsWith, value depth chars (by omega)]
  refine ((leavesLess_reading care fuel).1 depth chars).bind_congr fun item rest less => ?_
  refine ((leavesLess_readSeparator ']' rest).mono less.le).bind_congr fun more rest less => ?_
  dsimp only
  rw [items depth rest (by omega)]

theorem readMembersWith_succ
    (value : ∀ depth chars, 2 * chars.length ≤ fuel →
      readValueWith care (fuel + 1) depth chars = readValueWith care fuel depth chars)
    (members : ∀ depth chars, 2 * chars.length + 1 ≤ fuel →
      readMembersWith care (fuel + 1) depth chars = readMembersWith care fuel depth chars)
    (enough : 2 * chars.length + 1 ≤ fuel + 1) :
    readMembersWith care (fuel + 1 + 1) depth chars =
      readMembersWith care (fuel + 1) depth chars := by
  rw [readMembersWith, readMembersWith]
  refine (leavesLess_readKey care chars).bind_congr fun key rest less => ?_
  dsimp only
  rw [value depth rest (by omega)]
  refine (((leavesLess_reading care fuel).1 depth rest).mono less.le).bind_congr
    fun value rest less => ?_
  refine ((leavesLess_readSeparator '}' rest).mono less.le).bind_congr fun more rest less => ?_
  dsimp only
  rw [members depth rest (by omega)]

end Steps

/-- With enough fuel for the text, one more makes no difference to any of the three readers. -/
theorem reading_succ (care : Care) (fuel : Nat) :
    (∀ depth chars, 2 * chars.length ≤ fuel →
        readValueWith care (fuel + 1) depth chars = readValueWith care fuel depth chars) ∧
      (∀ depth chars, 2 * chars.length + 1 ≤ fuel →
        readItemsWith care (fuel + 1) depth chars = readItemsWith care fuel depth chars) ∧
      ∀ depth chars, 2 * chars.length + 1 ≤ fuel →
        readMembersWith care (fuel + 1) depth chars = readMembersWith care fuel depth chars := by
  induction fuel with
  | zero =>
      refine ⟨fun depth chars enough => ?_, fun depth chars enough => by omega,
        fun depth chars enough => by omega⟩
      obtain rfl : chars = [] := List.eq_nil_of_length_eq_zero (by omega)
      cases care <;> rfl
  | succ fuel ih =>
      obtain ⟨value, items, members⟩ := ih
      exact ⟨fun _ _ enough => readValueWith_succ items members enough,
        fun _ _ enough => readItemsWith_succ value items enough,
        fun _ _ enough => readMembersWith_succ value members enough⟩

/-- A reader that leaves less than it was given, and that does not depend on its fuel as long as
there are two steps for each character. -/
structure Settles (read : (fuel depth : Nat) → List Char → Reading (α × List Char)) : Prop where
  leavesLess (fuel depth : Nat) (chars : List Char) :
    LeavesLess chars.length (read fuel depth chars)
  succ {fuel depth : Nat} {chars : List Char} (enough : 2 * chars.length ≤ fuel) :
    read (fuel + 1) depth chars = read fuel depth chars

/-- What one more step does not change from some number on, no greater number changes. -/
theorem eq_of_succ_eq (outcome : Nat → α) {least fuel other : Nat}
    (succ_eq : ∀ fuel, least ≤ fuel → outcome (fuel + 1) = outcome fuel) (enough : least ≤ fuel)
    (enoughToo : least ≤ other) : outcome fuel = outcome other := by
  have settled {fuel : Nat} (enough : least ≤ fuel) : outcome fuel = outcome least := by
    induction fuel, enough using Nat.le_induction with
    | base => rfl
    | succ fuel enough ih => rw [succ_eq fuel enough, ih]
  rw [settled enough, settled enoughToo]

namespace Settles

variable {read : (fuel depth : Nat) → List Char → Reading (α × List Char)}

theorem eq_of_enough (settles : Settles read) {fuel other depth : Nat}
    (enough : 2 * chars.length ≤ fuel) (enoughToo : 2 * chars.length ≤ other) :
    read fuel depth chars = read other depth chars :=
  eq_of_succ_eq (read · depth chars) (fun _ enough => settles.succ enough) enough enoughToo

theorem map (settles : Settles read) (change : α → β) :
    Settles fun fuel depth chars =>
      read fuel depth chars >>= fun (value, rest) => .ok (change value, rest) where
  leavesLess fuel depth chars :=
    (settles.leavesLess fuel depth chars).bind fun _ _ less => .ok less
  succ enough := by rw [settles.succ enough]

end Settles

theorem settles_readValue : Settles readValue where
  leavesLess fuel := (leavesLess_reading .kept fuel).1
  succ {fuel} _ _ enough := (reading_succ .kept fuel).1 _ _ enough

/-! ## Lists and records -/

section Lists

variable {element : (fuel depth : Nat) → List Char → Reading (α × List Char)}

theorem leavesLess_readElements (settles : Settles element) (fuel depth : Nat)
    (chars : List Char) : LeavesLess chars.length (readElements element fuel depth chars) := by
  induction fuel generalizing chars with
  | zero => exact .error _
  | succ fuel ih =>
      refine (settles.leavesLess fuel depth chars).bind fun item rest less => ?_
      refine ((leavesLess_readSeparator ']' rest).mono less.le).bind fun more rest less => ?_
      dsimp only
      split
      · exact ((ih rest).mono less.le).bind fun items rest less => .ok less
      · exact .ok less

theorem readElements_succ (settles : Settles element) {fuel depth : Nat} {chars : List Char}
    (enough : 2 * chars.length + 1 ≤ fuel) :
    readElements element (fuel + 1) depth chars = readElements element fuel depth chars := by
  induction fuel generalizing chars with
  | zero => omega
  | succ fuel ih =>
      rw [readElements, readElements, settles.succ (by omega)]
      refine (settles.leavesLess fuel depth chars).bind_congr fun item rest less => ?_
      refine ((leavesLess_readSeparator ']' rest).mono less.le).bind_congr fun more rest less => ?_
      dsimp only
      rw [ih (by omega)]

theorem readElements_eq_of_enough (settles : Settles element) {fuel other depth : Nat}
    (enough : 2 * chars.length + 1 ≤ fuel) (enoughToo : 2 * chars.length + 1 ≤ other) :
    readElements element fuel depth chars = readElements element other depth chars :=
  eq_of_succ_eq (readElements element · depth chars)
    (fun _ enough => readElements_succ settles enough) enough enoughToo

theorem refusal_succ {fuel : Nat} {chars : List Char} (enough : 2 * chars.length ≤ fuel) :
    refusal (fuel + 1) chars = refusal fuel chars := by
  have shorter := length_skipGap_le chars
  unfold refusal
  split
  · rfl
  · rfl
  · rw [settles_readValue.succ (by omega)]

theorem settles_readList (settles : Settles element) : Settles (readList element) where
  leavesLess fuel depth chars := by
    unfold readList
    split
    · rename_i rest first
      have less := length_lt_of_skipGap first
      split
      · exact .error _
      · split
        · exact .ok ((length_lt_of_skipGap ‹_›).trans less)
        · exact (leavesLess_readElements settles fuel _ _).mono
            ((length_skipGap_le rest).trans less.le)
    · exact .error _
  succ {fuel depth chars} enough := by
    unfold readList
    split
    · rename_i rest first
      have less := length_lt_of_skipGap first
      have shorter := length_skipGap_le rest
      split
      · rfl
      · split
        · rfl
        · exact readElements_succ settles (by omega)
    · have shorter := length_skipGap_le chars
      rw [refusal_succ (by omega)]

end Lists

section Records

/-- A field whose value is read by a reader of this kind. -/
def Field.Settles (field : Field σ) : Prop :=
  ∀ record, Json.Settles fun fuel depth chars => field.read fuel depth record chars

variable {fields : List (Field σ)}

/-- Read the value of a member with the given key: into its field, or past it if there is none. -/
def readMember (fields : List (Field σ)) (key : String) (fuel depth : Nat) (record : σ)
    (chars : List Char) : Reading (σ × List Char) :=
  match fields.find? (·.key = key) with
  | some field => field.read fuel depth record chars
  | none => skipValue fuel chars >>= fun rest => .ok (record, rest)

/-- The members of a record are read one after the other. -/
theorem readMembers_succ_eq (fields : List (Field σ)) (fuel depth : Nat) (seen : List String)
    (record : σ) (chars : List Char) :
    readMembers fields (fuel + 1) depth seen record chars =
      readString .kept (skipGap chars) >>= fun (key, rest) =>
        if (fields.find? (·.key = key)).isSome ∧ key ∈ seen then .error .mismatch
        else
          expect [':'] (skipGap rest) >>= fun rest =>
            readMember fields key fuel depth record rest >>= fun (record, rest) =>
              readSeparator '}' rest >>= fun (more, rest) =>
                if more then readMembers fields fuel depth (key :: seen) record rest
                else .ok (record, rest) := by
  rw [readMembers]
  refine congrArg _ (funext fun read => ?_)
  obtain ⟨key, rest⟩ := read
  dsimp only
  split
  · rfl
  · refine congrArg _ (funext fun rest => ?_)
    rw [readMember]
    cases fields.find? (·.key = key) with
    | some field => rfl
    | none =>
        dsimp only
        cases skipValue fuel rest <;> rfl

theorem leavesLess_readMember (settles : ∀ field ∈ fields, field.Settles) (key : String)
    (fuel depth : Nat) (record : σ) (chars : List Char) :
    LeavesLess chars.length (readMember fields key fuel depth record chars) := by
  unfold readMember
  split
  · rename_i field found
    exact (settles field (List.mem_of_find?_eq_some found) record).leavesLess fuel depth chars
  · rcases skipped : readValueWith .skipped fuel 0 chars with fault | ⟨_, rest⟩
    · rw [skipValue, skipped]
      exact .error fault
    · rw [skipValue, skipped]
      exact .ok ((leavesLess_reading .skipped fuel).1 0 chars _ rest skipped)

theorem readMember_succ (settles : ∀ field ∈ fields, field.Settles) {key : String}
    {fuel depth : Nat} {record : σ} {chars : List Char} (enough : 2 * chars.length ≤ fuel) :
    readMember fields key (fuel + 1) depth record chars =
      readMember fields key fuel depth record chars := by
  unfold readMember
  split
  · rename_i field found
    exact (settles field (List.mem_of_find?_eq_some found) record).succ enough
  · rw [skipValue, skipValue, (reading_succ .skipped fuel).1 0 chars enough]

theorem leavesLess_readMembers (settles : ∀ field ∈ fields, field.Settles) (fuel depth : Nat)
    (seen : List String) (record : σ) (chars : List Char) :
    LeavesLess chars.length (readMembers fields fuel depth seen record chars) := by
  induction fuel generalizing seen record chars with
  | zero => exact .error _
  | succ fuel ih =>
      rw [readMembers_succ_eq]
      refine ((leavesLess_readString .kept _).mono (length_skipGap_le chars)).bind
        fun key rest less => ?_
      dsimp only
      split
      · exact .error _
      · have gap := length_skipGap_le rest
        rcases expected : expect [':'] (skipGap rest) with fault | rest
        · exact .error fault
        · have short := length_le_of_expect expected
          refine ((leavesLess_readMember settles key fuel depth record rest).mono (by omega)).bind
            fun record rest less => ?_
          refine ((leavesLess_readSeparator '}' rest).mono less.le).bind fun more rest less => ?_
          dsimp only
          split
          · exact (ih _ _ rest).mono less.le
          · exact .ok less

theorem readMembers_succ (settles : ∀ field ∈ fields, field.Settles) {fuel depth : Nat}
    {seen : List String} {record : σ} {chars : List Char}
    (enough : 2 * chars.length + 1 ≤ fuel) :
    readMembers fields (fuel + 1) depth seen record chars =
      readMembers fields fuel depth seen record chars := by
  induction fuel generalizing seen record chars with
  | zero => omega
  | succ fuel ih =>
      rw [readMembers_succ_eq, readMembers_succ_eq]
      refine ((leavesLess_readString .kept _).mono (length_skipGap_le chars)).bind_congr
        fun key rest less => ?_
      dsimp only
      split
      · rfl
      · have gap := length_skipGap_le rest
        rcases expected : expect [':'] (skipGap rest) with fault | rest
        · rfl
        · have short := length_le_of_expect expected
          have leaves := leavesLess_readMember settles key fuel depth record rest
          change readMember fields key (fuel + 1) depth record rest >>= _ =
            readMember fields key fuel depth record rest >>= _
          rw [readMember_succ settles (by omega)]
          refine leaves.bind_congr fun record rest less => ?_
          refine ((leavesLess_readSeparator '}' rest).mono less.le).bind_congr
            fun more rest less => ?_
          dsimp only
          rw [ih (by omega)]

theorem readMembers_eq_of_enough (settles : ∀ field ∈ fields, field.Settles)
    {fuel other depth : Nat} {seen : List String} {record : σ}
    (enough : 2 * chars.length + 1 ≤ fuel) (enoughToo : 2 * chars.length + 1 ≤ other) :
    readMembers fields fuel depth seen record chars =
      readMembers fields other depth seen record chars :=
  eq_of_succ_eq (readMembers fields · depth seen record chars)
    (fun _ enough => readMembers_succ settles enough) enough enoughToo

theorem leavesLess_readPositions (settles : ∀ field ∈ fields, field.Settles) (fuel depth : Nat)
    (record : σ) (chars : List Char) :
    LeavesLess chars.length (readPositions fuel depth fields record chars) := by
  induction fields generalizing record chars with
  | nil => exact .error _
  | cons field fields ih =>
      obtain ⟨here, there⟩ := List.forall_mem_cons.mp settles
      refine ((here record).leavesLess fuel depth chars).bind fun record rest less => ?_
      refine ((leavesLess_readSeparator ']' rest).mono less.le).bind fun more rest less => ?_
      dsimp only
      split
      · exact (ih there record rest).mono less.le
      · exact .ok less

theorem readPositions_succ (settles : ∀ field ∈ fields, field.Settles) {fuel depth : Nat}
    {record : σ} {chars : List Char} (enough : 2 * chars.length ≤ fuel) :
    readPositions (fuel + 1) depth fields record chars =
      readPositions fuel depth fields record chars := by
  induction fields generalizing record chars with
  | nil => rfl
  | cons field fields ih =>
      obtain ⟨here, there⟩ := List.forall_mem_cons.mp settles
      rw [readPositions, readPositions, (here record).succ enough]
      refine ((here record).leavesLess fuel depth chars).bind_congr fun record rest less => ?_
      refine ((leavesLess_readSeparator ']' rest).mono less.le).bind_congr
        fun more rest less => ?_
      dsimp only
      rw [ih there (by omega)]

theorem settles_readRecord (settles : ∀ field ∈ fields, field.Settles) (start : σ) :
    Settles (readRecord fields start) where
  leavesLess fuel depth chars := by
    unfold readRecord
    split
    · rename_i rest first
      have less := length_lt_of_skipGap first
      split
      · exact .error _
      · split
        · exact .ok ((length_lt_of_skipGap ‹_›).trans less)
        · exact (leavesLess_readMembers settles fuel _ [] start _).mono
            ((length_skipGap_le rest).trans less.le)
    · rename_i rest first
      have less := length_lt_of_skipGap first
      split
      · exact .error _
      · split
        · exact .ok ((length_lt_of_skipGap ‹_›).trans less)
        · exact (leavesLess_readPositions settles fuel _ start _).mono
            ((length_skipGap_le rest).trans less.le)
    · exact .error _
  succ {fuel depth chars} enough := by
    unfold readRecord
    split
    · rename_i rest first
      have less := length_lt_of_skipGap first
      have shorter := length_skipGap_le rest
      split
      · rfl
      · split
        · rfl
        · exact readMembers_succ settles (by omega)
    · rename_i rest first
      have less := length_lt_of_skipGap first
      have shorter := length_skipGap_le rest
      split
      · rfl
      · split
        · rfl
        · exact readPositions_succ settles (by omega)
    · have shorter := length_skipGap_le chars
      rw [refusal_succ (by omega)]

end Records

end ImageGallery.Json

namespace ImageGallery.ReorderItem

open Json (Settles)

/-! ## Reorder payloads -/

theorem settles_readLoose : Settles readLoose :=
  Json.settles_readValue.map LooseInt.ofValue?

theorem settles_fields : ∀ field ∈ fields, field.Settles := by
  intro field mem record
  rcases List.mem_cons.mp mem with rfl | mem
  · exact settles_readLoose.map fun value => { record with id := value }
  · cases List.mem_singleton.mp mem
    exact settles_readLoose.map fun value => { record with order := value }

theorem settles_readMany : Settles readMany :=
  Json.settles_readList (Json.settles_readRecord settles_fields {})

theorem settles_readRequest : Settles readRequest := by
  refine Json.settles_readRecord ?_ []
  intro field mem record
  cases List.mem_singleton.mp mem
  exact settles_readMany

end ImageGallery.ReorderItem
