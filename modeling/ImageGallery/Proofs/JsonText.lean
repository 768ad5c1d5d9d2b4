import Mathlib.Data.Nat.Log
import Mathlib.Tactic.Linarith
import ImageGallery.Json.Printer
import ImageGallery.Json.Reader
import ImageGallery.Proofs.StorageKey

/-!
# Printed values read back

Reading what was printed gives the value that was printed, on one line or on indented lines. The
numbers have to be integers that keep all their digits, and there may be no more levels than a
reader opens. Texts are arbitrary: quotes, backslashes and control characters are escaped, and an
escape reads back as the character that it stands for.
-/

namespace ImageGallery.Number.Binary64

theorem tenTo?_zero : tenTo? 0 = some ⟨false, 4503599627370496, -52⟩ := by
  decide +kernel

theorem isSome_nearest? (negative : Bool) {numerator denominator : Nat}
    (small : numerator.log2 < 1023) : (nearest? negative numerator denominator).isSome = true := by
  unfold nearest?
  split
  · rfl
  · have bound : exponentOf numerator denominator < 971 := by
      unfold exponentOf leastExponent
      dsimp only
      split <;> omega
    rw [if_pos (.inl bound)]
    rfl

theorem roundHalfEven_le (numerator denominator : Nat) :
    roundHalfEven numerator denominator ≤ numerator + 1 := by
  have quotient := Nat.div_le_self numerator denominator
  unfold roundHalfEven
  dsimp only
  split
  · omega
  · split <;> omega

/-- The binary number of a natural number of 64 bits. -/
theorem nearest?_of_small (negative : Bool) {digits : Nat} (small : digits < 2 ^ 64) :
    ∃ number, nearest? negative digits 1 = some number ∧ number.mantissa ≤ 2 ^ 117 ∧
      number.exponent ≤ 11 := by
  have sized : digits.log2 < 64 := by
    rcases Nat.eq_zero_or_pos digits with rfl | positive
    · decide
    · exact (Nat.log2_lt (by omega)).mpr small
  unfold nearest?
  split
  · exact ⟨_, rfl, Nat.zero_le _, by simp⟩
  · have exponent : -52 ≤ exponentOf digits 1 ∧ exponentOf digits 1 ≤ 11 := by
      unfold exponentOf scale leastExponent
      have one : Nat.log2 1 = 0 := by decide
      have reached : 2 ^ digits.log2 ≤ digits := Nat.log2_self_le (by omega)
      simp [one, reached]
      omega
    refine ⟨_, if_pos (.inl (by omega)), ?_, exponent.2⟩
    refine (roundHalfEven_le _ _).trans ?_
    unfold scale
    split
    · simp only
      omega
    · have factor : Nat.pow 2 (-exponentOf digits 1).toNat ≤ 2 ^ 52 :=
        Nat.pow_le_pow_right (by decide) (by omega)
      have product := Nat.mul_le_mul small.le factor
      simp only
      omega

/-- Natural numbers of 64 bits are in range. -/
theorem isSome_ofScientific?_zero (negative : Bool) {digits : Nat} (small : digits < 2 ^ 64) :
    (ofScientific? negative digits 0).isSome = true := by
  obtain ⟨start, started, mantissa, exponent⟩ := nearest?_of_small negative small
  unfold ofScientific?
  rw [started]
  by_cases zero : digits = 0
  · simp [zero]
  · have product : (start.mul? ⟨false, 4503599627370496, -52⟩).isSome = true := by
      unfold mul? scale
      have positive : 0 ≤ -(start.exponent + -52) := by omega
      simp only [positive, if_true]
      apply isSome_nearest?
      have bound : start.mantissa * 4503599627370496 < 2 ^ 170 := by
        have larger : (2 : Nat) ^ 117 * 4503599627370496 < 2 ^ 170 := by decide
        exact Nat.lt_of_le_of_lt (Nat.mul_le_mul_right _ mantissa) larger
      rcases Nat.eq_zero_or_pos (start.mantissa * 4503599627370496) with none | some
      · rw [none]
        decide
      · exact ((Nat.log2_lt (by omega)).mpr bound).trans (by decide)
    simpa [zero, tenTo?_zero, greatestPower] using product

end ImageGallery.Number.Binary64

namespace ImageGallery.Json

/-! ## Strings -/

/-- A character is escaped by a letter or by its code, or it stands for itself. -/
theorem escape_cases (char : Char) :
    (∃ letter, escape char = ['\\', letter] ∧ shortEscape? letter = some char) ∨
      (∃ a b c d, escape char = ['\\', 'u', a, b, c, d] ∧
        codeUnit? a b c d = some char.toNat ∧ char.toNat < 0x20) ∨
      (escape char = [char] ∧ char ≠ '"' ∧ char ≠ '\\' ∧ 0x20 ≤ char.toNat) := by
  unfold escape
  split
  · rename_i letter lettered
    refine .inl ⟨letter, rfl, ?_⟩
    unfold escapeLetter? at lettered
    split at lettered <;> first | (cases lettered; decide) | cases lettered
  · rename_i unlettered
    split
    · rename_i control
      have digits : ∀ code : Fin 32, Text.hexText 4 code.val =
          ['0', '0', Text.hexDigit (code.val / 16), Text.hexDigit (code.val % 16)] := by
        decide
      have unit : ∀ code : Fin 32,
          codeUnit? '0' '0' (Text.hexDigit (code.val / 16)) (Text.hexDigit (code.val % 16)) =
            some code.val := by
        decide
      rw [digits ⟨char.toNat, control⟩]
      exact .inr (.inl ⟨_, _, _, _, rfl, unit ⟨char.toNat, control⟩, control⟩)
    · rename_i printable
      refine .inr (.inr ⟨rfl, ?_, ?_, Nat.not_lt.mp printable⟩) <;>
      · rintro rfl
        exact absurd unlettered (by decide)

theorem readCharacters_escape (char : Char) (rest : List Char) :
    readCharacters .kept (escape char ++ rest) = prepend char (readCharacters .kept rest) := by
  obtain ⟨letter, escaped, back⟩ | ⟨a, b, c, d, escaped, unit, control⟩ |
    ⟨itself, quote, backslash, printable⟩ := escape_cases char
  · rw [escaped, List.cons_append, List.cons_append, List.nil_append, readCharacters.eq_4, back]
    rintro _ _ _ _ _ rfl
    cases back
  · have small : isLeading char.toNat = false ∧ isTrailing char.toNat = false := by
      simp only [isLeading, isTrailing, Bool.and_eq_false_iff, decide_eq_false_iff_not]
      omega
    rw [escaped]
    simp only [List.cons_append, List.nil_append]
    rw [readCharacters.eq_3, unit]
    simp [small, Char.ofNat_toNat]
  · rw [itself, List.cons_append, List.nil_append, readCharacters.eq_5]
    · rw [if_neg]
      rintro (escape | control)
      · exact backslash escape
      · omega
    · exact quote
    · intro _ _ _ _ _ escape
      exact absurd escape backslash
    · intro _ _ escape
      exact absurd escape backslash

theorem readCharacters_flatMap_escape (chars rest : List Char) :
    readCharacters .kept (chars.flatMap escape ++ '"' :: rest) = .ok (chars, rest) := by
  induction chars with
  | nil => exact readCharacters.eq_2 _ _
  | cons char chars ih =>
      rw [List.flatMap_cons, List.append_assoc, readCharacters_escape, ih]
      rfl

theorem printString_append (contents : String) (rest : List Char) :
    printString contents ++ rest = '"' :: (contents.toList.flatMap escape ++ '"' :: rest) := by
  simp [printString]

theorem readString_printString (contents : String) (rest : List Char) :
    readString .kept (printString contents ++ rest) = .ok (contents, rest) := by
  rw [printString_append, readString, readCharacters_flatMap_escape]
  simp [bind, Except.bind, pure, Except.pure]

/-! ## Numerals -/

/-- The text does not go on with a numeral that was read up to it. -/
def Stops (rest : List Char) : Prop :=
  ∀ char tail, rest = char :: tail →
    char.isDigit = false ∧ char ≠ '.' ∧ char ≠ 'e' ∧ char ≠ 'E'

theorem stops_nil : Stops [] := by
  intro char tail impossible
  cases impossible

theorem stops_cons {char : Char} (tail : List Char)
    (plain : char.isDigit = false ∧ char ≠ '.' ∧ char ≠ 'e' ∧ char ≠ 'E') :
    Stops (char :: tail) := by
  rintro first rest ⟨⟩
  exact plain

/-- Digits are split from a text that does not go on with another one. -/
theorem splitDigits_append {digits rest : List Char} (all : ∀ char ∈ digits, char.isDigit = true)
    (ends : ∀ char tail, rest = char :: tail → char.isDigit = false) :
    splitDigits (digits ++ rest) = (digits, rest) := by
  have after : rest.takeWhile Char.isDigit = [] ∧ rest.dropWhile Char.isDigit = rest := by
    cases rest with
    | nil => exact ⟨rfl, rfl⟩
    | cons char tail =>
        have other := ends char tail rfl
        simp [other]
  rw [splitDigits, List.takeWhile_append_of_pos all, List.dropWhile_append_of_pos all, after.1,
    after.2, List.append_nil]

/-- A number that is not zero does not start with a zero. -/
theorem head?_naturalText_ne_zero {value : Nat} (positive : 0 < value) :
    (Text.naturalText value).head? ≠ some '0' := by
  induction value using Nat.strongRecOn with
  | _ value ih =>
      rw [Text.naturalText, Nat.toDigits_eq_if (by decide)]
      split
      · rename_i small
        have digits : ∀ digit : Fin 10, 0 < digit.val → [digit.val.digitChar].head? ≠ some '0' := by
          decide
        exact digits ⟨value, small⟩ positive
      · have shorter := ih (value / 10) (by omega) (by omega)
        obtain ⟨digit, digits, shape⟩ := List.exists_cons_of_ne_nil
          (Nat.toDigits_ne_nil (n := value / 10) (b := 10))
        rw [Text.naturalText, shape] at shorter
        rw [shape]
        exact shorter

/-- No zero stands in front of the digits of a natural number. -/
theorem naturalText_ne_padded (value : Nat) (digit : Char) (digits : List Char) :
    Text.naturalText value ≠ '0' :: digit :: digits := by
  intro padded
  rcases Nat.eq_zero_or_pos value with rfl | positive
  · cases padded
  · exact absurd (by rw [padded]; rfl) (head?_naturalText_ne_zero positive)

theorem readWhole_naturalText (value : Nat) {rest : List Char} (stops : Stops rest) :
    readWhole (Text.naturalText value ++ rest) = .ok (Text.naturalText value, rest) := by
  have all : ∀ char ∈ Text.naturalText value, char.isDigit = true := fun _ mem =>
    Text.isDigit_of_mem_naturalText mem
  unfold readWhole
  rw [splitDigits_append all fun char tail same => (stops char tail same).1]
  split
  · rename_i empty
    exact absurd (congrArg Prod.fst empty) Nat.toDigits_ne_nil
  · rename_i leading
    exact absurd (congrArg Prod.fst leading) (naturalText_ne_padded value _ _)
  · rfl

theorem start_le_appendDigits (start : Nat) (digits : List Char) :
    start ≤ Text.appendDigits start digits := by
  induction digits generalizing start with
  | nil => exact Nat.le_refl start
  | cons digit digits ih =>
      rw [Text.appendDigits_cons]
      have later := ih (10 * start + Text.digitValue digit)
      omega

/-- Digits find room if all of them together do. -/
theorem appendWithRoom_eq {start : Nat} {digits : List Char}
    (small : Text.appendDigits start digits < Numeral.room) :
    Numeral.appendWithRoom start digits = (Text.appendDigits start digits, []) := by
  induction digits generalizing start with
  | nil => rfl
  | cons digit digits ih =>
      rw [Text.appendDigits_cons] at small ⊢
      have next := start_le_appendDigits (10 * start + Text.digitValue digit) digits
      rw [Numeral.appendWithRoom, if_pos (Nat.lt_of_le_of_lt next small), ih small]

theorem ofParts_naturalText (negative : Bool) {value : Nat} (small : value < Numeral.room) :
    Numeral.ofParts negative (Text.naturalText value) [] none = .integer negative value := by
  have read : Text.appendDigits 0 (Text.naturalText value) = value :=
    Nat.ofDigitChars_ten_toDigits
  rw [Numeral.ofParts, appendWithRoom_eq (read.symm ▸ small), read]
  simp

theorem Stops.readFraction_eq {rest : List Char} (stops : Stops rest) :
    readFraction rest = .ok ([], rest) := by
  unfold readFraction
  split
  · exact absurd rfl (stops _ _ rfl).2.1
  · rfl

theorem Stops.readExponent_eq {rest : List Char} (stops : Stops rest) :
    readExponent rest = .ok (none, rest) := by
  unfold readExponent
  split
  · rename_i marker tail
    obtain ⟨_, _, small, large⟩ := stops marker tail rfl
    rw [if_neg (by simp [small, large])]
  · rfl

theorem readUnsigned_naturalText (negative : Bool) {value : Nat} (small : value < Numeral.room)
    {rest : List Char} (stops : Stops rest) :
    readUnsigned .kept negative (Text.naturalText value ++ rest) =
      .ok (.integer negative value, rest) := by
  have inRange : (Numeral.integer negative value).toBinary64?.isSome = true :=
    Number.Binary64.isSome_ofScientific?_zero negative small
  rw [readUnsigned, readWhole_naturalText value stops]
  simp only [bind, Except.bind]
  rw [stops.readFraction_eq]
  simp only [stops.readExponent_eq, ofParts_naturalText negative small, inRange, or_true, if_true]
  rfl

theorem readNumeral_printNumeral (negative : Bool) {value : Nat} (small : value < Numeral.room)
    {rest : List Char} (stops : Stops rest) :
    readNumeral .kept (printNumeral (.integer negative value) ++ rest) =
      .ok (.integer negative value, rest) := by
  cases negative with
  | true => exact readUnsigned_naturalText true small stops
  | false =>
      have unsigned : printNumeral (.integer false value) ++ rest =
          Text.naturalText value ++ rest := rfl
      rw [unsigned, readNumeral]
      · exact readUnsigned_naturalText false small stops
      · intro chars signed
        obtain ⟨digit, digits, shape⟩ := List.exists_cons_of_ne_nil
          (Nat.toDigits_ne_nil (n := value) (b := 10))
        have isDigit : digit.isDigit = true :=
          Text.isDigit_of_mem_naturalText (shape ▸ List.mem_cons_self)
        rw [Text.naturalText, shape, List.cons_append, List.cons_eq_cons] at signed
        rw [signed.1] at isDigit
        exact absurd isDigit (by decide)

/-! ## Values -/

/-- The value has at most the given number of levels, and its numbers are integers that keep all
their digits. -/
inductive Value.Printable : (depth : Nat) → Value → Prop where
  | null (depth : Nat) : Printable depth .null
  | boolean (depth : Nat) (value : Bool) : Printable depth (.boolean value)
  | text (depth : Nat) (contents : String) : Printable depth (.text contents)
  | number {depth : Nat} {negative : Bool} {digits : Nat} (small : digits < Numeral.room) :
      Printable depth (.number (.integer negative digits))
  | list {depth : Nat} {items : List Value} (inner : ∀ item ∈ items, Printable depth item) :
      Printable (depth + 1) (.list items)
  | object {depth : Nat} {members : List (String × Value)}
      (inner : ∀ member ∈ members, Printable depth member.2) :
      Printable (depth + 1) (.object members)

/-- An object without members. -/
theorem Value.Printable.nil {depth : Nat} : Printable (depth + 1) (.object []) :=
  .object (by simp)

/-- An object with one more member. -/
theorem Value.Printable.cons {depth : Nat} {key : String} {value : Value}
    {members : List (String × Value)} (first : Printable depth value)
    (others : Printable (depth + 1) (.object members)) :
    Printable (depth + 1) (.object ((key, value) :: members)) := by
  cases others with
  | object inner => exact .object (List.forall_mem_cons.mpr ⟨first, inner⟩)

/-- Characters that may stand between tokens. -/
def Gaps (chars : List Char) : Prop :=
  ∀ char ∈ chars, isGap char = true

theorem gaps_lead (layout : Layout) : Gaps layout.lead := by
  cases layout with
  | compact => simp [Gaps, Layout.lead]
  | indented level =>
      intro char mem
      rcases List.mem_cons.mp mem with rfl | blank
      · rfl
      · rw [List.eq_of_mem_replicate blank]
        rfl

theorem skipGap_append {gaps : List Char} (all : Gaps gaps) (chars : List Char) :
    skipGap (gaps ++ chars) = skipGap chars :=
  List.dropWhile_append_of_pos all

theorem skipGap_cons {char : Char} (other : isGap char = false) (chars : List Char) :
    skipGap (char :: chars) = char :: chars := by
  simp [skipGap, other]

theorem readValueWith_gaps (care : Care) (fuel depth : Nat) {gaps : List Char} (all : Gaps gaps)
    (chars : List Char) :
    readValueWith care fuel depth (gaps ++ chars) = readValueWith care fuel depth chars := by
  cases fuel with
  | zero => rfl
  | succ fuel => rw [readValueWith, readValueWith, skipGap_append all]

theorem readItemsWith_gaps (care : Care) (fuel depth : Nat) {gaps : List Char} (all : Gaps gaps)
    (chars : List Char) :
    readItemsWith care fuel depth (gaps ++ chars) = readItemsWith care fuel depth chars := by
  cases fuel with
  | zero => rfl
  | succ fuel => rw [readItemsWith, readItemsWith, readValueWith_gaps care fuel depth all]

/-- No numeral starts with a gap. -/
theorem noGap_of_numeral {char : Char} (first : char.isDigit = true ∨ char = '-') :
    isGap char = false := by
  refine Bool.eq_false_iff.mpr fun gap => ?_
  simp only [isGap, Bool.or_eq_true, decide_eq_true_eq] at gap
  rcases gap with ((rfl | rfl) | rfl) | rfl <;> exact absurd first (by decide)

/-- What a printed value starts with. -/
structure Opening (char : Char) : Prop where
  noGap : isGap char = false
  notClosing : char ≠ ']' ∧ char ≠ '}'

theorem Value.Printable.exists_opening {depth : Nat} {value : Value}
    (printable : value.Printable depth) (layout : Layout) :
    ∃ char tail, print layout value = char :: tail ∧ Opening char := by
  cases printable with
  | null => exact ⟨_, _, rfl, by decide, by decide⟩
  | boolean _ flag => cases flag <;> exact ⟨_, _, rfl, by decide, by decide⟩
  | text => exact ⟨_, _, rfl, by decide, by decide⟩
  | @number _ negative digits _ =>
      cases negative with
      | true => exact ⟨_, _, rfl, by decide, by decide⟩
      | false =>
          obtain ⟨digit, tail, shape⟩ := List.exists_cons_of_ne_nil
            (Nat.toDigits_ne_nil (n := digits) (b := 10))
          have isDigit : digit.isDigit = true :=
            Text.isDigit_of_mem_naturalText (shape ▸ List.mem_cons_self)
          refine ⟨digit, tail, shape, noGap_of_numeral (.inl isDigit), ?_⟩
          constructor <;>
          · rintro rfl
            exact absurd isDigit (by decide)
  | @list depth items inner =>
      cases items <;> exact ⟨_, _, rfl, by decide, by decide⟩
  | @object depth members inner =>
      cases members <;> exact ⟨_, _, rfl, by decide, by decide⟩

/-- Reading a value back, whatever stands after it. Every two steps take a character. -/
def ReadsBack (depth : Nat) (value : Value) : Prop :=
  ∀ (layout : Layout) (rest : List Char) (fuel : Nat), Stops rest →
    2 * (print layout value).length ≤ fuel →
      readValueWith .kept fuel depth (print layout value ++ rest) = .ok (value, rest)

theorem length_print_pos {depth : Nat} {value : Value} (printable : value.Printable depth)
    (layout : Layout) : 0 < (print layout value).length := by
  obtain ⟨char, tail, shape, -⟩ := printable.exists_opening layout
  rw [shape, List.length_cons]
  exact Nat.succ_pos _

/-- A value that starts with a digit or a sign is a numeral. -/
theorem readValueWith_numeral (care : Care) (fuel depth : Nat) {char : Char} (tail : List Char)
    (first : char.isDigit = true ∨ char = '-') :
    readValueWith care (fuel + 1) depth (char :: tail) =
      (readNumeral care (char :: tail)).map fun read => (.number read.1, read.2) := by
  rw [readValueWith, skipGap_cons (noGap_of_numeral first)]
  split
  all_goals try
    rename_i start
    rw [(List.cons_eq_cons.mp start).1] at first
    exact absurd first (by decide)
  cases readNumeral care (char :: tail) <;> rfl

theorem readsBack_number {depth : Nat} {negative : Bool} {digits : Nat}
    (small : digits < Numeral.room) :
    ReadsBack depth (.number (.integer negative digits)) := by
  intro layout rest fuel stops enough
  have printable : Value.Printable depth (.number (.integer negative digits)) := .number small
  have positive := length_print_pos printable layout
  obtain ⟨fuel, rfl⟩ : ∃ less, fuel = less + 1 := ⟨fuel - 1, by omega⟩
  obtain ⟨char, tail, shape, opening⟩ := printable.exists_opening layout
  have read := readNumeral_printNumeral negative small stops
  have text : print layout (.number (.integer negative digits)) =
      printNumeral (.integer negative digits) := rfl
  have numeral : char.isDigit = true ∨ char = '-' := by
    cases negative with
    | true =>
        have first := congrArg List.head? (text.symm.trans shape)
        exact .inr (Option.some.inj first).symm
    | false =>
        have same : Text.naturalText digits = char :: tail := text.symm.trans shape
        exact .inl (Text.isDigit_of_mem_naturalText (same ▸ List.mem_cons_self))
  rw [← text, shape, List.cons_append] at read
  rw [shape, List.cons_append, readValueWith_numeral .kept fuel depth _ numeral, read]
  rfl

/-- A text that goes on with a comma, or with a closing bracket after gaps, does not go on with a
numeral. -/
theorem stops_comma (rest : List Char) : Stops (',' :: rest) :=
  stops_cons rest (by decide)

theorem stops_lead (layout : Layout) {close : Char} (rest : List Char)
    (closing : close = ']' ∨ close = '}') : Stops (layout.lead ++ close :: rest) := by
  cases layout with
  | compact => rcases closing with rfl | rfl <;> exact stops_cons rest (by decide)
  | indented level => exact stops_cons _ (by decide)

theorem readSeparator_comma {close : Char} (other : close ≠ ',') (rest : List Char) :
    readSeparator close (',' :: rest) = .ok (true, rest) := by
  rw [readSeparator, skipGap_cons (by decide)]
  dsimp only
  rw [if_neg other.symm, if_pos rfl]

theorem readSeparator_lead (layout : Layout) {close : Char} (rest : List Char)
    (closing : close = ']' ∨ close = '}') :
    readSeparator close (layout.lead ++ close :: rest) = .ok (false, rest) := by
  have noGap : isGap close = false := by
    rcases closing with rfl | rfl <;> decide
  rw [readSeparator, skipGap_append (gaps_lead layout), skipGap_cons noGap]
  dsimp only
  rw [if_pos rfl]

/-- The items of a list after its bracket. -/
theorem readItems_print {depth : Nat} (outer layout : Layout) (rest : List Char) (item : Value)
    (items : List Value) (fuel : Nat) (back : ∀ each ∈ item :: items, ReadsBack depth each)
    (printable : ∀ each ∈ item :: items, each.Printable depth)
    (enough : 2 * (print layout item ++ printItems layout items).length + 1 ≤ fuel) :
    readItemsWith .kept fuel depth
        (print layout item ++ (printItems layout items ++ (outer.lead ++ ']' :: rest))) =
      .ok (item :: items, rest) := by
  induction items generalizing item fuel with
  | nil =>
      obtain ⟨fuel, rfl⟩ : ∃ less, fuel = less + 1 := ⟨fuel - 1, by omega⟩
      rw [printItems, List.append_nil] at enough
      have read := back item List.mem_cons_self layout (outer.lead ++ ']' :: rest) fuel
        (stops_lead outer rest (.inl rfl)) (by omega)
      rw [printItems, List.nil_append, readItemsWith, read]
      simp only [bind, Except.bind]
      rw [readSeparator_lead outer rest (.inl rfl)]
      rfl
  | cons next items ih =>
      obtain ⟨fuel, rfl⟩ : ∃ less, fuel = less + 1 := ⟨fuel - 1, by omega⟩
      have positive := length_print_pos (printable item List.mem_cons_self) layout
      rw [printItems] at enough
      simp only [List.length_append, List.length_cons] at enough
      have read := back item List.mem_cons_self layout
        (printItems layout (next :: items) ++ (outer.lead ++ ']' :: rest)) fuel
        (by rw [printItems]; exact stops_comma _) (by omega)
      have others := ih next fuel (fun each mem => back each (List.mem_cons_of_mem _ mem))
        (fun each mem => printable each (List.mem_cons_of_mem _ mem))
        (by rw [List.length_append]; omega)
      have comma : printItems layout (next :: items) ++ (outer.lead ++ ']' :: rest) =
          ',' :: (layout.lead ++ (print layout next ++
            (printItems layout items ++ (outer.lead ++ ']' :: rest)))) := by
        simp [printItems]
      rw [readItemsWith, read]
      simp only [bind, Except.bind]
      rw [comma, readSeparator_comma (by decide)]
      simp only [if_true, readItemsWith_gaps .kept fuel depth (gaps_lead layout), others]
      rfl

/-- A list with items, from its bracket on. -/
theorem readValueWith_bracket (fuel depth : Nat) {chars tail : List Char} {char : Char}
    (first : skipGap chars = char :: tail) (opening : Opening char) :
    readValueWith .kept (fuel + 1) (depth + 1) ('[' :: chars) =
      (readItemsWith .kept fuel depth (char :: tail)).map fun read => (.list read.1, read.2) := by
  have bracket : skipGap ('[' :: chars) = '[' :: chars := skipGap_cons (by decide) chars
  simp only [readValueWith, bracket, deeper?, first]
  split
  · rename_i closing
    exact absurd (List.cons_eq_cons.mp closing).1 opening.notClosing.1
  · cases readItemsWith .kept fuel depth (char :: tail) <;> rfl

theorem readsBack_list {depth : Nat} {items : List Value}
    (back : ∀ item ∈ items, ReadsBack depth item)
    (printable : ∀ item ∈ items, item.Printable depth) : ReadsBack (depth + 1) (.list items) := by
  intro layout rest fuel stops enough
  cases items with
  | nil =>
      obtain ⟨fuel, rfl⟩ : ∃ less, fuel = less + 1 := ⟨fuel - 1, by simp [print] at enough; omega⟩
      rw [print, readValueWith]
      rfl
  | cons item items =>
      have shape : print layout (.list (item :: items)) ++ rest =
          '[' :: (layout.inner.lead ++ (print layout.inner item ++
            (printItems layout.inner items ++ (layout.lead ++ ']' :: rest)))) := by
        simp [print]
      simp only [print, List.length_append, List.length_cons, List.length_nil] at enough
      obtain ⟨fuel, rfl⟩ : ∃ less, fuel = less + 1 := ⟨fuel - 1, by omega⟩
      have inner := readItems_print layout layout.inner rest item items fuel back printable
        (by rw [List.length_append]; omega)
      obtain ⟨char, tail, first, opening⟩ :=
        (printable item List.mem_cons_self).exists_opening layout.inner
      rw [first, List.cons_append] at inner
      rw [shape, readValueWith_bracket fuel depth _ opening, inner]
      · rfl
      · rw [skipGap_append (gaps_lead layout.inner), first, List.cons_append,
          skipGap_cons opening.noGap]

theorem colon_inner (layout : Layout) : layout.inner.colon = layout.colon := by
  cases layout <;> rfl

theorem gaps_colon (layout : Layout) :
    ∃ gaps, layout.colon = ':' :: gaps ∧ Gaps gaps := by
  cases layout with
  | compact => exact ⟨[], rfl, by simp [Gaps]⟩
  | indented level => exact ⟨[' '], rfl, by simp [Gaps, isGap]⟩

/-- A key is read together with the colon after it. -/
theorem readKey_print (layout : Layout) {gaps : List Char} (all : Gaps gaps) (key : String)
    (rest : List Char) :
    ∃ after, Gaps after ∧
      readKey .kept (gaps ++ (printString key ++ (layout.colon ++ rest))) =
        .ok (key, after ++ rest) := by
  obtain ⟨after, colon, blank⟩ := gaps_colon layout
  refine ⟨after, blank, ?_⟩
  have start : skipGap (printString key ++ (layout.colon ++ rest)) =
      printString key ++ (layout.colon ++ rest) := skipGap_cons (by decide) _
  rw [readKey, skipGap_append all, start, readString_printString, colon]
  simp only [bind, Except.bind, List.cons_append]
  rw [skipGap_cons (by decide)]
  rfl

/-- The members of an object after its brace. -/
theorem readMembers_print {depth : Nat} (outer layout : Layout) (rest gaps : List Char)
    (all : Gaps gaps) (member : String × Value) (members : List (String × Value)) (fuel : Nat)
    (back : ∀ each ∈ member :: members, ReadsBack depth each.2)
    (printable : ∀ each ∈ member :: members, each.2.Printable depth)
    (enough : 2 * (print layout member.2 ++ printMembers layout members).length + 1 ≤ fuel) :
    readMembersWith .kept fuel depth
        (gaps ++ (printString member.1 ++ (layout.colon ++ (print layout member.2 ++
          (printMembers layout members ++ (outer.lead ++ '}' :: rest)))))) =
      .ok (member :: members, rest) := by
  induction members generalizing member fuel gaps with
  | nil =>
      obtain ⟨fuel, rfl⟩ : ∃ less, fuel = less + 1 := ⟨fuel - 1, by omega⟩
      rw [printMembers, List.append_nil] at enough
      have read := back member List.mem_cons_self layout (outer.lead ++ '}' :: rest) fuel
        (stops_lead outer rest (.inr rfl)) (by omega)
      obtain ⟨after, blank, keyed⟩ := readKey_print layout all member.1
        (print layout member.2 ++ (outer.lead ++ '}' :: rest))
      rw [printMembers, List.nil_append, readMembersWith, keyed]
      simp only [bind, Except.bind]
      rw [readValueWith_gaps .kept fuel depth blank, read]
      dsimp only
      rw [readSeparator_lead outer rest (.inr rfl)]
      rfl
  | cons next members ih =>
      obtain ⟨fuel, rfl⟩ : ∃ less, fuel = less + 1 := ⟨fuel - 1, by omega⟩
      have positive := length_print_pos (printable member List.mem_cons_self) layout
      rw [printMembers] at enough
      simp only [List.length_append, List.length_cons] at enough
      have read := back member List.mem_cons_self layout
        (printMembers layout (next :: members) ++ (outer.lead ++ '}' :: rest)) fuel
        (by rw [printMembers]; exact stops_comma _) (by omega)
      have others := ih layout.lead (gaps_lead layout) next fuel
        (fun each mem => back each (List.mem_cons_of_mem _ mem))
        (fun each mem => printable each (List.mem_cons_of_mem _ mem))
        (by rw [List.length_append]; omega)
      have comma : printMembers layout (next :: members) ++ (outer.lead ++ '}' :: rest) =
          ',' :: (layout.lead ++ (printString next.1 ++ (layout.colon ++ (print layout next.2 ++
            (printMembers layout members ++ (outer.lead ++ '}' :: rest)))))) := by
        simp [printMembers]
      obtain ⟨after, blank, keyed⟩ := readKey_print layout all member.1
        (print layout member.2 ++
          (printMembers layout (next :: members) ++ (outer.lead ++ '}' :: rest)))
      rw [readMembersWith, keyed]
      simp only [bind, Except.bind]
      rw [readValueWith_gaps .kept fuel depth blank, read]
      dsimp only
      rw [comma, readSeparator_comma (by decide)]
      simp only [if_true, others]
      rfl

/-- An object with members, from its brace on. -/
theorem readValueWith_brace (fuel depth : Nat) {chars tail : List Char}
    (first : skipGap chars = '"' :: tail) :
    readValueWith .kept (fuel + 1) (depth + 1) ('{' :: chars) =
      (readMembersWith .kept fuel depth ('"' :: tail)).map
        fun read => (.object read.1, read.2) := by
  have brace : skipGap ('{' :: chars) = '{' :: chars := skipGap_cons (by decide) chars
  simp only [readValueWith, brace, deeper?, first]
  split
  · rename_i closing
    exact absurd (List.cons_eq_cons.mp closing).1 (by decide)
  · cases readMembersWith .kept fuel depth ('"' :: tail) <;> rfl

theorem readsBack_object {depth : Nat} {members : List (String × Value)}
    (back : ∀ member ∈ members, ReadsBack depth member.2)
    (printable : ∀ member ∈ members, member.2.Printable depth) :
    ReadsBack (depth + 1) (.object members) := by
  intro layout rest fuel stops enough
  cases members with
  | nil =>
      obtain ⟨fuel, rfl⟩ : ∃ less, fuel = less + 1 := ⟨fuel - 1, by simp [print] at enough; omega⟩
      rw [print, readValueWith]
      rfl
  | cons member members =>
      have shape : print layout (.object (member :: members)) ++ rest =
          '{' :: (layout.inner.lead ++ (printString member.1 ++ (layout.inner.colon ++
            (print layout.inner member.2 ++ (printMembers layout.inner members ++
              (layout.lead ++ '}' :: rest)))))) := by
        simp [print, colon_inner]
      simp only [print, List.length_append, List.length_cons, List.length_nil] at enough
      obtain ⟨fuel, rfl⟩ : ∃ less, fuel = less + 1 := ⟨fuel - 1, by omega⟩
      have inner := readMembers_print layout layout.inner rest [] (by simp [Gaps]) member members
        fuel back printable (by rw [List.length_append]; omega)
      have quote : ∀ chars, skipGap (layout.inner.lead ++ (printString member.1 ++ chars)) =
          '"' :: (member.1.toList.flatMap escape ++ '"' :: chars) := by
        intro chars
        rw [skipGap_append (gaps_lead layout.inner), printString_append, skipGap_cons (by decide)]
      rw [List.nil_append, printString_append] at inner
      rw [shape, readValueWith_brace fuel depth (quote _), inner]
      rfl

theorem Value.Printable.readsBack {depth : Nat} {value : Value}
    (printable : value.Printable depth) :
    ReadsBack depth value := by
  induction printable with
  | null depth =>
      intro layout rest fuel stops enough
      obtain ⟨fuel, rfl⟩ : ∃ less, fuel = less + 1 := ⟨fuel - 1, by simp [print] at enough; omega⟩
      rw [print, readValueWith]
      rfl
  | boolean depth flag =>
      intro layout rest fuel stops enough
      obtain ⟨fuel, rfl⟩ : ∃ less, fuel = less + 1 :=
        ⟨fuel - 1, by cases flag <;> simp [print] at enough <;> omega⟩
      cases flag <;>
      · rw [print, readValueWith]
        rfl
  | text depth contents =>
      intro layout rest fuel stops enough
      obtain ⟨fuel, rfl⟩ : ∃ less, fuel = less + 1 :=
        ⟨fuel - 1, by simp [print, printString] at enough; omega⟩
      have read := readString_printString contents rest
      rw [printString_append] at read
      rw [print, printString_append, readValueWith, skipGap_cons (by decide)]
      simp only [read]
      rfl
  | number small => exact readsBack_number small
  | list inner ih => exact readsBack_list ih inner
  | object inner ih => exact readsBack_object ih inner

/-- A printed value is read back as it was. -/
theorem parse_print {value : Value} (printable : value.Printable depthLimit) (layout : Layout) :
    parse (print layout value) = .ok value := by
  have back := printable.readsBack layout [] (fuelFor (print layout value)) stops_nil
    (by rw [fuelFor]; omega)
  rw [List.append_nil] at back
  rw [parse, readText, readValue, back]
  rfl

theorem parse_compact {value : Value} (printable : value.Printable depthLimit) :
    parse value.compact.toList = .ok value := by
  rw [Value.compact, String.toList_ofList, parse_print printable]

theorem parse_pretty {value : Value} (printable : value.Printable depthLimit) :
    parse value.pretty.toList = .ok value := by
  rw [Value.pretty, String.toList_ofList, parse_print printable]

end ImageGallery.Json
