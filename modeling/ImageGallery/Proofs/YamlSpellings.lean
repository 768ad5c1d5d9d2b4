import ImageGallery.Proofs.YamlPauses

/-!
# Scalars as they are written in YAML texts

A text may be written plainly, as words with gaps between them, or in single or double quotes. Where
it stands on one line and what follows does not belong to it, it is read as what was written.
-/

namespace ImageGallery.Yaml

/-! ## Spellings -/

/-- Whether a plain scalar may have characters as one of its words, wherever the word stands. -/
def isWord (word : List Char) : Bool :=
  word ≠ [] && word.all (fun char => !(isGap char || isBreak char)) && word.getLast? ≠ some ':'

/-- Whether characters stand for a character in double quotes: itself, or an escape of one letter or
by number. -/
def isPiece : List Char → Char → Bool
  | [raw], char => raw = char && raw ≠ '"' && raw ≠ '\\'
  | '\\' :: letter :: digits, char =>
    if digits = [] then escapedChar? letter = some char
    else
      escapeWidth? letter = some digits.length && charOfDigits? digits.length digits = some char
  | _, _ => false

/-- How a character is written in single quotes. -/
def singleQuoted (char : Char) : List Char :=
  if char = '\x27' then ['\x27', '\x27'] else [char]

/-- A text as it is written on one line. -/
inductive Spelling where
  /-- A word, and further words with the gaps in front of them. -/
  | plain (first : List Char) (others : List (List Char × List Char))
  | single (chars : List Char)
  /-- Characters with what they stand for. -/
  | double (pieces : List (List Char × Char))
deriving DecidableEq

namespace Spelling

/-- The words after the first one, with the gaps. -/
def further (others : List (List Char × List Char)) : List Char :=
  others.flatMap fun word => word.1 ++ word.2

/-- What is written. -/
def text : Spelling → List Char
  | plain first others => first ++ further others
  | single chars => '\x27' :: (chars.flatMap singleQuoted ++ ['\x27'])
  | double pieces => '"' :: (pieces.flatMap (·.1) ++ ['"'])

/-- What it stands for. -/
def chars : Spelling → List Char
  | plain first others => first ++ further others
  | single chars => chars
  | double pieces => pieces.map (·.2)

def style : Spelling → Style
  | plain _ _ => .plain
  | single _ | double _ => .quoted

/-- The token that is read. -/
def token (spelling : Spelling) : Token :=
  .scalar spelling.style (String.ofList spelling.chars)

/-- Whether a spelling stands for what it says. A plain one may not start like something else, nor
have a comment in it. -/
def isProper : Spelling → Bool
  | plain first others =>
    startsPlain false (first ++ [' ']) && first.head? ≠ some '\ufeff' && isWord first &&
      others.all fun word =>
        word.1 ≠ [] && word.1.all isGap && isWord word.2 && word.2.head? ≠ some '#'
  | single chars => chars.all (!isBreak ·)
  | double pieces => pieces.all fun piece =>
      isPiece piece.1 piece.2 && piece.1.all (!isBreak ·)

end Spelling

/-! ## What may follow -/

/-- Whether a colon is next that ends a key. -/
def startsColon : List Char → Bool
  | ':' :: rest => endsWord rest
  | _ => false

/-- The blanks and line breaks that a text starts with. -/
def leadingRun (chars : List Char) : List Char :=
  chars.takeWhile fun char => isGap char || isBreak char

/-- What follows the leading blanks and line breaks. -/
def afterRun (chars : List Char) : List Char :=
  chars.dropWhile fun char => isGap char || isBreak char

theorem spaces_leadingRun (chars : List Char) :
    ∀ char ∈ leadingRun chars, (isGap char || isBreak char) = true := by
  intro char among
  simpa only using List.mem_takeWhile_imp among

/-- Blanks and line breaks in front of something else. -/
theorem run_append {run rest : List Char}
    (spaces : ∀ char ∈ run, (isGap char || isBreak char) = true)
    (stops : ∀ char ∈ rest.head?, (isGap char || isBreak char) = false) :
    leadingRun (run ++ rest) = run ∧ afterRun (run ++ rest) = rest := by
  unfold leadingRun afterRun
  rw [List.takeWhile_append_of_pos spaces, List.dropWhile_append_of_pos spaces]
  match rest with
  | [] => exact ⟨List.append_nil _, rfl⟩
  | char :: more =>
      simp [stops char rfl]

theorem space_of_gaps {gaps : List Char} (all : gaps.all isGap = true) :
    ∀ char ∈ gaps, (isGap char || isBreak char) = true := fun char among => by
  rw [List.all_eq_true.mp all char among, Bool.true_or]

/-- A scalar that ends at a column is not continued by what follows it. `indent` is the number of
columns that its further lines are indented by at least. -/
structure Follows (indent column : Nat) (rest : List Char) : Prop where
  ends : (endsWord rest || startsColon rest) = true
  /-- The blanks and line breaks behind it are a pause, and what comes then ends it. -/
  apart : ∃ later, Pause.after? ⟨false, false, column⟩ (leadingRun rest) = some later ∧
    (afterRun rest = [] ∨ (afterRun rest).head? = some '#' ∨ startsColon (afterRun rest) = true ∨
      later.column < indent)

theorem Follows.head?_ne {indent column : Nat} {rest : List Char} {mark : Char}
    (follows : Follows indent column rest)
    (unlike : (isGap mark || isBreak mark || mark = ':') = false) : rest.head? ≠ some mark := by
  have ends := follows.ends
  match rest with
  | [] => nofun
  | char :: more =>
      rintro ⟨⟩
      simp only [Bool.or_eq_false_iff, decide_eq_false_iff_not] at unlike
      have colon : startsColon (mark :: more) = false := by
        unfold startsColon
        split
        · next same =>
            cases same
            exact absurd rfl unlike.2
        · rfl
      simp [endsWord, unlike, colon] at ends

section Words

variable {word rest chars : List Char} {pause later : Pause} {indent column : Nat}

theorem readWord_of_end (ends : (endsWord rest || startsColon rest) = true) :
    readWord false rest = some ([], rest) := by
  match rest with
  | [] => rfl
  | char :: more =>
      rw [readWord]
      by_cases space : (isGap char || isBreak char) = true
      · rw [if_pos space]
      · rw [if_neg space]
        have colon : startsColon (char :: more) = true := by
          simpa only [endsWord, space, Bool.false_or] using ends
        unfold startsColon at colon
        split at colon
        · next same =>
            cases same
            rw [if_pos (by simpa using colon)]
        · cases colon

theorem unspaced_of_isWord (isWord_word : isWord word = true) :
    ∀ char ∈ word, (isGap char || isBreak char) = false := by
  simp only [isWord, Bool.and_eq_true, List.all_eq_true, Bool.not_eq_true'] at isWord_word
  exact isWord_word.1.2

theorem ne_nil_of_isWord (isWord_word : isWord word = true) : word ≠ [] := by
  rintro rfl
  cases isWord_word

theorem isWord_tail {char next : Char} (isWord_word : isWord (char :: next :: word) = true) :
    isWord (next :: word) = true := by
  have unspaced := unspaced_of_isWord isWord_word
  simp only [isWord, Bool.and_eq_true, List.all_eq_true, Bool.not_eq_true'] at isWord_word ⊢
  refine ⟨⟨rfl, fun other among => unspaced other (List.mem_cons_of_mem _ among)⟩, ?_⟩
  rw [List.getLast?_cons_cons] at isWord_word
  exact isWord_word.2

theorem ne_colon_of_isWord {char : Char} (isWord_word : isWord [char] = true) : char ≠ ':' := by
  simp only [isWord, Bool.and_eq_true] at isWord_word
  simpa using isWord_word.2

theorem readWord_append (isWord_word : isWord word = true)
    (ends : (endsWord rest || startsColon rest) = true) :
    readWord false (word ++ rest) = some (word, rest) := by
  induction word with
  | nil => cases isWord_word
  | cons char word ih =>
      have unspaced := unspaced_of_isWord isWord_word
      rw [List.cons_append, readWord, if_neg (by simp [unspaced char List.mem_cons_self])]
      match word with
      | [] =>
          rw [if_neg (by simp [ne_colon_of_isWord isWord_word]), if_neg (by simp),
            if_neg (by simp), List.nil_append, readWord_of_end ends]
          rfl
      | next :: word =>
          have goes : endsWord (next :: word ++ rest) = false := unspaced next (by simp)
          rw [if_neg (by rw [goes]; simp), if_neg (by simp), if_neg (by simp),
            ih (isWord_tail isWord_word)]
          rfl

/-! ### Gaps -/

theorem isBreak_of_isGap {char : Char} (gap : isGap char = true) : isBreak char = false := by
  obtain rfl | rfl : char = ' ' ∨ char = '\t' := by simpa [isGap] using gap
  · decide
  · decide

/-- In a new line only blanks are part of a pause, and no tabs. -/
theorem step?_of_fresh {char : Char} (gap : isGap char = true)
    (paused : Pause.step? ⟨false, true, column⟩ char = some later) :
    char = ' ' ∧ later = ⟨false, true, column + 1⟩ := by
  obtain rfl | rfl : char = ' ' ∨ char = '\t' := by simpa [isGap] using gap
  · cases paused
    exact ⟨rfl, rfl⟩
  · cases paused

theorem step?_of_gap {char : Char} (gap : isGap char = true) :
    Pause.step? ⟨false, false, column⟩ char = some ⟨false, false, column + 1⟩ := by
  obtain rfl | rfl : char = ' ' ∨ char = '\t' := by simpa [isGap] using gap
  · rfl
  · rfl

theorem step?_of_break {char : Char} (broken : isBreak char = true) :
    pause.step? char = some ⟨false, true, 0⟩ := by
  rw [Pause.step?, if_pos broken]

theorem run_of_fresh (spaces : ∀ char ∈ chars, (isGap char || isBreak char) = true)
    (paused : Pause.after? ⟨false, true, column⟩ chars = some later) :
    (∀ here, hasEarlyTab indent here chars = false) ∧ later.comment = false ∧
      later.fresh = true := by
  induction chars generalizing column with
  | nil =>
      cases paused
      exact ⟨fun _ => rfl, rfl, rfl⟩
  | cons char chars ih =>
      rw [List.forall_mem_cons] at spaces
      obtain ⟨next, stepped, paused⟩ := Option.bind_eq_some_iff.mp paused
      by_cases broken : isBreak char = true
      · cases (step?_of_break broken).symm.trans stepped
        obtain ⟨early, ended⟩ := ih spaces.2 paused
        exact ⟨fun here => by rw [hasEarlyTab, if_pos broken, early], ended⟩
      · have gap : isGap char = true := by simpa [broken] using spaces.1
        obtain ⟨rfl, rfl⟩ := step?_of_fresh gap stepped
        obtain ⟨early, ended⟩ := ih spaces.2 paused
        exact ⟨fun here => by rw [hasEarlyTab, if_neg broken, early]; simp, ended⟩

/-- A gap that is a pause has no tab where a line has to be indented, and whether a key may start
behind it is whether it goes over a line break. -/
theorem run_of_pause (indent : Nat) (spaces : ∀ char ∈ chars, (isGap char || isBreak char) = true)
    (paused : Pause.after? ⟨false, false, column⟩ chars = some later) :
    hasEarlyTab indent 0 (chars.dropWhile isGap) = false ∧ later.comment = false ∧
      (Gap.ofRun chars).isBroken = later.fresh := by
  induction chars generalizing column with
  | nil =>
      cases paused
      exact ⟨rfl, rfl, rfl⟩
  | cons char chars ih =>
      rw [List.forall_mem_cons] at spaces
      obtain ⟨next, stepped, paused⟩ := Option.bind_eq_some_iff.mp paused
      by_cases gap : isGap char = true
      · cases (step?_of_gap gap).symm.trans stepped
        have same : (char :: chars).dropWhile isGap = chars.dropWhile isGap :=
          List.dropWhile_cons_of_pos gap
        obtain ⟨early, ended, broken⟩ := ih spaces.2 paused
        have alike : (Gap.ofRun (char :: chars)).isBroken = (Gap.ofRun chars).isBroken := by
          unfold Gap.ofRun
          rw [same]
          split <;> rfl
        rw [same, alike]
        exact ⟨early, ended, broken⟩
      · have broken : isBreak char = true := by simpa [gap] using spaces.1
        have same : (char :: chars).dropWhile isGap = char :: chars :=
          List.dropWhile_cons_of_neg gap
        cases (step?_of_break broken).symm.trans stepped
        have fresh : (∀ here, hasEarlyTab indent here chars = false) ∧ later.comment = false ∧
          later.fresh = true := run_of_fresh spaces.2 paused
        rw [Gap.ofRun, same, hasEarlyTab, if_pos broken]
        exact ⟨fresh.1 0, fresh.2.1, fresh.2.2.symm⟩

end Words

/-! ## Plain scalars -/

/-- Documents start and end only at the start of a line. -/
theorem Cursor.atSeparator_of_inside {cursor : Cursor} (inside : cursor.column ≠ 0) :
    cursor.atSeparator = false := by
  simp [atSeparator, atDocumentStart, atDocumentEnd, startsLine, inside]

section Plain

variable {cursor : Cursor} {word rest : List Char} {gap : Gap} {indent fuel : Nat}

theorem readWords_of_end (ends : cursor.next? = some '#' ∨
    (endsWord cursor.ahead || startsColon cursor.ahead) = true) :
    readWords false indent (fuel + 1) gap cursor = some (⟨[], gap.isBroken⟩, cursor) := by
  rw [readWords]
  split
  · rfl
  · next goes =>
      have ended : (endsWord cursor.ahead || startsColon cursor.ahead) = true :=
        ends.resolve_left fun mark => goes (by simp [mark])
      rw [readWord_of_end ended]
      rfl

theorem readPlainGap_of_pause (indent : Nat) {later : Pause} {column : Nat}
    (ahead : cursor.ahead = rest)
    (paused : Pause.after? ⟨false, false, column⟩ (leadingRun rest) = some later) :
    readPlainGap indent cursor =
      some (.ofRun (leadingRun rest), cursor.steps (leadingRun rest).length) := by
  have early : hasEarlyTab indent 0 ((leadingRun rest).dropWhile isGap) = false :=
    (run_of_pause indent (spaces_leadingRun _) paused).1
  unfold readPlainGap readRun Cursor.takeWhile
  simp only [leadingRun] at early ⊢
  simp [ahead, early]

/-- One word, with the gap behind it. -/
theorem readWords_word {between : Gap} {following : Cursor} (isWord_word : isWord word = true)
    (unmarked : word.head? ≠ some '#') (apart : cursor.atSeparator = false)
    (ahead : cursor.ahead = word ++ rest) (ends : (endsWord rest || startsColon rest) = true)
    (gapRead : readPlainGap indent (cursor.steps word.length) = some (between, following)) :
    readWords false indent (fuel + 1) gap cursor =
      if between = .blanks [] ∨ following.column < indent then
        some (⟨gap.fold ++ word, between.isBroken⟩, following)
      else
        (readWords false indent fuel between following).map fun words =>
          (⟨gap.fold ++ word ++ words.1.chars, words.1.isBroken⟩, words.2) := by
  have filled := ne_nil_of_isWord isWord_word
  have unmarkedHere : cursor.next? ≠ some '#' := by
    obtain ⟨char, more, rfl⟩ := List.exists_cons_of_ne_nil filled
    rwa [Cursor.next?, ahead]
  rw [readWords]
  simp only [apart, unmarkedHere, decide_false, Bool.or_false, Bool.false_eq_true, if_false, ahead,
    readWord_append isWord_word ends, Option.bind_eq_bind, Option.bind_some, if_neg filled, gapRead,
    Bool.not_false, true_and, Option.pure_def]
  split
  · rfl
  · cases readWords false indent fuel between following <;> rfl

theorem leadingRun_append {gaps : List Char} (all : gaps.all isGap = true)
    (isWord_word : isWord word = true) : leadingRun (gaps ++ (word ++ rest)) = gaps := by
  obtain ⟨char, more, rfl⟩ := List.exists_cons_of_ne_nil (ne_nil_of_isWord isWord_word)
  refine (run_append (space_of_gaps all) ?_).1
  rintro _ ⟨⟩
  exact unspaced_of_isWord isWord_word char List.mem_cons_self

theorem after?_of_gaps {gaps : List Char} {column : Nat} (all : gaps.all isGap = true) :
    Pause.after? ⟨false, false, column⟩ gaps = some ⟨false, false, column + gaps.length⟩ := by
  induction gaps generalizing column with
  | nil => rfl
  | cons char gaps ih =>
      rw [List.all_cons, Bool.and_eq_true] at all
      rw [Pause.after?, step?_of_gap all.1, Option.bind_some, ih all.2, List.length_cons,
        Nat.add_assoc, Nat.add_comm 1]

theorem unbroken_of_isWord (isWord_word : isWord word = true) :
    ∀ char ∈ word, isBreak char = false := fun char among =>
  (Bool.or_eq_false_iff.mp (unspaced_of_isWord isWord_word char among)).2

/-- The last word, and the pause behind the scalar. -/
theorem readWords_last (isWord_word : isWord word = true) (unmarked : word.head? ≠ some '#')
    (apart : cursor.atSeparator = false) (ahead : cursor.ahead = word ++ rest)
    (follows : Follows indent (cursor.column + word.length) rest) (enough : word.length < fuel) :
    readWords false indent fuel gap cursor =
      some (⟨gap.fold ++ word, (Gap.ofRun (leadingRun rest)).isBroken⟩,
        cursor.steps (word.length + (leadingRun rest).length)) := by
  obtain ⟨fuel, rfl⟩ := Nat.exists_eq_succ_of_ne_zero (Nat.ne_zero_of_lt enough)
  have behind := Cursor.steps_of_unbroken ahead (unbroken_of_isWord isWord_word)
  have column_eq : (cursor.steps word.length).column = cursor.column + word.length := by
    rw [behind]
  have ahead_eq : (cursor.steps word.length).ahead = leadingRun rest ++ afterRun rest := by
    rw [behind]
    exact List.takeWhile_append_dropWhile.symm
  obtain ⟨later, paused, stops⟩ := follows.apart
  have gapRead := readPlainGap_of_pause indent (congrArg Cursor.ahead behind) paused
  rw [readWords_word isWord_word unmarked apart ahead follows.ends gapRead, Cursor.steps_add]
  split
  · rfl
  · next goes =>
      have filled := List.length_pos_iff.mpr (ne_nil_of_isWord isWord_word)
      obtain ⟨fuel, rfl⟩ := Nat.exists_eq_succ_of_ne_zero (show fuel ≠ 0 by omega)
      have later_eq := Pause.column_steps ahead_eq column_eq paused
      have afterwards := Cursor.ahead_steps_append ahead_eq
      rw [readWords_of_end, Option.map_some, List.append_nil]
      rw [Cursor.next?, afterwards]
      obtain ended | marked | colon | left := stops
      · exact .inr (by rw [ended]; rfl)
      · exact .inl marked
      · exact .inr (by rw [colon, Bool.or_true])
      · exact (goes (.inr (by rw [later_eq]; exact left))).elim

/-- A word, and the gap in front of the next one. -/
theorem readWords_gaps {gaps more : List Char} (isWord_word : isWord word = true)
    (unmarked : word.head? ≠ some '#') (apart : cursor.atSeparator = false) (some_gap : gaps ≠ [])
    (all_gaps : gaps.all isGap = true) (isWord_more : isWord more = true)
    (ahead : cursor.ahead = word ++ (gaps ++ (more ++ rest)))
    (wide : indent ≤ cursor.column + 1) :
    readWords false indent (fuel + 1) gap cursor =
      (readWords false indent fuel (.blanks gaps) (cursor.steps (word.length + gaps.length))).map
        fun words => (⟨gap.fold ++ word ++ words.1.chars, words.1.isBroken⟩, words.2) := by
  have behind := Cursor.steps_of_unbroken ahead (unbroken_of_isWord isWord_word)
  have ahead_eq : (cursor.steps word.length).ahead = gaps ++ (more ++ rest) := by rw [behind]
  have past_eq := Cursor.steps_of_unbroken ahead_eq fun gap among =>
    isBreak_of_isGap (List.all_eq_true.mp all_gaps gap among)
  have run_eq : leadingRun (gaps ++ (more ++ rest)) = gaps := leadingRun_append all_gaps isWord_more
  have paused : Pause.after? ⟨false, false, 0⟩ (leadingRun (gaps ++ (more ++ rest))) =
      some ⟨false, false, 0 + gaps.length⟩ := by
    rw [run_eq]
    exact after?_of_gaps all_gaps
  have gapRead := readPlainGap_of_pause indent ahead_eq paused
  have between_eq : Gap.ofRun gaps = .blanks gaps := by
    rw [Gap.ofRun, List.dropWhile_eq_nil_iff.mpr (List.all_eq_true.mp all_gaps)]
  have ends : endsWord (gaps ++ (more ++ rest)) = true := by
    obtain ⟨gap, tail, rfl⟩ := List.exists_cons_of_ne_nil some_gap
    rw [List.all_cons, Bool.and_eq_true] at all_gaps
    exact Bool.or_eq_true _ _ ▸ .inl all_gaps.1
  rw [run_eq, between_eq] at gapRead
  rw [readWords_word isWord_word unmarked apart ahead (by rw [ends, Bool.true_or]) gapRead, if_neg,
    Cursor.steps_add]
  rintro (none_read | left)
  · cases none_read
    exact some_gap rfl
  · have filled : 0 < word.length := List.length_pos_iff.mpr (ne_nil_of_isWord isWord_word)
    rw [past_eq, behind] at left
    dsimp only at left
    omega

/-- Words of a plain scalar that is read to its end. -/
theorem readWords_append (words : List (List Char × List Char))
    (proper : words.all (fun word =>
      word.1 ≠ [] && word.1.all isGap && isWord word.2 && word.2.head? ≠ some '#') = true)
    (isWord_word : isWord word = true) (unmarked : word.head? ≠ some '#')
    (apart : cursor.atSeparator = false)
    (ahead : cursor.ahead = word ++ Spelling.further words ++ rest)
    (wide : indent ≤ cursor.column + 1)
    (follows : Follows indent (cursor.column + (word ++ Spelling.further words).length) rest)
    (enough : (word ++ Spelling.further words).length < fuel) :
    readWords false indent fuel gap cursor =
      some (⟨gap.fold ++ (word ++ Spelling.further words), (Gap.ofRun (leadingRun rest)).isBroken⟩,
        cursor.steps ((word ++ Spelling.further words).length + (leadingRun rest).length)) := by
  induction words generalizing word gap cursor fuel with
  | nil =>
      simp only [Spelling.further, List.flatMap_nil, List.append_nil] at *
      exact readWords_last isWord_word unmarked apart ahead follows enough
  | cons next words ih =>
      obtain ⟨fuel, rfl⟩ := Nat.exists_eq_succ_of_ne_zero (Nat.ne_zero_of_lt enough)
      obtain ⟨gaps, more⟩ := next
      simp only [List.all_cons, Bool.and_eq_true, decide_eq_true_eq] at proper
      obtain ⟨⟨⟨⟨some_gap, all_gaps⟩, isWord_more⟩, unmarked_more⟩, proper⟩ := proper
      have text_eq : Spelling.further ((gaps, more) :: words) =
          gaps ++ (more ++ Spelling.further words) := List.append_assoc ..
      rw [text_eq] at ahead follows enough ⊢
      simp only [List.append_assoc, List.length_append] at ahead follows enough ⊢
      have filled : 0 < word.length := List.length_pos_iff.mpr (ne_nil_of_isWord isWord_word)
      have behind : cursor.steps (word ++ gaps).length = _ :=
        Cursor.steps_of_unbroken (by rw [ahead, List.append_assoc])
          (List.forall_mem_append.mpr ⟨unbroken_of_isWord isWord_word, fun gap among =>
            isBreak_of_isGap (List.all_eq_true.mp all_gaps gap among)⟩)
      rw [List.length_append] at behind
      have column_eq : (cursor.steps (word.length + gaps.length)).column =
          cursor.column + (word.length + gaps.length) := by rw [behind]
      have apart_more : (cursor.steps (word.length + gaps.length)).atSeparator = false :=
        Cursor.atSeparator_of_inside (by omega)
      have others : readWords false indent fuel (.blanks gaps)
          (cursor.steps (word.length + gaps.length)) = _ :=
        ih proper isWord_more unmarked_more apart_more (by rw [behind, List.append_assoc])
          (by omega) (by simpa only [column_eq, List.length_append, Nat.add_assoc] using follows)
          (by rw [List.length_append]; omega)
      rw [readWords_gaps isWord_word unmarked apart some_gap all_gaps isWord_more ahead wide,
        others]
      simp [Gap.fold, Cursor.steps_add, Nat.add_assoc]

theorem startsPlain_append (starts : startsPlain false (word ++ [' ']) = true)
    (filled : word ≠ []) : startsPlain false (word ++ rest) = true := by
  obtain ⟨char, more, rfl⟩ := List.exists_cons_of_ne_nil filled
  cases more with
  | nil =>
      have marks : char ≠ '-' ∧ char ≠ '?' ∧ char ≠ ':' := by
        refine ⟨?_, ?_, ?_⟩ <;> rintro rfl <;> revert starts <;> decide
      simpa [startsPlain, marks] using starts
  | cons next more => exact starts

end Plain

/-! ## Quoted scalars -/

/-- How a text in quotes is read up to the closing mark: the mark ends it, a gap is read as a whole,
and of what else is written each piece on its own. -/
structure ReadsQuoted (read : Nat → Cursor → Option (List Char × Cursor)) (mark : Char)
    (isPiece : List Char → Char → Bool) : Prop where
  isMark : (isGap mark || isBreak mark) = false
  close {fuel : Nat} {cursor : Cursor} {rest : List Char} : cursor.column ≠ 0 →
    cursor.ahead = mark :: rest → rest.head? ≠ some mark → read (fuel + 1) cursor =
      some ([], cursor.step)
  gap {fuel : Nat} {cursor : Cursor} {char : Char} {rest : List Char} : cursor.column ≠ 0 →
    cursor.ahead = char :: rest → isGap char = true → read (fuel + 1) cursor =
      (read fuel (readRun cursor).2).map fun text =>
        ((Gap.ofRun (readRun cursor).1).fold ++ text.1, text.2)
  piece {fuel : Nat} {cursor : Cursor} {text : List Char} {char : Char} {rest : List Char} :
    cursor.column ≠ 0 → isPiece text char = true → (∀ char ∈ text, isBreak char = false) →
    text.head?.any isGap = false → cursor.ahead = text ++ rest → read (fuel + 1) cursor =
      (read fuel (cursor.steps text.length)).map fun others => (char :: others.1, others.2)
  filled {text : List Char} {char : Char} : isPiece text char = true → text ≠ []
  /-- A gap is written as it is. -/
  blank {text : List Char} {char : Char} : isPiece text char = true → text.head?.any isGap = true →
    text = [char]

namespace ReadsQuoted

variable {read : Nat → Cursor → Option (List Char × Cursor)} {mark : Char}
  {isPiece : List Char → Char → Bool} {cursor : Cursor} {rest : List Char} {fuel : Nat}

/-- The gaps that pieces start with, which are written as they are, and the pieces behind them. -/
theorem exists_gaps (reads : ReadsQuoted read mark isPiece) (pieces : List (List Char × Char))
    (proper : ∀ piece ∈ pieces, isPiece piece.1 piece.2 = true) :
    ∃ gaps others, gaps.all isGap = true ∧
      pieces.flatMap (·.1) = gaps ++ others.flatMap (·.1) ∧
      pieces.map (·.2) = gaps ++ others.map (·.2) ∧
      pieces.length = gaps.length + others.length ∧ others ⊆ pieces ∧
      ∀ piece ∈ others.head?, piece.1.head?.any isGap = false := by
  induction pieces with
  | nil => exact ⟨[], [], rfl, rfl, rfl, rfl, List.Subset.refl _, nofun⟩
  | cons piece pieces ih =>
      by_cases blank : piece.1.head?.any isGap = true
      · rw [List.forall_mem_cons] at proper
        obtain ⟨gaps, others, all, text_eq, chars_eq, length_eq, among, head⟩ := ih proper.2
        have written := reads.blank proper.1 blank
        have isGap_char : isGap piece.2 = true := by
          rwa [written] at blank
        refine ⟨piece.2 :: gaps, others, ?_, ?_, ?_, ?_, ?_, head⟩
        · rw [List.all_cons, isGap_char, all, Bool.true_and]
        · rw [List.flatMap_cons, text_eq, written, List.singleton_append, List.cons_append]
        · rw [List.map_cons, chars_eq, List.cons_append]
        · rw [List.length_cons, length_eq, List.length_cons, Nat.add_right_comm]
        · exact List.subset_cons_of_subset _ among
      · refine ⟨[], piece :: pieces, rfl, rfl, rfl, (Nat.zero_add _).symm, List.Subset.refl _, ?_⟩
        rintro _ ⟨⟩
        exact Bool.not_eq_true _ ▸ blank

theorem length_le_flatMap (reads : ReadsQuoted read mark isPiece)
    (pieces : List (List Char × Char))
    (proper : ∀ piece ∈ pieces, isPiece piece.1 piece.2 = true) :
    pieces.length ≤ (pieces.flatMap (·.1)).length := by
  induction pieces with
  | nil => exact Nat.le_refl _
  | cons piece pieces ih =>
      rw [List.forall_mem_cons] at proper
      have filled := List.length_pos_iff.mpr (reads.filled proper.1)
      have others := ih proper.2
      rw [List.flatMap_cons, List.length_append, List.length_cons]
      omega

/-- What follows the gaps is no gap. -/
theorem leadingRun_append_pieces (reads : ReadsQuoted read mark isPiece) {gaps : List Char}
    (all : gaps.all isGap = true) {pieces : List (List Char × Char)}
    (proper : ∀ piece ∈ pieces, isPiece piece.1 piece.2 = true ∧
      ∀ char ∈ piece.1, isBreak char = false)
    (head : ∀ piece ∈ pieces.head?, piece.1.head?.any isGap = false) :
    leadingRun (gaps ++ (pieces.flatMap (·.1) ++ mark :: rest)) = gaps := by
  refine (run_append (space_of_gaps all) ?_).1
  cases pieces with
  | nil =>
      rintro _ ⟨⟩
      exact reads.isMark
  | cons piece pieces =>
      rw [List.forall_mem_cons] at proper
      obtain ⟨char, more, text_eq⟩ := List.exists_cons_of_ne_nil (reads.filled proper.1.1)
      have unspaced : isGap char = false := by
        have gap := head piece rfl
        rwa [text_eq] at gap
      rw [List.flatMap_cons, text_eq]
      rintro _ ⟨⟩
      rw [unspaced, proper.1.2 char (by rw [text_eq]; exact List.mem_cons_self), Bool.or_self]

theorem read_gaps (reads : ReadsQuoted read mark isPiece) {gaps : List Char} (filled : gaps ≠ [])
    (all : gaps.all isGap = true) (inside : cursor.column ≠ 0)
    (ahead : cursor.ahead = gaps ++ rest) (run_eq : leadingRun (gaps ++ rest) = gaps) :
    read (fuel + 1) cursor =
      (read fuel (cursor.steps gaps.length)).map fun text => (gaps ++ text.1, text.2) := by
  have taken : readRun cursor = (gaps, cursor.steps gaps.length) := by
    unfold leadingRun at run_eq
    unfold readRun Cursor.takeWhile
    rw [ahead, run_eq]
  have folded : (Gap.ofRun gaps).fold = gaps := by
    rw [Gap.ofRun, List.dropWhile_eq_nil_iff.mpr (List.all_eq_true.mp all)]
    rfl
  obtain ⟨char, more, rfl⟩ := List.exists_cons_of_ne_nil filled
  rw [List.all_cons, Bool.and_eq_true] at all
  rw [reads.gap inside ahead all.1, taken, folded]

/-- A text in quotes is read as what its pieces stand for. -/
theorem read_append (reads : ReadsQuoted read mark isPiece) (pieces : List (List Char × Char))
    (proper : ∀ piece ∈ pieces, isPiece piece.1 piece.2 = true ∧
      ∀ char ∈ piece.1, isBreak char = false)
    (inside : cursor.column ≠ 0) (ahead : cursor.ahead = pieces.flatMap (·.1) ++ mark :: rest)
    (apart : rest.head? ≠ some mark) (enough : pieces.length < fuel) :
    read fuel cursor =
      some (pieces.map (·.2), cursor.steps ((pieces.flatMap (·.1)).length + 1)) := by
  -- By the number of pieces, since the gaps in front of a piece are read at once.
  induction count : pieces.length using Nat.strong_induction_on
    generalizing pieces cursor fuel with
  | _ count ih =>
      subst count
      obtain ⟨fuel, rfl⟩ := Nat.exists_eq_succ_of_ne_zero (Nat.ne_zero_of_lt enough)
      obtain ⟨gaps, others, all, text_eq, chars_eq, length_eq, among, head⟩ :=
        reads.exists_gaps pieces fun piece among => (proper piece among).1
      have properToo := fun piece member => proper piece (among member)
      by_cases filled : gaps = []
      · subst filled
        rw [List.nil_append] at text_eq chars_eq
        rw [List.length_nil, Nat.zero_add] at length_eq
        rw [text_eq] at ahead
        rw [text_eq, chars_eq]
        match others with
        | [] => exact reads.close inside ahead apart
        | (text, char) :: others =>
            rw [List.forall_mem_cons] at properToo
            rw [List.flatMap_cons, List.append_assoc] at ahead
            have behind := Cursor.steps_of_unbroken ahead properToo.1.2
            have column_eq : (cursor.steps text.length).column = cursor.column + text.length := by
              rw [behind]
            rw [List.length_cons] at length_eq
            have further : read fuel (cursor.steps text.length) =
                some (others.map (·.2), (cursor.steps text.length).steps
                  ((others.flatMap (·.1)).length + 1)) :=
              ih others.length (by omega) others properToo.2 (by omega) (by rw [behind])
                (by omega) rfl
            rw [reads.piece inside properToo.1.1 properToo.1.2 (head _ rfl) ahead, further,
              List.flatMap_cons, List.length_append, Nat.add_assoc]
            simp only [Cursor.steps_add]
            rfl
      · rw [text_eq, List.append_assoc] at ahead
        have behind := Cursor.steps_of_unbroken ahead fun gap among =>
          isBreak_of_isGap (List.all_eq_true.mp all gap among)
        have column_eq : (cursor.steps gaps.length).column = cursor.column + gaps.length := by
          rw [behind]
        have some_gap : 0 < gaps.length := List.length_pos_iff.mpr filled
        have further : read fuel (cursor.steps gaps.length) =
            some (others.map (·.2), (cursor.steps gaps.length).steps
              ((others.flatMap (·.1)).length + 1)) :=
          ih others.length (by omega) others properToo (by omega) (by rw [behind]) (by omega) rfl
        rw [reads.read_gaps filled all inside ahead
          (reads.leadingRun_append_pieces all properToo head), further, text_eq, chars_eq,
          List.length_append, Nat.add_assoc]
        simp only [Cursor.steps_add]
        rfl

end ReadsQuoted

theorem unbroken_of_singleQuoted {char : Char} (unbroken : isBreak char = false) :
    ∀ written ∈ singleQuoted char, isBreak written = false := by
  unfold singleQuoted
  split
  · rw [List.forall_mem_cons, List.forall_mem_singleton]
    exact ⟨rfl, rfl⟩
  · rintro _ (_ | ⟨_, ⟨⟩⟩)
    exact unbroken

theorem readsQuoted_single :
    ReadsQuoted readSingleQuoted '\x27' fun text char => text = singleQuoted char where
  isMark := by decide
  close {_ _ rest} inside ahead apart := by
    rw [readSingleQuoted, Cursor.atSeparator_of_inside inside, ahead]
    match rest with
    | [] => rfl
    | next :: rest =>
        have other : next ≠ '\x27' := fun same => apart (congrArg some same)
        simp [other]
  gap {_ _ char _} inside ahead gap := by
    have other : char ≠ '\x27' := by
      rintro rfl
      cases gap
    rw [readSingleQuoted, Cursor.atSeparator_of_inside inside, ahead]
    simp [other, gap]
  piece {fuel cursor _ char _} inside piece unbroken head ahead := by
    obtain rfl := of_decide_eq_true piece
    rw [readSingleQuoted, Cursor.atSeparator_of_inside inside, ahead]
    by_cases mark : char = '\x27'
    · subst mark
      rfl
    · have written : singleQuoted char = [char] := if_neg mark
      rw [written] at unbroken head ⊢
      have spaced : (isGap char || isBreak char) = false :=
        Bool.or_eq_false_iff.mpr ⟨head, unbroken char List.mem_cons_self⟩
      simp [mark, spaced, Cursor.steps]
  filled piece := by
    rw [of_decide_eq_true piece, singleQuoted]
    split <;> exact List.cons_ne_nil _ _
  blank {_ char} piece head := by
    rw [of_decide_eq_true piece, singleQuoted] at head ⊢
    split at head
    · cases head
    · next other => rw [if_neg other]

theorem escapedChar?_of_width {letter : Char} {width : Nat}
    (numbered : escapeWidth? letter = some width) : escapedChar? letter = none := by
  unfold escapeWidth? at numbered
  split at numbered
  · rfl
  · rfl
  · rfl
  · cases numbered

theorem readsQuoted_double : ReadsQuoted readDoubleQuoted '"' isPiece where
  isMark := by decide
  close inside ahead apart := by
    rw [readDoubleQuoted, Cursor.atSeparator_of_inside inside, ahead]
    rfl
  gap {_ _ char _} inside ahead gap := by
    have other : char ≠ '"' ∧ char ≠ '\\' := by
      constructor <;> rintro rfl <;> cases gap
    rw [readDoubleQuoted, Cursor.atSeparator_of_inside inside, ahead]
    simp [other, gap]
  piece {fuel cursor text char rest} inside piece unbroken head ahead := by
    rw [readDoubleQuoted, Cursor.atSeparator_of_inside inside, ahead]
    unfold isPiece at piece
    split at piece
    · next raw =>
        simp only [Bool.and_eq_true, decide_eq_true_eq] at piece
        obtain ⟨⟨rfl, quote⟩, backslash⟩ := piece
        have spaced : (isGap raw || isBreak raw) = false :=
          Bool.or_eq_false_iff.mpr ⟨head, unbroken raw List.mem_cons_self⟩
        simp [backslash, spaced, Cursor.steps]
    · next letter digits =>
        have unbroken_letter : isBreak letter = false := unbroken letter (by simp)
        split at piece
        · next single =>
            subst single
            simp [unbroken_letter, of_decide_eq_true piece, Cursor.steps]
        · simp only [Bool.and_eq_true, decide_eq_true_eq] at piece
          obtain ⟨width_eq, code_eq⟩ := piece
          have code : charOfDigits? digits.length (digits ++ rest) = some char := by
            unfold charOfDigits? at code_eq ⊢
            rw [List.take_length] at code_eq
            rwa [List.take_left]
          simp [unbroken_letter, escapedChar?_of_width width_eq, width_eq, code,
            Option.map_eq_bind, Function.comp_def]
    · cases piece
  filled piece := by
    rintro rfl
    cases piece
  blank piece head := by
    unfold isPiece at piece
    split at piece
    · simp only [Bool.and_eq_true, decide_eq_true_eq] at piece
      rw [piece.1.1]
    · cases head
    · cases piece

/-! ## Tokens of scalars -/

namespace Spelling

variable {first : List Char} {others : List (List Char × List Char)}

theorem isProper_plain (proper : (plain first others).isProper = true) :
    startsPlain false (first ++ [' ']) = true ∧ first.head? ≠ some '\ufeff' ∧
      isWord first = true ∧ others.all (fun word =>
        word.1 ≠ [] && word.1.all isGap && isWord word.2 && word.2.head? ≠ some '#') = true := by
  simpa only [isProper, Bool.and_eq_true, decide_eq_true_eq, and_assoc] using proper

theorem startsToken_text (spelling : Spelling) (proper : spelling.isProper = true)
    (rest : List Char) : startsToken (spelling.text ++ rest) = true := by
  cases spelling with
  | plain first others =>
      obtain ⟨starts, unmarked, isWord_first, -⟩ := isProper_plain proper
      obtain ⟨char, more, rfl⟩ := List.exists_cons_of_ne_nil (ne_nil_of_isWord isWord_first)
      have spaced := unspaced_of_isWord isWord_first char List.mem_cons_self
      have hash : char ≠ '#' := by
        rintro rfl
        cases starts
      have bom : char ≠ '\ufeff' := fun same => unmarked (congrArg some same)
      simp [text, startsToken, Bool.or_eq_false_iff.mp spaced, hash, bom]
  | single chars => rfl
  | double pieces => rfl

theorem text_ne_nil {spelling : Spelling} (proper : spelling.isProper = true) :
    spelling.text ≠ [] := by
  cases spelling with
  | plain first others =>
      obtain ⟨-, -, isWord_first, -⟩ := isProper_plain proper
      exact List.append_ne_nil_of_left_ne_nil (ne_nil_of_isWord isWord_first) _
  | single chars => exact List.cons_ne_nil _ _
  | double pieces => exact List.cons_ne_nil _ _

theorem unbroken_further (proper : others.all (fun word =>
      word.1 ≠ [] && word.1.all isGap && isWord word.2 && word.2.head? ≠ some '#') = true) :
    ∀ char ∈ further others, isBreak char = false := by
  intro char among
  obtain ⟨word, member, among⟩ := List.mem_flatMap.mp among
  have shape := List.all_eq_true.mp proper word member
  simp only [Bool.and_eq_true, decide_eq_true_eq] at shape
  obtain ⟨⟨⟨-, gaps⟩, isWord_word⟩, -⟩ := shape
  obtain among | among := List.mem_append.mp among
  · exact isBreak_of_isGap (List.all_eq_true.mp gaps char among)
  · exact unbroken_of_isWord isWord_word char among

/-- A spelling stands on one line. -/
theorem unbroken_text {spelling : Spelling} (proper : spelling.isProper = true) :
    ∀ char ∈ spelling.text, isBreak char = false := by
  cases spelling with
  | plain first others =>
      obtain ⟨-, -, isWord_first, proper⟩ := isProper_plain proper
      exact List.forall_mem_append.mpr
        ⟨unbroken_of_isWord isWord_first, unbroken_further proper⟩
  | single chars =>
      simp only [isProper, List.all_eq_true, Bool.not_eq_true'] at proper
      simp only [text, List.forall_mem_cons, List.forall_mem_append, List.mem_flatMap]
      refine ⟨rfl, ?_, rfl, List.forall_mem_nil _⟩
      rintro char ⟨quoted, member, among⟩
      exact unbroken_of_singleQuoted (proper quoted member) char among
  | double pieces =>
      simp only [isProper, List.all_eq_true, Bool.and_eq_true, Bool.not_eq_true'] at proper
      simp only [text, List.forall_mem_cons, List.forall_mem_append, List.mem_flatMap]
      refine ⟨rfl, ?_, rfl, List.forall_mem_nil _⟩
      rintro char ⟨piece, member, among⟩
      exact (proper piece member).2 char among

section Starts

variable {word rest more : List Char} (starts : startsPlain false (word ++ [' ']) = true)

include starts

theorem unmarked_of_starts : word.head? ≠ some '#' := by
  cases word with
  | nil => nofun
  | cons char word =>
      rintro ⟨⟩
      cases starts

/-- A dash at the start of a plain scalar belongs to its first word. -/
theorem solid_of_starts (isWord_word : isWord word = true)
    (ahead : word ++ rest = '-' :: more) : endsWord more = false := by
  match word with
  | [] => cases isWord_word
  | ['-'] => cases starts
  | _ :: next :: word =>
      cases ahead
      exact unspaced_of_isWord isWord_word next (by simp)

end Starts

end Spelling

namespace Lexer

variable {lexer saved : Lexer} {spelling : Spelling} {rest : List Char} {fuel : Nat}

theorem saveKey_of_allowed (allowed : lexer.keysAllowed = true)
    (optional : lexer.key.any (·.required) = false) :
    lexer.saveKey = some { lexer with
      key := some ⟨!lexer.inFlow && lexer.columns.head? = some lexer.cursor.column,
        lexer.found.size, lexer.cursor⟩ } := by
  simp [saveKey, dropKey, allowed, optional]

theorem exists_key_of_saveKey (saves : lexer.saveKey = some saved) :
    ∃ key, saved = { lexer with key } := by
  unfold saveKey dropKey at saves
  split at saves
  · split at saves
    · cases saves
    · cases saves
      exact ⟨_, rfl⟩
  · cases saves
    exact ⟨_, rfl⟩

theorem readToken_of_plain (outer : lexer.outerKeys = [])
    (apart : lexer.cursor.atSeparator = false)
    (starts : startsPlain false lexer.cursor.ahead = true)
    (solid : ∀ more, lexer.cursor.ahead = '-' :: more → endsWord more = false) :
    lexer.readToken fuel = lexer.readPlainToken fuel := by
  have inFlow : lexer.inFlow = false := by rw [Lexer.inFlow, outer, List.isEmpty_nil, Bool.not_true]
  obtain ⟨starting, ending⟩ := Bool.or_eq_false_iff.mp apart
  cases ahead : lexer.cursor.ahead with
  | nil =>
      rw [ahead] at starts
      cases starts
  | cons char more =>
      rw [ahead] at starts
      have directive : char ≠ '%' := by
        rintro rfl
        cases starts
      unfold readToken
      simp only [Cursor.next?, ahead, List.head?_cons, Option.some.injEq, directive, decide_false,
        Bool.and_false, Bool.false_eq_true, if_false, starting, ending, inFlow, Bool.false_or]
      split
      case h_6 => simp [solid more ahead]
      case h_7 | h_8 =>
        have goes : endsWord more = false := by
          simpa [startsPlain, isGap, isBreak] using starts
        simp [goes]
      all_goals first
        | cases starts
        | rfl

/-- A lexer that has read a scalar. -/
def past (lexer : Lexer) (spelling : Spelling) : Lexer :=
  ((lexer.emit spelling.token).allow false).advance spelling.text.length

/-- The place behind a scalar that was read. A plain one may have been read with a part of the pause
that follows it. -/
structure StandsPast (next saved : Lexer) (spelling : Spelling) (rest : List Char) : Prop where
  skip_eq : next.skip = (saved.past spelling).skip
  shorter : next.cursor.ahead.length ≤ rest.length

theorem readToken_plain {first : List Char} {others : List (List Char × List Char)}
    (proper : (Spelling.plain first others).isProper = true)
    (ahead : lexer.cursor.ahead = (Spelling.plain first others).text ++ rest)
    (outer : lexer.outerKeys = []) (apart : lexer.cursor.atSeparator = false)
    (wide : lexer.margin ≤ lexer.cursor.column + 1)
    (follows : Follows lexer.margin
      (lexer.cursor.column + (Spelling.plain first others).text.length) rest)
    (enough : lexer.cursor.ahead.length < fuel) (saves : lexer.saveKey = some saved) :
    ∃ next, lexer.readToken fuel = some next ∧
      next.StandsPast saved (.plain first others) rest := by
  obtain ⟨starts, -, isWord_first, proper⟩ := Spelling.isProper_plain proper
  obtain ⟨key, saved_eq⟩ := exists_key_of_saveKey saves
  have cursor_eq : saved.cursor = lexer.cursor := by rw [saved_eq]
  have margin_eq : saved.margin = lexer.margin := by rw [saved_eq]; rfl
  have outer_saved : saved.outerKeys = [] := by rw [saved_eq, outer]
  have starts_ahead : startsPlain false lexer.cursor.ahead = true := by
    rw [ahead, Spelling.text, List.append_assoc]
    exact startsPlain_append starts (ne_nil_of_isWord isWord_first)
  have unmarked : first.head? ≠ some '#' := Spelling.unmarked_of_starts starts
  have solid (more : List Char) (ahead_eq : lexer.cursor.ahead = '-' :: more) :
      endsWord more = false := by
    rw [ahead, Spelling.text, List.append_assoc] at ahead_eq
    exact Spelling.solid_of_starts starts isWord_first ahead_eq
  have read : readPlain false lexer.margin fuel lexer.cursor =
      some (⟨first ++ Spelling.further others, (Gap.ofRun (leadingRun rest)).isBroken⟩,
        lexer.cursor.steps ((Spelling.plain first others).text.length +
          (leadingRun rest).length)) := by
    rw [readPlain, if_pos starts_ahead]
    refine readWords_append others proper isWord_first unmarked apart ahead wide follows ?_
    rw [ahead, List.length_append] at enough
    exact Nat.lt_of_le_of_lt (Nat.le_add_right _ _) enough
  obtain ⟨later, paused, -⟩ := follows.apart
  obtain ⟨-, ended, broken⟩ := run_of_pause 0 (spaces_leadingRun rest) paused
  have ahead_saved : saved.cursor.ahead = (Spelling.plain first others).text ++ rest := by
    rw [cursor_eq, ahead]
  have behind :
      (saved.past (.plain first others)).cursor.ahead = leadingRun rest ++ afterRun rest :=
    (Cursor.ahead_steps_append ahead_saved).trans List.takeWhile_append_dropWhile.symm
  have skipped : (saved.past (.plain first others)).skip =
      (((saved.past (.plain first others)).advance (leadingRun rest).length).allow
        later.fresh).skip :=
    skip_append outer_saved behind rfl rfl paused (.inl ended)
  refine ⟨((saved.past (.plain first others)).advance (leadingRun rest).length).allow later.fresh,
    ?_, skipped.symm, ?_⟩
  · rw [readToken_of_plain outer apart starts_ahead solid, readPlainToken, saves,
      Option.bind_eq_bind, Option.bind_some, Lexer.inFlow, outer_saved, margin_eq, cursor_eq]
    change (readPlain false lexer.margin fuel lexer.cursor).bind _ = _
    rw [read, Option.bind_some, Cursor.steps_add, broken, ← cursor_eq]
    rfl
  · have ahead_eq : (((saved.past (.plain first others)).advance (leadingRun rest).length).allow
        later.fresh).cursor.ahead = afterRun rest := Cursor.ahead_steps_append behind
    rw [ahead_eq]
    exact (List.dropWhile_sublist _).length_le

theorem readToken_of_quoted {read : Nat → Cursor → Option (List Char × Cursor)} {mark : Char}
    {isPiece : List Char → Char → Bool} (reads : ReadsQuoted read mark isPiece)
    (pieces : List (List Char × Char))
    (proper : ∀ piece ∈ pieces, isPiece piece.1 piece.2 = true ∧
      ∀ char ∈ piece.1, isBreak char = false)
    (text_eq : spelling.text = mark :: (pieces.flatMap (·.1) ++ [mark]))
    (chars_eq : spelling.chars = pieces.map (·.2)) (style_eq : spelling.style = .quoted)
    (dispatched : lexer.readToken fuel = lexer.readKeyable (readQuotedToken (read fuel)))
    (ahead : lexer.cursor.ahead = spelling.text ++ rest) (apart : rest.head? ≠ some mark)
    (enough : lexer.cursor.ahead.length < fuel) (saves : lexer.saveKey = some saved) :
    ∃ next, lexer.readToken fuel = some next ∧ next.StandsPast saved spelling rest := by
  have ahead_step : lexer.cursor.step.ahead = pieces.flatMap (·.1) ++ mark :: rest := by
    rw [Cursor.ahead_step, ahead, text_eq]
    simp
  have unbroken : isBreak mark = false := (Bool.or_eq_false_iff.mp reads.isMark).2
  have inside : lexer.cursor.step.column ≠ 0 := by
    rw [text_eq] at ahead
    rw [Cursor.step_of_unbroken ahead unbroken]
    exact Nat.succ_ne_zero _
  have filled := reads.length_le_flatMap pieces fun piece among => (proper piece among).1
  have reading : read fuel lexer.cursor.step =
      some (pieces.map (·.2), lexer.cursor.step.steps ((pieces.flatMap (·.1)).length + 1)) := by
    refine reads.read_append pieces proper inside ahead_step apart ?_
    rw [ahead, text_eq] at enough
    simp only [List.length_append, List.length_cons] at enough
    omega
  obtain ⟨key, saved_eq⟩ := exists_key_of_saveKey saves
  have cursor_eq : saved.cursor = lexer.cursor := by rw [saved_eq]
  have ahead_saved : saved.cursor.ahead = spelling.text ++ rest := by rw [cursor_eq, ahead]
  refine ⟨saved.past spelling, ?_, rfl,
    (Cursor.ahead_steps_append ahead_saved).symm ▸ Nat.le_refl _⟩
  rw [dispatched, readKeyable, saves, Option.bind_eq_bind, Option.bind_some, readQuotedToken,
    cursor_eq, reading, past, Spelling.token, style_eq, chars_eq, text_eq]
  simp [advance, Cursor.steps, emit, allow, cursor_eq]

/-- A scalar that stands on one line, and is not continued by what follows, is read as what it
stands for. -/
theorem readToken_spelling (proper : spelling.isProper = true)
    (ahead : lexer.cursor.ahead = spelling.text ++ rest) (outer : lexer.outerKeys = [])
    (apart : lexer.cursor.atSeparator = false) (wide : lexer.margin ≤ lexer.cursor.column + 1)
    (follows : Follows lexer.margin (lexer.cursor.column + spelling.text.length) rest)
    (enough : lexer.cursor.ahead.length < fuel) (saves : lexer.saveKey = some saved) :
    ∃ next, lexer.readToken fuel = some next ∧ next.StandsPast saved spelling rest := by
  obtain ⟨starting, ending⟩ := Bool.or_eq_false_iff.mp apart
  cases spelling with
  | plain first others =>
      exact readToken_plain proper ahead outer apart wide follows enough saves
  | single chars =>
      have text_eq : (Spelling.single chars).text = '\x27' ::
          ((chars.map fun char => (singleQuoted char, char)).flatMap (·.1) ++ ['\x27']) := by
        rw [Spelling.text, List.flatMap_map]
      refine readToken_of_quoted readsQuoted_single
        (chars.map fun char => (singleQuoted char, char)) ?_ text_eq ?_ rfl ?_ ahead
        (follows.head?_ne (by decide)) enough saves
      · simp only [Spelling.isProper, List.all_eq_true, Bool.not_eq_true'] at proper
        simp only [List.forall_mem_map, decide_true, true_and]
        exact fun char among => unbroken_of_singleQuoted (proper char among)
      · rw [List.map_map]
        exact (List.map_id _).symm
      · rw [Spelling.text, List.cons_append] at ahead
        unfold readToken
        simp [Cursor.next?, ahead, starting, ending]
  | double pieces =>
      refine readToken_of_quoted readsQuoted_double pieces ?_ rfl rfl rfl ?_ ahead
        (follows.head?_ne (by decide)) enough saves
      · simpa only [Spelling.isProper, List.all_eq_true, Bool.and_eq_true, Bool.not_eq_true']
          using proper
      · rw [Spelling.text, List.cons_append] at ahead
        unfold readToken
        simp [Cursor.next?, ahead, starting, ending]

end Lexer

end ImageGallery.Yaml
