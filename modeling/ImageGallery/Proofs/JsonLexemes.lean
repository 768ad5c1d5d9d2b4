import ImageGallery.Proofs.JsonText

/-!
# Strings and numerals as they are written

A string is written as characters that stand for themselves, short escapes and code units in four
digits, and a numeral as digits with an optional sign, fraction and exponent. Both are read on their
own: what is read does not depend on the text that goes on behind them. A string that is kept may
still be refused for its surrogates, and a numeral for its size.
-/

namespace ImageGallery.Json

/-! ## Strings -/

section Characters

variable {care : Care} {text rest : List Char}

/-- The rest of a string after its opening quote, up to the closing one. -/
inductive Characters : List Char → Prop where
  | close : Characters ['"']
  | plain {char : Char} {rest : List Char}
      (plain : char ≠ '"' ∧ char ≠ '\\' ∧ 0x20 ≤ char.toNat) (others : Characters rest) :
      Characters (char :: rest)
  | short {letter char : Char} {rest : List Char} (known : shortEscape? letter = some char)
      (others : Characters rest) : Characters ('\\' :: letter :: rest)
  | unit {a b c d : Char} {unit : Nat} {rest : List Char} (known : codeUnit? a b c d = some unit)
      (others : Characters rest) : Characters ('\\' :: 'u' :: a :: b :: c :: d :: rest)

theorem readCharacters_plain {char : Char}
    (plain : char ≠ '"' ∧ char ≠ '\\' ∧ 0x20 ≤ char.toNat) (rest : List Char) :
    readCharacters care (char :: rest) = prepend char (readCharacters care rest) := by
  obtain ⟨quote, backslash, printable⟩ := plain
  rw [readCharacters.eq_5]
  · rw [if_neg]
    rintro (escape | control)
    · exact backslash escape
    · omega
  · exact quote
  · intro _ _ _ _ _ escape
    exact absurd escape backslash
  · intro _ _ escape
    exact absurd escape backslash

theorem readCharacters_short {letter char : Char} (known : shortEscape? letter = some char)
    (rest : List Char) :
    readCharacters care ('\\' :: letter :: rest) = prepend char (readCharacters care rest) := by
  rw [readCharacters.eq_4, known]
  rintro _ _ _ _ _ rfl
  cases known

/-- What is read from a text, with what stands behind it. -/
def Reading.leaving {α : Type} (outcome : Reading α) (rest : List Char) :
    Reading (α × List Char) :=
  outcome.map fun value => (value, rest)

theorem prepend_leaving (char : Char) (outcome : Reading (List Char)) (rest : List Char) :
    prepend char (Reading.leaving outcome rest) =
      Reading.leaving (outcome.map (char :: ·)) rest := by
  cases outcome <;> rfl

/-- The characters of a string are read on their own, and skipped without a fault. -/
def CharactersAlone (care : Care) (text : List Char) : Prop :=
  ∃ outcome : Reading (List Char),
    (∀ rest, readCharacters care (text ++ rest) = Reading.leaving outcome rest) ∧
      (care = .skipped → ∃ contents, outcome = .ok contents)

theorem CharactersAlone.of_prepend {char : Char} (alone : CharactersAlone care rest)
    (read : ∀ behind, readCharacters care (text ++ behind) =
      prepend char (readCharacters care (rest ++ behind))) :
    CharactersAlone care text := by
  obtain ⟨outcome, outcome_eq, skipped⟩ := alone
  refine ⟨outcome.map (char :: ·), fun behind => ?_, fun care_eq => ?_⟩
  · rw [read, outcome_eq, prepend_leaving]
  · obtain ⟨contents, rfl⟩ := skipped care_eq
    exact ⟨char :: contents, rfl⟩

theorem CharactersAlone.of_error
    (read : ∀ behind, readCharacters .kept (text ++ behind) = .error .malformed) :
    CharactersAlone .kept text :=
  ⟨.error .malformed, read, nofun⟩

section Units

variable {a b c d : Char} {unit : Nat}

theorem readCharacters_skipped (known : codeUnit? a b c d = some unit) (rest : List Char) :
    readCharacters .skipped ('\\' :: 'u' :: a :: b :: c :: d :: rest) =
      readCharacters .skipped rest := by
  rw [readCharacters.eq_3, known]
  rfl

/-- A unit that is no first half of a pair is kept unless it is a second one. -/
theorem readCharacters_unit (known : codeUnit? a b c d = some unit)
    (single : isLeading unit = false) (rest : List Char) :
    readCharacters .kept ('\\' :: 'u' :: a :: b :: c :: d :: rest) =
      if isTrailing unit then .error .malformed
      else prepend (Char.ofNat unit) (readCharacters .kept rest) := by
  rw [readCharacters.eq_3, known]
  simp [single]

theorem readCharacters_pair {e f g h : Char} {second : Nat}
    (known : codeUnit? a b c d = some unit) (leading : isLeading unit = true)
    (knownToo : codeUnit? e f g h = some second) (rest : List Char) :
    readCharacters .kept
        ('\\' :: 'u' :: a :: b :: c :: d :: '\\' :: 'u' :: e :: f :: g :: h :: rest) =
      if isTrailing second then
        prepend (Char.ofNat (0x10000 + (unit - 0xD800) * 0x400 + (second - 0xDC00)))
          (readCharacters .kept rest)
      else .error .malformed := by
  rw [readCharacters.eq_3, known]
  simp [leading, knownToo]

theorem readCharacters_half (known : codeUnit? a b c d = some unit)
    (leading : isLeading unit = true)
    (alone : ∀ e f g h tail, rest ≠ '\\' :: 'u' :: e :: f :: g :: h :: tail) :
    readCharacters .kept ('\\' :: 'u' :: a :: b :: c :: d :: rest) = .error .malformed := by
  rw [readCharacters.eq_3, known]
  simp only [reduceCtorEq, if_false, leading, if_true]

/-- The first half of a pair is read together with the second one, or refused. -/
theorem Characters.alone_of_leading (others : Characters rest)
    (known : codeUnit? a b c d = some unit) (leading : isLeading unit = true)
    (later : ∀ a b c d tail, rest = '\\' :: 'u' :: a :: b :: c :: d :: tail →
      CharactersAlone .kept tail) :
    CharactersAlone .kept ('\\' :: 'u' :: a :: b :: c :: d :: rest) := by
  cases others with
  | close =>
      refine .of_error fun behind => readCharacters_half known leading ?_
      rintro _ _ _ _ _ ⟨⟩
  | plain plain _ =>
      refine .of_error fun behind => readCharacters_half known leading ?_
      intro _ _ _ _ _ same
      exact plain.2.1 (List.cons_eq_cons.mp same).1
  | short knownToo _ =>
      refine .of_error fun behind => readCharacters_half known leading ?_
      intro _ _ _ _ _ same
      rw [(List.cons_eq_cons.mp (List.cons_eq_cons.mp same).2).1] at knownToo
      cases knownToo
  | @unit _ _ _ _ second _ knownToo _ =>
      have pair := readCharacters_pair known leading knownToo
      cases trailing : isTrailing second with
      | true =>
          simp only [trailing, if_true] at pair
          exact (later _ _ _ _ _ rfl).of_prepend fun behind => pair _
      | false =>
          simp only [trailing, Bool.false_eq_true, if_false] at pair
          exact .of_error fun behind => pair _

/-- A unit that is no first half of a pair is read by itself, or refused. -/
theorem CharactersAlone.of_single (alone : CharactersAlone .kept rest)
    (known : codeUnit? a b c d = some unit) (single : isLeading unit = false) :
    CharactersAlone .kept ('\\' :: 'u' :: a :: b :: c :: d :: rest) := by
  have read := readCharacters_unit known single
  cases trailing : isTrailing unit with
  | true =>
      simp only [trailing, if_true] at read
      exact .of_error fun behind => read _
  | false =>
      simp only [trailing, Bool.false_eq_true, if_false] at read
      exact alone.of_prepend fun behind => read _

end Units

theorem Characters.alone (characters : Characters text) (care : Care) :
    CharactersAlone care text := by
  -- A unit may need the one behind it, so what follows a unit is taken along.
  suffices both : CharactersAlone care text ∧
      ∀ a b c d rest, text = '\\' :: 'u' :: a :: b :: c :: d :: rest →
        CharactersAlone care rest from both.1
  induction characters with
  | close =>
      refine ⟨⟨.ok [], fun rest => readCharacters.eq_2 care rest, fun _ => ⟨[], rfl⟩⟩, ?_⟩
      rintro _ _ _ _ _ ⟨⟩
  | plain plain _ ih =>
      refine ⟨ih.1.of_prepend fun behind => readCharacters_plain plain _, ?_⟩
      rintro _ _ _ _ _ ⟨⟩
      exact absurd rfl plain.2.1
  | short known _ ih =>
      refine ⟨ih.1.of_prepend fun behind => readCharacters_short known _, ?_⟩
      rintro _ _ _ _ _ ⟨⟩
      cases known
  | @unit a b c d unit rest known others ih =>
      refine ⟨?_, ?_⟩
      · cases care with
        | skipped =>
            obtain ⟨outcome, outcome_eq, skipped⟩ := ih.1
            refine ⟨outcome, fun behind => ?_, skipped⟩
            rw [← outcome_eq]
            exact readCharacters_skipped known _
        | kept =>
            cases leading : isLeading unit with
            | false => exact ih.1.of_single known leading
            | true => exact others.alone_of_leading known leading ih.2
      · rintro _ _ _ _ _ ⟨⟩
        exact ih.1

end Characters

/-- A string between quotes. -/
structure Quoted where
  inner : List Char
  characters : Characters inner

namespace Quoted

def text (string : Quoted) : List Char :=
  '"' :: string.inner

theorem skipGap_text (string : Quoted) (rest : List Char) :
    skipGap (string.text ++ rest) = string.text ++ rest :=
  skipGap_cons (by decide) _

/-- The contents of the string, unless they are refused. -/
def contents? (string : Quoted) : Option String :=
  (readString .kept string.text).toOption.map (·.1)

theorem alone (string : Quoted) (care : Care) :
    ∃ outcome : Reading String,
      (∀ rest, readString care (string.text ++ rest) = Reading.leaving outcome rest) ∧
        (care = .skipped → ∃ contents, outcome = .ok contents) := by
  obtain ⟨outcome, outcome_eq, skipped⟩ := string.characters.alone care
  refine ⟨outcome.map String.ofList, fun rest => ?_, fun care_eq => ?_⟩
  · rw [text, List.cons_append, readString, outcome_eq]
    cases outcome <;> rfl
  · obtain ⟨contents, rfl⟩ := skipped care_eq
    exact ⟨String.ofList contents, rfl⟩

theorem toOption_readString (string : Quoted) (rest : List Char) :
    (readString .kept (string.text ++ rest)).toOption = string.contents?.map (·, rest) := by
  obtain ⟨outcome, outcome_eq, -⟩ := string.alone .kept
  have empty := outcome_eq []
  rw [List.append_nil] at empty
  rw [contents?, outcome_eq, empty]
  cases outcome <;> rfl

theorem readString_of_contents {string : Quoted} {contents : String}
    (known : string.contents? = some contents) (rest : List Char) :
    readString .kept (string.text ++ rest) = .ok (contents, rest) := by
  have read := string.toOption_readString rest
  rw [known] at read
  rcases answer : readString .kept (string.text ++ rest) with fault | found <;>
    rw [answer] at read <;> cases read
  rfl

theorem readString_of_refused {string : Quoted} (refused : string.contents? = none)
    (rest : List Char) : ∃ fault, readString .kept (string.text ++ rest) = .error fault := by
  have read := string.toOption_readString rest
  rw [refused] at read
  rcases answer : readString .kept (string.text ++ rest) with fault | found <;>
    rw [answer] at read <;> cases read
  exact ⟨fault, rfl⟩

/-- Every string is written in some way. -/
theorem characters_escape (chars : List Char) : Characters (chars.flatMap escape ++ ['"']) := by
  induction chars with
  | nil => exact .close
  | cons char chars ih =>
      rw [List.flatMap_cons, List.append_assoc]
      obtain ⟨letter, escaped, back⟩ | ⟨a, b, c, d, escaped, known, -⟩ | ⟨itself, plain⟩ :=
        escape_cases char
      · rw [escaped]
        exact .short back ih
      · rw [escaped]
        exact .unit known ih
      · rw [itself]
        exact .plain plain ih

/-- The string as it is printed. -/
def printed (contents : String) : Quoted where
  inner := contents.toList.flatMap escape ++ ['"']
  characters := characters_escape contents.toList

theorem contents?_printed (contents : String) : (printed contents).contents? = some contents := by
  have read := readString_printString contents []
  rw [List.append_nil] at read
  rw [contents?]
  change (readString .kept (printString contents)).toOption.map _ = _
  rw [read]
  rfl

end Quoted

/-! ## Numerals -/

theorem ne_sign_of_isDigit {char : Char} (digit : char.isDigit = true) :
    char ≠ '+' ∧ char ≠ '-' := by
  constructor <;>
  · rintro rfl
    exact absurd digit (by decide)

/-- One or more digits. -/
structure Digits where
  chars : List Char
  nonempty : chars ≠ []
  all : ∀ char ∈ chars, char.isDigit = true

namespace Digits

/-- The number that the digits make up. -/
def value (digits : Digits) : Nat :=
  Text.appendDigits 0 digits.chars

/-- The digits of a natural number. -/
def ofNat (value : Nat) : Digits where
  chars := Text.naturalText value
  nonempty := Nat.toDigits_ne_nil
  all _ mem := Text.isDigit_of_mem_naturalText mem

theorem value_ofNat (value : Nat) : (ofNat value).value = value :=
  Nat.ofDigitChars_ten_toDigits

theorem exists_cons (digits : Digits) :
    ∃ first others, digits.chars = first :: others ∧ first.isDigit = true := by
  obtain ⟨first, others, shape⟩ := List.exists_cons_of_ne_nil digits.nonempty
  exact ⟨first, others, shape, digits.all first (shape ▸ List.mem_cons_self)⟩

theorem readPower_append (digits : Digits) (negative : Bool) {rest : List Char}
    (stops : Stops rest) :
    readPower negative (digits.chars ++ rest) =
      .ok (some (if negative then -(digits.value : Int) else digits.value), rest) := by
  have split := splitDigits_append digits.all fun char tail same => (stops char tail same).1
  obtain ⟨first, others, shape, -⟩ := digits.exists_cons
  rw [readPower, split, value, shape]

end Digits

/-- A sign, which may be left out. -/
inductive Sign where
  | none
  | plus
  | minus
deriving DecidableEq

namespace Sign

def text : Sign → List Char
  | none => []
  | plus => ['+']
  | minus => ['-']

/-- The number with the sign. -/
def apply : Sign → Nat → Int
  | minus, value => -value
  | _, value => value

end Sign

/-- An exponent after its marker. -/
structure Exponent where
  marker : Char
  isMarker : marker = 'e' ∨ marker = 'E'
  sign : Sign
  digits : Digits

namespace Exponent

def text (exponent : Exponent) : List Char :=
  exponent.marker :: (exponent.sign.text ++ exponent.digits.chars)

/-- The power of ten. -/
def power (exponent : Exponent) : Int :=
  exponent.sign.apply exponent.digits.value

theorem readExponent_append (exponent : Exponent) {rest : List Char} (stops : Stops rest) :
    readExponent (exponent.text ++ rest) = .ok (some exponent.power, rest) := by
  obtain ⟨marker, isMarker, sign, digits⟩ := exponent
  rw [text, List.cons_append, List.append_assoc]
  unfold readExponent
  dsimp only
  rw [if_pos isMarker]
  cases sign with
  | plus => exact digits.readPower_append false stops
  | minus => exact digits.readPower_append true stops
  | none =>
      have read := digits.readPower_append false stops
      obtain ⟨first, others, shape, isDigit⟩ := digits.exists_cons
      rw [shape, List.cons_append] at read
      rw [shape, Sign.text, List.nil_append, List.cons_append]
      obtain ⟨noPlus, noMinus⟩ := ne_sign_of_isDigit isDigit
      split
      · rename_i signed
        exact absurd (List.cons_eq_cons.mp signed).1 noPlus
      · rename_i signed
        exact absurd (List.cons_eq_cons.mp signed).1 noMinus
      · exact read

end Exponent

/-- A numeral as it is written. -/
structure NumeralText where
  negative : Bool
  whole : Digits
  /-- No zero stands in front of another digit. -/
  unpadded : ∀ digit digits, whole.chars ≠ '0' :: digit :: digits
  fraction : Option Digits
  exponent : Option Exponent

namespace NumeralText

def signText (numeral : NumeralText) : List Char :=
  if numeral.negative then ['-'] else []

def fractionText (numeral : NumeralText) : List Char :=
  match numeral.fraction with
  | some digits => '.' :: digits.chars
  | none => []

def exponentText (numeral : NumeralText) : List Char :=
  match numeral.exponent with
  | some exponent => exponent.text
  | none => []

def text (numeral : NumeralText) : List Char :=
  numeral.signText ++ (numeral.whole.chars ++ (numeral.fractionText ++ numeral.exponentText))

/-- The digits of the fraction. -/
def fractionDigits (numeral : NumeralText) : List Char :=
  (numeral.fraction.map (·.chars)).getD []

/-- The numeral that a reader takes the text for. -/
def numeral (numeral : NumeralText) : Numeral :=
  .ofParts numeral.negative numeral.whole.chars numeral.fractionDigits
    (numeral.exponent.map (·.power))

section Reading

variable {care : Care} {rest : List Char}

theorem readExponent_append (numeral : NumeralText) (stops : Stops rest) :
    readExponent (numeral.exponentText ++ rest) =
      .ok (numeral.exponent.map (·.power), rest) := by
  unfold exponentText
  rcases numeral.exponent with _ | exponent
  · exact stops.readExponent_eq
  · exact exponent.readExponent_append stops

/-- Neither a digit nor a point stands behind a fraction. -/
theorem first_exponentText (numeral : NumeralText) (stops : Stops rest) {char : Char}
    {tail : List Char} (same : numeral.exponentText ++ rest = char :: tail) :
    char.isDigit = false ∧ char ≠ '.' := by
  rcases written : numeral.exponent with _ | exponent <;> rw [exponentText, written] at same
  · obtain ⟨noDigit, noPoint, -⟩ := stops char tail same
    exact ⟨noDigit, noPoint⟩
  · rw [← (List.cons_eq_cons.mp same).1]
    rcases exponent.isMarker with marker | marker <;> rw [marker] <;> decide

/-- No digit stands behind an integer part. -/
theorem first_fractionText (numeral : NumeralText) (stops : Stops rest) {char : Char}
    {tail : List Char}
    (same : numeral.fractionText ++ (numeral.exponentText ++ rest) = char :: tail) :
    char.isDigit = false := by
  rcases written : numeral.fraction with _ | digits <;> rw [fractionText, written] at same
  · exact (numeral.first_exponentText stops same).1
  · rw [← (List.cons_eq_cons.mp same).1]
    decide

theorem readFraction_append (numeral : NumeralText) (stops : Stops rest) :
    readFraction (numeral.fractionText ++ (numeral.exponentText ++ rest)) =
      .ok (numeral.fractionDigits, numeral.exponentText ++ rest) := by
  rcases written : numeral.fraction with _ | digits <;>
    rw [fractionText, fractionDigits, written]
  · unfold readFraction
    dsimp only [List.nil_append]
    split
    · rename_i pointed
      exact absurd rfl (numeral.first_exponentText stops pointed).2
    · rfl
  · have split := splitDigits_append digits.all fun char tail same =>
      (numeral.first_exponentText stops same).1
    obtain ⟨first, others, shape, -⟩ := digits.exists_cons
    dsimp only
    rw [List.cons_append, readFraction, split, Option.map_some, Option.getD_some, shape]

theorem readWhole_append (numeral : NumeralText) (stops : Stops rest) :
    readWhole (numeral.whole.chars ++ (numeral.fractionText ++ (numeral.exponentText ++ rest))) =
      .ok (numeral.whole.chars, numeral.fractionText ++ (numeral.exponentText ++ rest)) := by
  have split := splitDigits_append numeral.whole.all fun char tail same =>
    numeral.first_fractionText stops same
  rw [readWhole, split]
  split
  · rename_i empty
    exact absurd (congrArg Prod.fst empty) numeral.whole.nonempty
  · rename_i padded
    exact absurd (congrArg Prod.fst padded) (numeral.unpadded _ _)
  · rfl

/-- A numeral is read as a whole, and refused if it is kept and too large. -/
theorem readNumeral_append (numeral : NumeralText) (care : Care) (stops : Stops rest) :
    readNumeral care (numeral.text ++ rest) =
      if care = .skipped ∨ numeral.numeral.toBinary64?.isSome then .ok (numeral.numeral, rest)
      else .error .malformed := by
  have unsigned : readUnsigned care numeral.negative
      (numeral.whole.chars ++ (numeral.fractionText ++ (numeral.exponentText ++ rest))) =
        if care = .skipped ∨ numeral.numeral.toBinary64?.isSome then .ok (numeral.numeral, rest)
        else .error .malformed := by
    rw [readUnsigned, numeral.readWhole_append stops]
    simp only [bind, Except.bind]
    rw [numeral.readFraction_append stops]
    simp only [numeral.readExponent_append stops]
    rfl
  rw [text, List.append_assoc, List.append_assoc, List.append_assoc, signText]
  cases negative : numeral.negative with
  | true =>
      rw [negative] at unsigned
      exact unsigned
  | false =>
      rw [negative] at unsigned
      obtain ⟨first, others, shape, isDigit⟩ := numeral.whole.exists_cons
      rw [← unsigned, if_neg Bool.false_ne_true, List.nil_append, shape]
      unfold readNumeral
      split
      · rename_i signed
        exact absurd (List.cons_eq_cons.mp signed).1 (ne_sign_of_isDigit isDigit).2
      · rfl

theorem exists_first (numeral : NumeralText) :
    ∃ first others, numeral.text = first :: others ∧ (first.isDigit = true ∨ first = '-') := by
  rw [text, signText]
  cases numeral.negative with
  | true => exact ⟨_, _, rfl, .inr rfl⟩
  | false =>
      obtain ⟨first, others, shape, isDigit⟩ := numeral.whole.exists_cons
      rw [shape]
      exact ⟨first, _, rfl, .inl isDigit⟩

end Reading

end NumeralText

end ImageGallery.Json
