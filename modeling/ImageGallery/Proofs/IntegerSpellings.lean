import ImageGallery.Proofs.JsonGrammar
import ImageGallery.Proofs.NearestNumbers

/-!
# Spellings of integers

A client writes an integer of 64 bits as a numeral without a fraction and an exponent, as a string
of digits with a sign, leading zeros and blanks around them, or as any other numeral of this value
that is read as the nearest binary number. Each spelling is coerced to the integer.
-/

namespace ImageGallery

/-! ## Strings of digits -/

namespace Text

theorem isBlank_of_isDigit {char : Char} (digit : char.isDigit = true) :
    isBlank char = false := by
  simp only [Char.isDigit, Bool.and_eq_true, decide_eq_true_eq, ge_iff_le, UInt32.le_iff_toNat_le]
    at digit
  simp only [isBlank, blankRanges, List.any_cons, List.any_nil, Bool.or_false, Bool.or_eq_false_iff,
    Bool.and_eq_false_iff, decide_eq_false_iff_not, Char.toNat]
  have low : '0'.val.toNat = 48 := rfl
  have high : '9'.val.toNat = 57 := rfl
  omega

theorem dropWhile_blank_append {blanks chars : List Char}
    (blank : ∀ char ∈ blanks, isBlank char = true)
    (first : ∀ char ∈ chars.head?, isBlank char = false) :
    (blanks ++ chars).dropWhile isBlank = chars := by
  rw [List.dropWhile_append_of_pos blank]
  cases chars with
  | nil => rfl
  | cons char chars => rw [List.dropWhile_cons, first char rfl, if_neg Bool.false_ne_true]

/-- Blanks around a text that neither starts nor ends with one are dropped. -/
theorem trimBlank_append {before core behind : List Char} (nonempty : core ≠ [])
    (blankBefore : ∀ char ∈ before, isBlank char = true)
    (blankBehind : ∀ char ∈ behind, isBlank char = true)
    (first : ∀ char ∈ core.head?, isBlank char = false)
    (last : ∀ char ∈ core.getLast?, isBlank char = false) :
    trimBlank (before ++ (core ++ behind)) = core := by
  have start : (core ++ behind).head? = core.head? := by
    rw [List.head?_append_of_ne_nil _ nonempty]
  rw [trimBlank, dropWhile_blank_append blankBefore (start ▸ first), List.reverse_append,
    dropWhile_blank_append, List.reverse_reverse]
  · simpa only [List.mem_reverse] using blankBehind
  · rwa [List.head?_reverse]

end Text

/-- An integer as a string of digits, between blanks. -/
structure DigitText where
  before : List Char
  sign : Json.Sign
  digits : Json.Digits
  behind : List Char
  blank_before : ∀ char ∈ before, Text.isBlank char = true
  blank_behind : ∀ char ∈ behind, Text.isBlank char = true

namespace DigitText

/-- The integer without the blanks. -/
def core (text : DigitText) : List Char :=
  text.sign.text ++ text.digits.chars

def chars (text : DigitText) : List Char :=
  text.before ++ (text.core ++ text.behind)

def value (text : DigitText) : Int :=
  text.sign.apply text.digits.value

theorem trimBlank_chars (text : DigitText) : Text.trimBlank text.chars = text.core := by
  obtain ⟨first, others, shape, isDigit⟩ := text.digits.exists_cons
  have nonempty : text.core ≠ [] := by simp [core, shape]
  refine Text.trimBlank_append nonempty text.blank_before text.blank_behind ?_ ?_
  · intro char mem
    rcases sign : text.sign with _ | _ | _ <;> rw [core, shape, sign] at mem <;> cases mem
    · exact Text.isBlank_of_isDigit isDigit
    · decide
    · decide
  · intro char mem
    rw [core, List.getLast?_append_of_ne_nil _ text.digits.nonempty] at mem
    exact Text.isBlank_of_isDigit (text.digits.all char (List.mem_of_getLast? mem))

/-- The integer is read as its value, however large it is. -/
theorem readInteger?_core (text : DigitText) : Text.readInteger? text.core = some text.value := by
  have natural : Text.readNatural? text.digits.chars = some text.digits.value :=
    if_pos ⟨text.digits.nonempty, List.all_eq_true.mpr text.digits.all⟩
  obtain ⟨first, others, shape, isDigit⟩ := text.digits.exists_cons
  rw [core, value]
  rcases text.sign with _ | _ | _
  · rw [shape] at natural
    rw [Json.Sign.text, List.nil_append, shape]
    obtain ⟨noPlus, noMinus⟩ := Json.ne_sign_of_isDigit isDigit
    unfold Text.readInteger?
    split
    · rename_i signed
      exact absurd (List.cons_eq_cons.mp signed).1 noPlus
    · rename_i signed
      exact absurd (List.cons_eq_cons.mp signed).1 noMinus
    · rw [natural]
      rfl
  · exact congrArg (Option.map Int.ofNat) natural
  · exact congrArg (Option.map fun value => -Int.ofNat value) natural

end DigitText

/-! ## Numerals -/

theorem Json.Numeral.toBinary64?_ofParts (negative : Bool) {whole fraction : List Char}
    (power : Option Int)
    (small : Text.appendDigits 0 (whole ++ fraction) < room) :
    (ofParts negative whole fraction power).toBinary64? =
      Number.Binary64.ofScientific? negative (Text.appendDigits 0 (whole ++ fraction))
        (power.getD 0 - fraction.length) := by
  rw [Text.appendDigits, List.foldl_append, ← Text.appendDigits, ← Text.appendDigits] at small ⊢
  have first := (start_le_appendDigits _ fraction).trans_lt small
  rw [ofParts, appendWithRoom_eq first]
  by_cases integral : fraction = [] ∧ power = none
  · obtain ⟨rfl, rfl⟩ := integral
    rfl
  · dsimp only
    rw [if_neg fun parts => integral ⟨parts.1, parts.2.1⟩, appendWithRoom_eq small]
    simp [toBinary64?]

namespace Json.NumeralText

/-- The number that the text denotes: its digits times a power of ten. -/
def value (numeral : NumeralText) : ℚ :=
  (if numeral.negative then -1 else 1) *
    (Text.appendDigits 0 (numeral.whole.chars ++ numeral.fractionDigits) *
      10 ^ ((numeral.exponent.map (·.power)).getD 0 - numeral.fractionDigits.length))

/-- A numeral without a fraction and an exponent. -/
structure Integral (numeral : NumeralText) : Prop where
  fraction_eq : numeral.fraction = none
  exponent_eq : numeral.exponent = none

/-- The numeral is read as the nearest binary number. -/
def ReadsNearest (numeral : NumeralText) : Prop :=
  ∃ number, numeral.numeral.toBinary64? = some number ∧ number.Nearest numeral.value

theorem Integral.value_eq {numeral : NumeralText} (integral : numeral.Integral) :
    numeral.value = ((if numeral.negative then -(numeral.whole.value : Int)
      else numeral.whole.value : Int) : ℚ) := by
  rw [NumeralText.value, fractionDigits, integral.fraction_eq, integral.exponent_eq]
  cases numeral.negative <;> simp [Digits.value]

/-- An integral numeral keeps all its digits if they make up a number of 64 bits. -/
theorem Integral.numeral_eq {numeral : NumeralText} (integral : numeral.Integral)
    (small : numeral.whole.value < Numeral.room) :
    numeral.numeral = .integer numeral.negative numeral.whole.value := by
  rw [NumeralText.numeral, fractionDigits, integral.fraction_eq, integral.exponent_eq,
    Numeral.ofParts, appendWithRoom_eq small]
  simp [Digits.value]

/-- A numeral with a fraction or an exponent is a decimal one. -/
theorem exists_decimal {numeral : NumeralText} (decimal : ¬numeral.Integral) :
    ∃ negative digits exponent, numeral.numeral = .decimal negative digits exponent := by
  have parts : ¬(numeral.fractionDigits = [] ∧ numeral.exponent.map (·.power) = none) := by
    rintro ⟨noFraction, noPower⟩
    refine decimal ⟨?_, Option.map_eq_none_iff.mp noPower⟩
    rcases written : numeral.fraction with _ | digits
    · rfl
    · rw [fractionDigits, written] at noFraction
      exact absurd noFraction digits.nonempty
  rw [NumeralText.numeral, Numeral.ofParts]
  dsimp only
  rw [if_neg fun whole => parts ⟨whole.1, whole.2.1⟩]
  exact ⟨_, _, _, rfl⟩

/-- The numeral keeps all its digits, and they and its power of ten are held exactly. -/
structure Short (numeral : NumeralText) : Prop where
  digits_lt : Text.appendDigits 0 (numeral.whole.chars ++ numeral.fractionDigits) < 2 ^ 53
  power_le : ((numeral.exponent.map (·.power)).getD 0 - numeral.fractionDigits.length).natAbs ≤
    Number.Binary64.exactPower

/-- A short numeral of an integer is read as it, so that nothing is to be assumed of it. -/
theorem Short.readsNearest {numeral : NumeralText} (short : numeral.Short) {value : Int}
    (denotes : numeral.value = value) (small : value.natAbs ≤ 2 ^ 53) : numeral.ReadsNearest := by
  obtain ⟨other, representable, same⟩ := Number.Binary64.exists_representable small
  have size : other.size = Text.appendDigits 0 (numeral.whole.chars ++ numeral.fractionDigits) *
      10 ^ ((numeral.exponent.map (·.power)).getD 0 - numeral.fractionDigits.length) := by
    have nonneg : (0 : ℚ) ≤
        Text.appendDigits 0 (numeral.whole.chars ++ numeral.fractionDigits) *
          10 ^ ((numeral.exponent.map (·.power)).getD 0 - numeral.fractionDigits.length : Int) := by
      positivity
    rw [other.size_eq_abs, same, ← denotes, NumeralText.value, abs_mul, abs_of_nonneg nonneg]
    split <;> simp
  obtain ⟨number, number_eq, value_eq⟩ := Number.Binary64.ofScientific?_of_representable
    short.digits_lt short.power_le representable size numeral.negative
  refine ⟨number, ?_, ?_⟩
  · have room := short.digits_lt.trans (show 2 ^ 53 < Numeral.room by decide)
    rw [NumeralText.numeral, Numeral.toBinary64?_ofParts _ _ room, number_eq]
  · have exactly : number.toRat = numeral.value := value_eq
    rw [← exactly]
    exact representable.nearest (same.trans (denotes.symm.trans exactly.symm))

end Json.NumeralText

/-! ## Integers -/

namespace LooseInt

/-- The ways to write an integer. -/
inductive Spelling (value : Int) : List Char → Prop where
  | integral (numeral : Json.NumeralText) (integral : numeral.Integral)
      (denotes : numeral.value = value) : Spelling value numeral.text
  | digits (string : Json.Quoted) (text : DigitText)
      (contents : string.contents? = some (String.ofList text.chars))
      (denotes : text.value = value) : Spelling value string.text
  /-- A numeral with a fraction or an exponent. Large integers are not spelled like this, as there
  is no binary number for each of them. -/
  | decimal (numeral : Json.NumeralText) (decimal : ¬numeral.Integral)
      (denotes : numeral.value = value) (small : value.natAbs ≤ 2 ^ 53)
      (nearest : numeral.ReadsNearest) : Spelling value numeral.text

/-- The integer that a value in a payload is coerced to, unless the value is refused. -/
def coerced? (depth : Nat) (source : List Char) : Option (Option Int) :=
  (Json.alone? depth source).map fun value => (ofValue? value).bind coerce?

section Spellings

variable {value : Int} {source : List Char}

theorem Spelling.isValue (spelling : Spelling value source) : Json.IsValue source := by
  cases spelling with
  | integral numeral | decimal numeral => exact .numeral numeral
  | digits string => exact .string string

/-- A string of digits between blanks spells its value. -/
theorem Spelling.ofDigitText (text : DigitText) :
    Spelling text.value (Json.printString (String.ofList text.chars)) :=
  .digits (.printed _) text (Json.Quoted.contents?_printed _) rfl

/-- An integer as it is printed spells itself. -/
theorem Spelling.ofInt (value : Int) :
    Spelling value (Json.printNumeral (.ofInt value)) := by
  let numeral : Json.NumeralText :=
    { negative := value < 0
      whole := .ofNat value.natAbs
      unpadded := Json.naturalText_ne_padded value.natAbs
      fraction := none
      exponent := none }
  have shape : Json.printNumeral (.ofInt value) = numeral.text := by
    cases value <;> simp [numeral, Json.Numeral.ofInt, Json.printNumeral, Json.NumeralText.text,
      Json.NumeralText.signText, Json.NumeralText.fractionText, Json.NumeralText.exponentText,
      Json.Digits.ofNat, Int.natAbs]
  have integral : numeral.Integral := ⟨rfl, rfl⟩
  rw [shape]
  refine .integral numeral integral (integral.value_eq.trans (congrArg Int.cast ?_))
  change (if decide (value < 0) = true then -((Json.Digits.ofNat value.natAbs).value : Int)
    else (Json.Digits.ofNat value.natAbs).value) = value
  simp only [Json.Digits.value_ofNat, decide_eq_true_eq]
  split <;> omega

/-- A short numeral of an integer spells it. -/
theorem Spelling.ofShort {numeral : Json.NumeralText} (short : numeral.Short)
    (denotes : numeral.value = value) (small : value.natAbs ≤ 2 ^ 53) :
    Spelling value numeral.text := by
  by_cases integral : numeral.Integral
  · exact .integral numeral integral denotes
  · exact .decimal numeral integral denotes small (short.readsNearest denotes small)

theorem inSigned64_iff : Text.inSigned64 value = true ↔ least ≤ value ∧ value ≤ greatest := by
  rw [Text.inSigned64, Bool.and_eq_true, decide_eq_true_iff, decide_eq_true_iff]
  rfl

theorem coerce?_ofNumeral_integral {negative : Bool} {digits : Nat}
    (signed : (if negative then -(digits : Int) else digits) = value)
    (fits : least ≤ value ∧ value ≤ greatest) :
    (ofNumeral (.integer negative digits)).coerce? = some value := by
  unfold ofNumeral
  dsimp only
  rw [signed]
  by_cases zero : negative = true ∧ digits = 0
  · obtain ⟨rfl, rfl⟩ := zero
    subst signed
    decide
  · rw [if_pos ⟨inSigned64_iff.mpr fits, zero⟩]
    rfl

/-- A number of 64 bits is coerced to the integer that it equals. -/
theorem coerce?_number_of_nearest {number : Number.Binary64} (nearest : number.Nearest value)
    (small : value.natAbs ≤ 2 ^ 53) : (LooseInt.number number).coerce? = some value := by
  refine ofBinary64?_eq_some_iff.mpr (.inl ⟨nearest.toRat_eq small, ?_⟩)
  unfold least greatest
  omega

/-- Every spelling of an integer of 64 bits is coerced to it. -/
theorem Spelling.coerced?_eq (spelling : Spelling value source)
    (fits : least ≤ value ∧ value ≤ greatest) (depth : Nat) :
    coerced? depth source = some (some value) := by
  cases spelling with
  | integral numeral integral denotes =>
      have signed := Int.cast_injective (integral.value_eq.symm.trans denotes)
      have small : numeral.whole.value < Json.Numeral.room := by
        have bounds := fits
        rw [← signed] at bounds
        unfold least greatest at bounds
        unfold Json.Numeral.room
        split at bounds <;> omega
      have shape := integral.numeral_eq small
      have kept : numeral.numeral.toBinary64?.isSome = true := by
        rw [shape]
        exact Number.Binary64.isSome_ofScientific?_zero _ small
      rw [coerced?, Json.alone?_numeral depth kept, shape]
      exact congrArg some (coerce?_ofNumeral_integral signed fits)
  | digits string text contents denotes =>
      rw [coerced?, Json.alone?_string, contents]
      have read : Text.readSigned64? (Text.trimBlank text.chars) = some value := by
        rw [text.trimBlank_chars, Text.readSigned64?, text.readInteger?_core, denotes]
        exact Option.filter_eq_some_iff.mpr ⟨rfl, inSigned64_iff.mpr fits⟩
      change some (Text.readSigned64? (Text.trimBlank (String.ofList text.chars).toList)) = _
      rw [String.toList_ofList, read]
  | decimal numeral decimal denotes small nearest =>
      obtain ⟨number, number_eq, nearest⟩ := nearest
      obtain ⟨negative, digits, exponent, shape⟩ := numeral.exists_decimal decimal
      have kept : numeral.numeral.toBinary64?.isSome = true := by
        rw [number_eq]
        rfl
      rw [coerced?, Json.alone?_numeral depth kept, shape]
      rw [shape] at number_eq
      rw [denotes] at nearest
      change some ((((Json.Numeral.decimal negative digits exponent).toBinary64?.map
        LooseInt.number).getD .other).coerce?) = _
      rw [number_eq]
      exact congrArg some (coerce?_number_of_nearest nearest small)

/-- A value by itself is read as it is within a payload. -/
theorem exists_parse_of_coerced? (isValue : Json.IsValue source)
    (coerced : coerced? Json.depthLimit source = some (some value)) :
    ∃ loose, parse (String.ofList source) = .ok (some loose) ∧ loose.coerce? = some value := by
  obtain ⟨read, alone, stands⟩ := Option.map_eq_some_iff.mp coerced
  obtain ⟨loose, loose_eq, integer⟩ := Option.bind_eq_some_iff.mp stands
  have enough : 2 * source.length ≤ Json.fuelFor source := by
    rw [Json.fuelFor]
    omega
  have outcome : (Json.readValue (Json.fuelFor source) Json.depthLimit (source ++ [])).toOption =
      some (read, []) := by
    rw [isValue.toOption_readValue Json.stops_nil enough, alone]
    rfl
  rw [List.append_nil] at outcome
  refine ⟨loose, ?_, integer⟩
  rw [parse, String.toList_ofList, Json.readText, ReorderItem.readLoose]
  rcases answer : Json.readValue (Json.fuelFor source) Json.depthLimit source with
    fault | ⟨found, rest⟩
  · rw [answer] at outcome
    cases outcome
  · rw [answer] at outcome
    cases outcome
    rw [← loose_eq]
    rfl

end Spellings

end LooseInt

end ImageGallery
