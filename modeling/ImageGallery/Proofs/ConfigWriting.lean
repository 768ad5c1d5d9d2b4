import ImageGallery.Proofs.ConfigReading

/-!
# Writing configurations

Any values can be given to any of the fields, whatever characters are in their texts: each text is
written in double quotes with all its characters by number, and each section with those of its
fields that have a value, or as an empty mapping.
-/

namespace ImageGallery.Config

open Yaml (Block Key Node Page Pause Spelling)

/-! ## Characters -/

/-- Whether a character of a text is one that is written in every configuration. -/
def isPrinted (char : Char) : Bool :=
  char = '\n' || 0x20 ≤ char.toNat && char.toNat ≤ 0x7E

section Characters

variable {chars : List Char} {char : Char}

theorem isAllowed_of_isPrinted (printed : isPrinted char = true) : Yaml.isAllowed char = true := by
  simp only [isPrinted, Bool.or_eq_true, Bool.and_eq_true, decide_eq_true_eq] at printed
  obtain rfl | within := printed
  · decide
  · simp [Yaml.isAllowed, within]

theorem unifyBreaks_of_printed (printed : chars.all isPrinted = true) :
    Yaml.unifyBreaks chars = chars := by
  induction chars with
  | nil => rfl
  | cons char chars ih =>
      rw [List.all_cons, Bool.and_eq_true] at printed
      have carriage : char ≠ '\r' := by
        rintro rfl
        cases printed.1
      have nextLine : char ≠ '\u0085' := by
        rintro rfl
        cases printed.1
      rw [Yaml.unifyBreaks, ih printed.2]
      · rintro more rfl
        exact (carriage rfl).elim
      · exact carriage
      · exact nextLine

theorem hexDigit_read {digit : Nat} (small : digit < 16) :
    Text.hexValue? (Text.hexDigit digit) = some digit ∧
      isPrinted (Text.hexDigit digit) = true ∧
      Yaml.isBreak (Text.hexDigit digit) = false := by
  revert small
  revert digit
  decide

/-- A number that is written to the base 16 is read modulo what the width can hold. -/
theorem mapM_hexText (width value : Nat) :
    ∃ digits, (Text.hexText width value).mapM Text.hexValue? = some digits ∧
      digits.length = width ∧
      digits.foldl (fun value digit => 16 * value + digit) 0 = value % 16 ^ width := by
  induction width generalizing value with
  | zero => exact ⟨[], rfl, rfl, (Nat.mod_one value).symm⟩
  | succ width ih =>
      obtain ⟨digits, read, length_eq, total⟩ := ih (value / 16)
      have last := (hexDigit_read (Nat.mod_lt value (by decide : 0 < 16))).1
      refine ⟨digits ++ [value % 16], ?_, ?_, ?_⟩
      · rw [Text.hexText, List.mapM_append, read]
        simp [last]
      · rw [List.length_append, length_eq, List.length_singleton]
      · rw [List.foldl_append, total, List.foldl_cons, List.foldl_nil, Nat.pow_succ', Nat.mod_mul,
          Nat.add_comm]

theorem hexText_printed (width value : Nat) : ∀ char ∈ Text.hexText width value,
    isPrinted char = true ∧ Yaml.isBreak char = false := by
  induction width generalizing value with
  | zero => nofun
  | succ width ih =>
      rw [Text.hexText, List.forall_mem_append, List.forall_mem_singleton]
      exact ⟨ih (value / 16), (hexDigit_read (Nat.mod_lt value (by decide : 0 < 16))).2⟩

/-- The digits of an escape denote the character. -/
theorem charOfDigits?_hexText (char : Char) :
    Yaml.charOfDigits? 8 (Text.hexText 8 char.toNat) = some char := by
  obtain ⟨digits, read, length_eq, total⟩ := mapM_hexText 8 char.toNat
  have valid : char.toNat.isValidChar := char.valid
  have small : char.toNat < 16 ^ 8 := by
    obtain low | high := valid
    · exact low.trans (by decide)
    · exact high.2.trans (by decide)
  have whole : (Text.hexText 8 char.toNat).take 8 = Text.hexText 8 char.toNat := rfl
  rw [Nat.mod_eq_of_lt small] at total
  unfold Yaml.charOfDigits?
  rw [whole, read]
  simp [length_eq, total, valid]

end Characters

/-! ## Digits -/

section Digits

variable {digit mark : Char}

theorem ne_of_isDigit (isDigit : digit.isDigit = true) (other : mark.isDigit = false) :
    digit ≠ mark := by
  rintro rfl
  exact Bool.false_ne_true (other.symm.trans isDigit)

theorem isPrinted_of_isDigit (isDigit : digit.isDigit = true) : isPrinted digit = true := by
  obtain ⟨low, high⟩ : 48 ≤ digit.toNat ∧ digit.toNat ≤ 57 := by
    simpa [Char.isDigit, UInt32.le_iff_toNat_le] using isDigit
  simp only [isPrinted, Bool.or_eq_true, Bool.and_eq_true, decide_eq_true_eq]
  exact .inr ⟨by omega, by omega⟩

theorem unspaced_of_isDigit (isDigit : digit.isDigit = true) :
    (Yaml.isGap digit || Yaml.isBreak digit) = false := by
  simp [Yaml.isGap, Yaml.isBreak, ne_of_isDigit isDigit]

theorem startsPlain_of_isDigit (isDigit : digit.isDigit = true) (rest : List Char) :
    Yaml.startsPlain false (digit :: rest) = true := by
  have marked : Yaml.isFlowMark digit = false := by
    simp [Yaml.isFlowMark, ne_of_isDigit isDigit]
  simp [Yaml.startsPlain, unspaced_of_isDigit isDigit, marked, ne_of_isDigit isDigit]

end Digits

/-! ## Values -/

/-- A character in double quotes, by number. -/
def escaped (char : Char) : List Char :=
  '\\' :: 'U' :: Text.hexText 8 char.toNat

/-- How a value is written. -/
def Value.spelling : Value → Spelling
  | .text content => .double (content.toList.map fun char => (escaped char, char))
  | .number count => .plain (Text.naturalText count) []
  | .flag true => .plain "true".toList []
  | .flag false => .plain "false".toList []

theorem isPiece_escaped (char : Char) : Yaml.isPiece (escaped char) char = true := by
  have width : (Text.hexText 8 char.toNat).length = 8 := rfl
  rw [escaped, Yaml.isPiece, if_neg nofun, width, charOfDigits?_hexText]
  simp [Yaml.escapeWidth?]

theorem escaped_printed (char : Char) :
    ∀ written ∈ escaped char, isPrinted written = true ∧ Yaml.isBreak written = false := by
  rw [escaped, List.forall_mem_cons, List.forall_mem_cons]
  exact ⟨by decide, by decide, hexText_printed 8 char.toNat⟩

theorem spells_spelling (value : Value) : Spells value value.spelling.node := by
  cases value with
  | text text =>
      have spelled : Spells (.text text) (.scalar { style := .quoted, text }) := .text nofun
      have chars_eq : (Value.text text).spelling.chars = text.toList := by
        simp [Value.spelling, Spelling.chars, Function.comp_def]
      rw [Spelling.node, chars_eq, String.ofList_toList]
      exact spelled
  | number number =>
      refine .number .decimal (.inl ?_)
      rw [String.toList_ofList]
      exact List.append_nil _
  | flag flag =>
      cases flag with
      | false => exact .no (by decide)
      | true => exact .yes (by decide)

/-- Decimal digits are a word. -/
theorem isProper_digits {first : Char} {others : List Char}
    (digits : ∀ char ∈ first :: others, char.isDigit = true) :
    (Spelling.plain (first :: others) []).isProper = true := by
  have last : (first :: others).getLast? ≠ some ':' := fun same =>
    ne_of_isDigit (digits ':' (List.mem_of_getLast? same)) rfl rfl
  have unspaced : (first :: others).all (fun char => !(Yaml.isGap char || Yaml.isBreak char)) := by
    simp only [List.all_eq_true, Bool.not_eq_true']
    exact fun char among => unspaced_of_isDigit (digits char among)
  have word : Yaml.isWord (first :: others) = true := by
    simp only [Yaml.isWord, unspaced, last, ne_eq, reduceCtorEq, not_false_eq_true, decide_true,
      Bool.and_self]
  have isDigit := digits first List.mem_cons_self
  have unmarked : first ≠ '\ufeff' := ne_of_isDigit isDigit rfl
  simp [Spelling.isProper, word, startsPlain_of_isDigit isDigit, unmarked]

theorem isProper_spelling (value : Value) : value.spelling.isProper = true := by
  cases value with
  | text text =>
      simp only [Value.spelling, Spelling.isProper, List.all_map, List.all_eq_true,
        Function.comp_apply, Bool.and_eq_true, Bool.not_eq_true']
      exact fun char _ => ⟨isPiece_escaped char, fun written among =>
        (escaped_printed char written among).2⟩
  | number number =>
      have digits (char : Char) (among : char ∈ Text.naturalText number) : char.isDigit = true :=
        Text.isDigit_of_mem_naturalText among
      rw [Value.spelling]
      obtain ⟨first, others, shape⟩ := List.exists_cons_of_ne_nil
        (show Text.naturalText number ≠ [] from Nat.toDigits_ne_nil)
      rw [shape] at digits ⊢
      exact isProper_digits digits
  | flag flag => cases flag <;> decide

theorem spelling_printed (value : Value) : value.spelling.text.all isPrinted = true := by
  cases value with
  | text text =>
      have pieces : ((text.toList.map fun char => (escaped char, char)).flatMap (·.1)).all
          isPrinted = true := by
        rw [List.flatMap_map, List.all_flatMap, List.all_eq_true]
        exact fun char _ =>
          List.all_eq_true.mpr fun written among => (escaped_printed char written among).1
      rw [Value.spelling, Spelling.text, List.all_cons, List.all_append, pieces]
      rfl
  | number number =>
      rw [Value.spelling, Spelling.text, Spelling.further, List.flatMap_nil, List.append_nil,
        List.all_eq_true]
      exact fun char among => isPrinted_of_isDigit (Text.isDigit_of_mem_naturalText among)
  | flag flag => cases flag <;> decide

/-! ## Outlines -/

/-- The settings of a mapping as they are written one after the other. -/
inductive Outline where
  | nil
  | entry (key : String) (value : Value) (others : Outline)
  | nested (key : String) (inner others : Outline)
deriving DecidableEq

/-- The pause that leads to a column in a new line. -/
def newLine (column : Nat) : List Char :=
  '\n' :: List.replicate column ' '

/-- A key that is written plainly. -/
def plainKey (key : String) : Key :=
  ⟨.plain key.toList [], []⟩

namespace Outline

/-- All keys. -/
def keys : Outline → List String
  | nil => []
  | entry key _ others => key :: others.keys
  | nested key inner others => key :: (inner.keys ++ others.keys)

/-- The column of the first key. Behind an outline without settings is the given column. -/
def start (column after : Nat) : Outline → Nat
  | nil => after
  | entry _ _ _ | nested _ _ _ => column

/-- How an outline is written at a column. Behind it is another column. -/
def block (column after : Nat) : Outline → Block
  | nil => .nil
  | entry key value others =>
    .entry (plainKey key) (.scalar [' '] value.spelling) (newLine (others.start column after))
      (others.block column after)
  | nested key inner others =>
    if inner = nil then
      .entry (plainKey key) (.braces [' ']) (newLine (others.start column after))
        (others.block column after)
    else
      .nested (plainKey key) (newLine (column + 2)) (column + 2)
        (inner.block (column + 2) (others.start column after)) (others.block column after)

/-- What is read of an outline. -/
def entries : Outline → List (Node × Node)
  | nil => []
  | entry key value others => (.scalar { text := key }, value.spelling.node) :: others.entries
  | nested key inner others => (.scalar { text := key }, .mapping inner.entries) :: others.entries

theorem entries_block (outline : Outline) (column after : Nat) :
    (outline.block column after).entries = outline.entries := by
  have key_eq (key : String) : (plainKey key).spelling.node = .scalar { text := key } := by
    simp [plainKey, Spelling.node, Spelling.style, Spelling.chars, Spelling.further]
  induction outline generalizing column after with
  | nil => rfl
  | entry key value others ih =>
      rw [block, Block.entries, key_eq, ih]
      rfl
  | nested key inner others ih_inner ih_others =>
      rw [block]
      split
      · next empty =>
          rw [Block.entries, key_eq, ih_others, empty]
          rfl
      · rw [Block.entries, key_eq, ih_inner, ih_others, entries]

theorem after?_newLine (column : Nat) :
    Pause.after? ⟨false, false, 0⟩ (newLine column) = some ⟨false, true, column⟩ := by
  have blanks (start : Nat) :
      Pause.after? ⟨false, true, start⟩ (List.replicate column ' ') =
        some ⟨false, true, start + column⟩ := by
    induction column generalizing start with
    | zero => rfl
    | succ column ih =>
        rw [List.replicate_succ, Nat.add_comm column 1, ← Nat.add_assoc]
        exact ih (start + 1)
  have from_start := blanks 0
  rw [Nat.zero_add] at from_start
  exact from_start

theorem isEnding_newLine {column : Nat} {next : Option Nat}
    (leads : ∀ other ∈ next, other = column) :
    Yaml.isEnding next (newLine column) = true := by
  have ends : Yaml.endsWord (newLine column) = true := rfl
  rw [Yaml.isEnding, ends, after?_newLine]
  cases next with
  | none => rfl
  | some other => simp [leads other rfl]

theorem start_block {outline : Outline} {column after : Nat} {next : Option Nat}
    (leads : ∀ other ∈ next, other = after) :
    ∀ other ∈ (outline.block column after).start column next,
      other = outline.start column after := by
  cases outline with
  | nil => exact leads
  | entry key value others =>
      rintro other ⟨⟩
      rfl
  | nested key inner others =>
      rw [block]
      split <;>
        rintro other ⟨⟩ <;>
        rfl

theorem block_ne_nil {outline : Outline} (filled : outline ≠ nil) (column after : Nat) :
    outline.block column after ≠ .nil := by
  cases outline with
  | nil => exact (filled rfl).elim
  | entry key value others => nofun
  | nested key inner others =>
      rw [block]
      split <;> nofun

theorem isProper_block {outline : Outline} {column after : Nat} {next : Option Nat}
    (proper : ∀ key ∈ outline.keys, (plainKey key).isProper = true)
    (leads : ∀ other ∈ next, other = after) :
    (outline.block column after).isProper column next = true := by
  induction outline generalizing column after next with
  | nil => rfl
  | entry key value others ih =>
      rw [keys, List.forall_mem_cons] at proper
      have content : (Yaml.Content.scalar [' '] value.spelling).isProper column = true :=
        isProper_spelling value
      simp only [block, Block.isProper, proper.1, content, isEnding_newLine (start_block leads),
        ih proper.2 leads, Bool.and_self]
  | nested key inner others ih_inner ih_others =>
      rw [keys, List.forall_mem_cons, List.forall_mem_append] at proper
      have content : (Yaml.Content.braces [' ']).isProper column = true := rfl
      have behind : (others.block column after).isProper column next = true :=
        ih_others proper.2.2 leads
      rw [block]
      split
      · simp only [Block.isProper, proper.1, content, isEnding_newLine (start_block leads), behind,
          Bool.and_self]
      · next filled =>
          have within : (inner.block (column + 2) (others.start column after)).isProper (column + 2)
              ((others.block column after).start column next) = true :=
            ih_inner proper.2.1 (start_block leads)
          have ending : Yaml.isEnding (some (column + 2)) (newLine (column + 2)) = true :=
            isEnding_newLine fun other same => (Option.some.inj same).symm
          simp [Block.isProper, proper.1, block_ne_nil filled, ending, within, behind]

theorem newLine_printed (column : Nat) : (newLine column).all isPrinted = true := by
  rw [newLine, List.all_cons, List.all_replicate]
  split <;> rfl

theorem plainKey_printed {key : String} (printed : key.toList.all isPrinted = true) :
    (plainKey key).text.all isPrinted = true := by
  simp only [plainKey, Key.text, Spelling.text, Spelling.further, List.flatMap_nil,
    List.append_nil, List.all_append, printed]
  rfl

theorem block_printed {outline : Outline} {column after : Nat}
    (printed : ∀ key ∈ outline.keys, key.toList.all isPrinted = true) :
    (outline.block column after).text.all isPrinted = true := by
  induction outline generalizing column after with
  | nil => rfl
  | entry key value others ih =>
      rw [keys, List.forall_mem_cons] at printed
      simp only [block, Block.text, Yaml.Content.text, List.all_append, newLine_printed,
        plainKey_printed printed.1, spelling_printed, ih printed.2]
      rfl
  | nested key inner others ih_inner ih_others =>
      rw [keys, List.forall_mem_cons, List.forall_mem_append] at printed
      rw [block]
      split
      · simp only [Block.text, Yaml.Content.text, List.all_append, newLine_printed,
          plainKey_printed printed.1, ih_others printed.2.2]
        rfl
      · simp only [Block.text, List.all_append, newLine_printed, plainKey_printed printed.1,
          ih_inner printed.2.1, ih_others printed.2.2]
        rfl

end Outline

/-! ## Configurations -/

/-- The last of the keys that lead to a field. -/
def Field.key (field : Field) : String :=
  field.path.getLastD ""

/-- The values of those fields that have one. -/
def valuesAmong (assigned : Field → Option Value) : List Field → List (Field × Value)
  | [] => []
  | field :: fields =>
    match assigned field with
    | none => valuesAmong assigned fields
    | some value => (field, value) :: valuesAmong assigned fields

namespace Outline

/-- The settings of those fields that have a value. -/
def among (assigned : Field → Option Value) : List Field → Outline
  | [] => nil
  | field :: fields =>
    match assigned field with
    | none => among assigned fields
    | some value => .entry field.key value (among assigned fields)

/-- All sections with their settings. -/
def sections (assigned : Field → Option Value) : Outline :=
  .nested "server" (among assigned [.host, .port, .shutdownTimeout, .maxBodyBytes])
    (.nested "metadata" (.nested "sqlite" (among assigned [.databasePath]) .nil)
      (.nested "storage" (among assigned [.rootDirectory, .chunkSize])
        (.nested "gallery"
          (among assigned [.maxFilesPerRequest, .maxImagesPerParent, .publicBaseUrl])
          (.nested "logging" (among assigned [.level, .format])
            (.nested "observability" (among assigned [.metrics]) .nil)))))

end Outline

/-- All sections as they are written from the start of a text. -/
def pageOf (assigned : Field → Option Value) : Page :=
  .block [] 0 ((Outline.sections assigned).block 0 0)

section Assigned

variable {assigned : Field → Option Value} {fields : List Field} {path seen : List String}

theorem lookup_valuesAmong (assigned : Field → Option Value) (fields : List Field) (field : Field) :
    (valuesAmong assigned fields).lookup field =
      if field ∈ fields then assigned field else none := by
  induction fields with
  | nil => rfl
  | cons other fields ih =>
      rw [valuesAmong]
      by_cases same : field = other
      · subst same
        rw [if_pos List.mem_cons_self]
        cases given : assigned field with
        | none => simp [ih, given]
        | some value => simp
      · have member : field ∈ other :: fields ↔ field ∈ fields := by simp [same]
        have unlike : (field == other) = false := beq_false_of_ne same
        rw [if_congr member rfl rfl, ← ih]
        cases assigned other with
        | none => rfl
        | some value => rw [List.lookup_cons, unlike]

theorem valuesAmong_append (assigned : Field → Option Value) (first second : List Field) :
    valuesAmong assigned (first ++ second) =
      valuesAmong assigned first ++ valuesAmong assigned second := by
  induction first with
  | nil => rfl
  | cons field first ih =>
      rw [List.cons_append, valuesAmong, valuesAmong, ih]
      split <;> rfl

theorem assigns_among (suits : ∀ field value, assigned field = some value → value.Suits field.kind)
    (below : ∀ field ∈ fields, field.path = path ++ [field.key])
    (unseen : ∀ field ∈ fields, field.key ∉ seen) (once : (fields.map Field.key).Nodup) :
    Assigns path seen (Outline.among assigned fields).entries (valuesAmong assigned fields) := by
  induction fields generalizing seen with
  | nil => exact .nil
  | cons field fields ih =>
      rw [List.forall_mem_cons] at below unseen
      rw [List.map_cons, List.nodup_cons] at once
      rw [Outline.among, valuesAmong]
      cases given : assigned field with
      | none => exact ih below.2 unseen.2 once.2
      | some value =>
          refine .field below.1 unseen.1 (suits field value given) (spells_spelling value)
            (ih below.2 (fun other among => ?_) once.2)
          rw [List.mem_cons, not_or]
          refine ⟨fun same => once.1 ?_, unseen.2 other among⟩
          exact List.mem_map.mpr ⟨other, among, same⟩

/-- A section with those fields that have a value. -/
theorem assigns_section {key : String} {entries : List (Node × Node)}
    {given : List (Field × Value)}
    (suits : ∀ field value, assigned field = some value → value.Suits field.kind)
    (filled : fields ≠ []) (below : ∀ field ∈ fields, field.path = path ++ [key] ++ [field.key])
    (unseen : key ∉ seen) (once : (fields.map Field.key).Nodup)
    (others : Assigns path (key :: seen) entries given) :
    Assigns path seen
      ((.scalar { text := key }, .mapping (Outline.among assigned fields).entries) :: entries)
      (valuesAmong assigned fields ++ given) := by
  obtain ⟨field, member⟩ := List.exists_mem_of_ne_nil fields filled
  have isSection : IsSection (path ++ [key]) := by
    refine ⟨field, ⟨_, (below field member).symm⟩, ?_⟩
    rw [below field member]
    simp
  exact .nested isSection unseen (assigns_among suits below nofun once) others

theorem root_of_ne_nil {lead : List Char} {column : Nat} {keys : Block} (filled : keys ≠ .nil) :
    (Page.block lead column keys).root = .mapping keys.entries := by
  cases keys with
  | nil => exact (filled rfl).elim
  | entry _ _ _ _ | nested _ _ _ _ _ => rfl

/-- What is written in all sections. -/
theorem means_pageOf (suits : ∀ field value, assigned field = some value → value.Suits field.kind) :
    ∃ given, Means [] (pageOf assigned).root given ∧
      ∀ field, assigned field = given.lookup field := by
  have root_eq : (pageOf assigned).root = .mapping (Outline.sections assigned).entries := by
    have filled : Outline.sections assigned ≠ .nil := nofun
    rw [pageOf, root_of_ne_nil (Outline.block_ne_nil filled 0 0), Outline.entries_block]
  have metadata : IsSection ["metadata"] := ⟨.databasePath, ⟨_, rfl⟩, by decide⟩
  have sections : Assigns [] [] (Outline.sections assigned).entries _ :=
    assigns_section suits nofun (by decide) nofun (by decide)
      (.nested metadata (by decide)
        (assigns_section suits nofun (by decide) nofun (by decide) .nil)
        (assigns_section suits nofun (by decide) (by decide) (by decide)
          (assigns_section suits nofun (by decide) (by decide) (by decide)
            (assigns_section suits nofun (by decide) (by decide) (by decide)
              (assigns_section suits nofun (by decide) (by decide) (by decide) .nil)))))
  rw [root_eq]
  refine ⟨_, .mapping sections, fun field => ?_⟩
  simp only [List.append_nil, ← valuesAmong_append, lookup_valuesAmong]
  cases field <;> rfl

theorem forall_keys_among {holds : String → Prop}
    (fields_hold : ∀ field ∈ fields, holds field.key) :
    ∀ key ∈ (Outline.among assigned fields).keys, holds key := by
  induction fields with
  | nil => nofun
  | cons field fields ih =>
      rw [List.forall_mem_cons] at fields_hold
      rw [Outline.among]
      cases assigned field with
      | none => exact ih fields_hold.2
      | some value =>
          rw [Outline.keys, List.forall_mem_cons]
          exact ⟨fields_hold.1, ih fields_hold.2⟩

/-- The keys of all sections are those that lead to the fields. -/
theorem forall_keys_sections {holds : String → Prop}
    (all_hold : ∀ field : Field, ∀ key ∈ field.path, holds key) :
    ∀ key ∈ (Outline.sections assigned).keys, holds key := by
  have among_hold (fields : List Field) :
      ∀ key ∈ (Outline.among assigned fields).keys, holds key :=
    forall_keys_among fun field _ => all_hold field field.key (by cases field <;> decide)
  simp only [Outline.sections, Outline.keys, List.forall_mem_cons, List.forall_mem_append]
  exact ⟨all_hold .host _ (by decide), among_hold _, all_hold .databasePath _ (by decide),
    ⟨all_hold .databasePath _ (by decide), among_hold _, nofun⟩,
    all_hold .chunkSize _ (by decide), among_hold _, all_hold .publicBaseUrl _ (by decide),
    among_hold _, all_hold .level _ (by decide), among_hold _, all_hold .metrics _ (by decide),
    among_hold _, nofun⟩

theorem key_proper (field : Field) : ∀ key ∈ field.path,
    (plainKey key).isProper = true ∧ key.toList.all isPrinted = true := by
  cases field <;> decide

theorem isProper_pageOf (assigned : Field → Option Value) : (pageOf assigned).isProper = true := by
  have keys_proper : ∀ key ∈ (Outline.sections assigned).keys, (plainKey key).isProper = true :=
    forall_keys_sections fun field key among => (key_proper field key among).1
  have proper : ((Outline.sections assigned).block 0 0).isProper 0 none = true :=
    Outline.isProper_block keys_proper nofun
  have starts : ∀ other ∈ ((Outline.sections assigned).block 0 0).start 0 none, other = 0 :=
    Outline.start_block nofun
  rw [pageOf, Page.isProper, proper, Bool.and_true]
  simp only [Pause.after?, Option.any_some, Option.all_eq_true, decide_eq_true_eq]
  rintro other among
  rw [starts other among]

/-- Whatever values fields have, there is a text that gives them these values. -/
theorem exists_writes
    (suits : ∀ field value, assigned field = some value → value.Suits field.kind) :
    ∃ text, Writes text assigned := by
  have printed : (pageOf assigned).text.all isPrinted = true :=
    Outline.block_printed
      (forall_keys_sections fun field key among => (key_proper field key among).2)
  refine ⟨String.ofList (pageOf assigned).text, ?_, pageOf assigned, ?_, isProper_pageOf assigned,
    means_pageOf suits⟩
  · rw [String.toList_ofList, List.all_eq_true]
    exact fun char among => isAllowed_of_isPrinted (List.all_eq_true.mp printed char among)
  · rw [String.toList_ofList, unifyBreaks_of_printed printed]

end Assigned

end ImageGallery.Config
