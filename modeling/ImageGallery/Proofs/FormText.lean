import ImageGallery.Http.Form
import ImageGallery.Proofs.ContentTypes

/-!
# Forms are read back as they were written

A form that is written from fields reads as these fields, whatever bytes they hold, as long as the
line that parts them stands in none of them. Contents may be empty, may end in line ends, and may
hold anything else that looks like the form around them.
-/

namespace ImageGallery.Http.Form

/-! ## Finding a pattern -/

theorem after?_eq_some_iff {pattern bytes rest : Bytes} :
    after? pattern bytes = some rest ↔ bytes = pattern ++ rest := by
  induction pattern generalizing bytes with
  | nil => simp [after?]
  | cons wanted pattern ih =>
      cases bytes with
      | nil => simp [after?]
      | cons byte bytes =>
          by_cases same : wanted = byte
          · simp [after?, same, ih]
          · simp [after?, same, Ne.symm same]

@[simp]
theorem after?_append (pattern rest : Bytes) : after? pattern (pattern ++ rest) = some rest :=
  after?_eq_some_iff.mpr rfl

/-- A pattern is not in front of bytes that start with another one. -/
theorem after?_cons_of_ne {wanted byte : UInt8} (differ : wanted ≠ byte) (pattern bytes : Bytes) :
    after? (wanted :: pattern) (byte :: bytes) = none := by
  simp [after?, differ]

theorem cut?_front (first : UInt8) (pattern rest : Bytes) :
    cut? (first :: pattern) (first :: pattern ++ rest) = some ([], rest) := by
  rw [List.cons_append, cut?, ← List.cons_append, after?_append]

/-- Bytes are cut at a pattern if no occurrence of it starts in front of it. -/
theorem cut?_append {pattern content rest : Bytes} (some_pattern : pattern ≠ [])
    (absent : ∀ before behind, content = before ++ behind → behind ≠ [] →
      ¬pattern <+: behind ++ (pattern ++ rest)) :
    cut? pattern (content ++ (pattern ++ rest)) = some (content, rest) := by
  induction content with
  | nil =>
      cases pattern with
      | nil => exact absurd rfl some_pattern
      | cons first pattern => exact cut?_front first pattern rest
  | cons byte content ih =>
      have later := ih fun before behind split =>
        absent (byte :: before) behind (by rw [split, List.cons_append])
      have unstarted : after? pattern (byte :: (content ++ (pattern ++ rest))) = none := by
        rw [Option.eq_none_iff_forall_ne_some]
        intro following found
        apply absent [] (byte :: content) rfl (List.cons_ne_nil _ _)
        exact ⟨following, (after?_eq_some_iff.mp found).symm⟩
      rw [List.cons_append, cut?, unstarted, later]
      rfl

/-- A pattern whose first byte comes once in it does not start inside bytes that it is not in. -/
theorem cut?_of_absent {first : UInt8} {pattern content : Bytes} (once : first ∉ pattern)
    (absent : ¬first :: pattern <:+: content) (rest : Bytes) :
    cut? (first :: pattern) (content ++ (first :: pattern ++ rest)) = some (content, rest) := by
  apply cut?_append (List.cons_ne_nil first pattern)
  intro before behind split some_behind started
  have whole : behind <+: behind ++ (first :: pattern ++ rest) := List.prefix_append _ _
  rcases List.prefix_or_prefix_of_prefix started whole with inside | ⟨remaining, same⟩
  · apply absent
    rw [split]
    exact inside.isInfix.trans (List.suffix_append _ _).isInfix
  · cases remaining with
    | nil =>
        apply absent
        rw [List.append_nil] at same
        rw [split, same]
        exact (List.suffix_append _ _).isInfix
    | cons next remaining =>
        -- The rest of the pattern would start with its first byte once more.
        obtain ⟨following, started⟩ := started
        cases behind with
        | nil => exact absurd rfl some_behind
        | cons head behind =>
            rw [List.cons_append, List.cons_eq_cons] at same
            obtain ⟨rfl, rfl⟩ := same
            simp only [List.cons_append, List.append_assoc, List.cons.injEq, true_and,
              List.append_cancel_left_eq] at started
            apply once
            simp [started.1]

/-- Bytes without the first byte of a pattern are passed over. -/
theorem cut?_skip {first : UInt8} {front : Bytes} (absent : first ∉ front) (pattern bytes : Bytes) :
    cut? (first :: pattern) (front ++ bytes) =
      (cut? (first :: pattern) bytes).map fun cut => (front ++ cut.1, cut.2) := by
  induction front with
  | nil => simp
  | cons byte front ih =>
      rw [List.mem_cons, not_or] at absent
      rw [List.cons_append, cut?, after?_cons_of_ne absent.1, ih absent.2]
      simp [Function.comp_def]

/-! ## Header lines -/

/-- Lines with their ends. -/
def lines (texts : List Bytes) : Bytes :=
  texts.flatMap (· ++ lineEnd)

/-- A line is passed over in the search for an empty one, if the next line is not empty. -/
theorem cut?_line {line : Bytes} {next : UInt8} (unbroken : 13 ∉ line) (other : next ≠ 13)
    (following : Bytes) :
    cut? (lineEnd ++ lineEnd) (line ++ (lineEnd ++ next :: following)) =
      (cut? (lineEnd ++ lineEnd) (next :: following)).map
        fun cut => (line ++ lineEnd ++ cut.1, cut.2) := by
  have unstarted : after? (13 :: [10, 13, 10]) (13 :: 10 :: next :: following) = none := by
    simp [after?, other.symm]
  have passed : after? (13 :: [10, 13, 10]) (10 :: next :: following) = none :=
    after?_cons_of_ne (by decide) _ _
  change cut? (13 :: [10, 13, 10]) (line ++ 13 :: 10 :: next :: following) = _
  rw [cut?_skip unbroken, cut?, unstarted, cut?, passed, Option.map_map, Option.map_map]
  change (cut? (lineEnd ++ lineEnd) (next :: following)).map _ = _
  simp [Function.comp_def, lineEnd]

/-- Lines are cut off at the first empty one. -/
theorem cut?_lines {texts : List Bytes} (some_texts : texts ≠ [])
    (solid : ∀ text ∈ texts, text ≠ [] ∧ 13 ∉ text) (rest : Bytes) :
    ∃ block, block ++ lineEnd = lines texts ∧
      cut? (lineEnd ++ lineEnd) (lines texts ++ (lineEnd ++ rest)) = some (block, rest) := by
  induction texts with
  | nil => exact absurd rfl some_texts
  | cons text texts ih =>
      obtain ⟨-, unbroken⟩ := solid text List.mem_cons_self
      have split : lines (text :: texts) ++ (lineEnd ++ rest) =
          text ++ (lineEnd ++ (lines texts ++ (lineEnd ++ rest))) := by
        simp [lines]
      rw [split]
      cases texts with
      | nil =>
          have skipped := cut?_skip unbroken ([10] ++ lineEnd) (lineEnd ++ (lineEnd ++ rest))
          have front : cut? (13 :: ([10] ++ lineEnd)) (lineEnd ++ (lineEnd ++ rest)) =
              some ([], rest) := cut?_front 13 ([10] ++ lineEnd) rest
          rw [front, Option.map_some, List.append_nil] at skipped
          exact ⟨text, by simp [lines], skipped⟩
      | cons next texts =>
          obtain ⟨block, whole, cut⟩ :=
            ih (List.cons_ne_nil _ _) fun text mem => solid text (List.mem_cons_of_mem _ mem)
          obtain ⟨some_next, nextUnbroken⟩ :=
            solid next (List.mem_cons_of_mem _ List.mem_cons_self)
          obtain ⟨byte, others, rfl⟩ := List.exists_cons_of_ne_nil some_next
          have other : byte ≠ 13 := fun same => nextUnbroken (same ▸ List.mem_cons_self)
          refine ⟨text ++ lineEnd ++ block, ?_, ?_⟩
          · rw [List.append_assoc, whole]
            rfl
          · have started : ∃ following,
                lines ((byte :: others) :: texts) ++ (lineEnd ++ rest) = byte :: following :=
              ⟨_, rfl⟩
            obtain ⟨following, started⟩ := started
            rw [started] at cut ⊢
            rw [cut?_line unbroken other, cut]
            rfl

/-- Bytes are read up to the first one that is not accepted. -/
theorem takeWhile_append_cons {reads : UInt8 → Bool} {bytes : Bytes} {stop : UInt8}
    (accepted : ∀ byte ∈ bytes, reads byte) (stops : reads stop = false) (rest : Bytes) :
    (bytes ++ stop :: rest).takeWhile reads = bytes ∧
      (bytes ++ stop :: rest).dropWhile reads = stop :: rest := by
  have unread : ¬reads stop = true := by simp [stops]
  constructor
  · rw [List.takeWhile_append_of_pos accepted, List.takeWhile_cons_of_neg unread, List.append_nil]
  · rw [List.dropWhile_append_of_pos accepted, List.dropWhile_cons_of_neg unread]

section Bytes

variable {text : String}

theorem isNameByte_of_mem (visible : Text.Visible text)
    (token : ∀ char ∈ text.toList, ContentType.isToken char) :
    ∀ byte ∈ Text.encode text, isNameByte byte := by
  rw [Text.encode_of_visible visible, List.forall_mem_map]
  intro char mem
  rw [isNameByte, Text.ofNat_toUInt8 (visible char mem)]
  exact token char mem

theorem isValueByte_of_mem (visible : Text.Visible text) :
    ∀ byte ∈ Text.encode text, isValueByte byte := by
  rw [Text.encode_of_visible visible, List.forall_mem_map]
  intro char mem
  obtain ⟨great, small⟩ := Text.isVisible_iff.mp (visible char mem)
  have number := Text.toNat_toUInt8 (visible char mem)
  have above : 32 ≤ char.toUInt8 := UInt8.le_iff_toNat_le.mpr (by rw [number]; exact great)
  have below : char.toUInt8 ≠ 127 := by
    intro same
    rw [same] at number
    simp at number
    omega
  simp [isValueByte, above, below]

theorem isGapByte_iff {char : Char} (visible : ContentType.isVisible char) :
    isGapByte char.toUInt8 = decide (char = ' ') := by
  have blank : char.toUInt8 = 32 ↔ char = ' ' :=
    Text.toUInt8_inj visible (by decide : ContentType.isVisible ' ')
  have tab : char.toUInt8 ≠ 9 := by
    intro same
    have number := Text.toNat_toUInt8 visible
    rw [same] at number
    have great := (Text.isVisible_iff.mp visible).1
    simp at number
    omega
  simp [isGapByte, blank, tab]

/-- Trimming the bytes of a text trims the text. -/
theorem trimEnd_encode (visible : Text.Visible text) :
    trimEnd (Text.encode text) = Text.encode (ContentType.trimmed text) := by
  rw [Text.encode_of_visible visible,
    Text.encode_of_visible (ContentType.visible_trimmed visible), ContentType.trimmed,
    String.toList_ofList]
  unfold Text.Visible at visible
  change (text.toList.map Char.toUInt8).rdropWhile isGapByte = _
  generalize text.toList = chars at visible
  induction chars using List.reverseRecOn with
  | nil => rfl
  | append_singleton chars last ih =>
      have lastVisible := visible last (List.mem_append_right _ (List.mem_singleton_self last))
      have others := ih fun char mem => visible char (List.mem_append_left _ mem)
      rw [List.map_append, List.map_singleton, List.rdropWhile_concat, List.rdropWhile_concat,
        isGapByte_iff lastVisible, others]
      split
      · rfl
      · rw [List.map_append, List.map_singleton]

/-- No blank is dropped in front of a value that does not start with one. -/
theorem dropWhile_isGapByte_encode (visible : Text.Visible text)
    (unspaced : text.toList.head? ≠ some ' ') (rest : Bytes) :
    (Text.encode text ++ 13 :: rest).dropWhile isGapByte = Text.encode text ++ 13 :: rest := by
  rw [Text.encode_of_visible visible]
  unfold Text.Visible at visible
  cases chars : text.toList with
  | nil => rfl
  | cons first chars =>
      rw [chars] at visible unspaced
      have firstVisible := visible first List.mem_cons_self
      have other : first ≠ ' ' := by simpa using unspaced
      rw [List.map_cons, List.cons_append, List.dropWhile_cons, isGapByte_iff firstVisible,
        decide_eq_false other, if_neg Bool.false_ne_true]

end Bytes

/-- A header can be written on a line. -/
structure Legible (header : String × String) : Prop where
  some_name : header.1 ≠ ""
  named : Text.Visible header.1
  token : ∀ char ∈ header.1.toList, ContentType.isToken char
  valued : Text.Visible header.2
  unspaced : header.2.toList.head? ≠ some ' '

/-- The line of a header. -/
def headerLine (header : String × String) : Bytes :=
  Text.encode (header.1 ++ ": " ++ header.2)

/-- A header as it is read from its line: its name in lower case, and its value without the blanks
at its end. -/
def readBack (header : String × String) : String × Bytes :=
  (ContentType.lowered header.1.toList, Text.encode (ContentType.trimmed header.2))

namespace Legible

variable {header : String × String}

theorem visible (legible : Legible header) :
    Text.Visible (header.1 ++ ": " ++ header.2) := by
  apply Text.Visible.append _ legible.valued
  apply legible.named.append
  decide

/-- The line of a header starts with a byte of its name. -/
theorem starts (legible : Legible header) :
    ∃ first others, Text.encode header.1 = first :: others ∧ isNameByte first := by
  have names := isNameByte_of_mem legible.named legible.token
  cases spelled : Text.encode header.1 with
  | nil =>
      rw [Text.encode_of_visible legible.named, List.map_eq_nil_iff] at spelled
      exact absurd (String.toList_eq_nil_iff.mp spelled) legible.some_name
  | cons first others =>
      rw [spelled] at names
      exact ⟨first, others, rfl, names first List.mem_cons_self⟩

theorem readHeader_line (legible : Legible header) (rest : Bytes) :
    readHeader (headerLine header ++ (lineEnd ++ rest)) = some (readBack header, rest) := by
  obtain ⟨name, value⟩ := header
  have separator : Text.encode ": " = [58, 32] := by
    rw [Text.encode_of_visible (by decide)]
    decide
  have split : headerLine (name, value) ++ (lineEnd ++ rest) =
      Text.encode name ++ (58 :: 32 :: (Text.encode value ++ (13 :: 10 :: rest))) := by
    simp [headerLine, separator, lineEnd]
  have names := isNameByte_of_mem legible.named legible.token
  have values := isValueByte_of_mem legible.valued
  have lowered : (Text.encode name).map (fun byte => (Char.ofNat byte.toNat).toLower) =
      name.toList.map Char.toLower := by
    rw [Text.encode_of_visible legible.named, List.map_map]
    apply List.map_congr_left
    intro char mem
    rw [Function.comp_apply, Text.ofNat_toUInt8 (legible.named char mem)]
  have colon : isNameByte 58 = false := by decide
  have carriageReturn : isValueByte 13 = false := by decide
  obtain ⟨nameFront, nameBack⟩ :=
    takeWhile_append_cons names colon (32 :: (Text.encode value ++ 13 :: 10 :: rest))
  obtain ⟨valueFront, valueBack⟩ := takeWhile_append_cons values carriageReturn (10 :: rest)
  have gap : (32 :: (Text.encode value ++ 13 :: 10 :: rest)).dropWhile isGapByte =
      Text.encode value ++ 13 :: 10 :: rest := by
    rw [List.dropWhile_cons_of_pos (by decide),
      dropWhile_isGapByte_encode legible.valued legible.unspaced]
  obtain ⟨first, others, spelled, -⟩ := legible.starts
  rw [split, readHeader, nameFront, nameBack]
  simp only at spelled
  simp only [spelled]
  rw [← spelled, gap, valueFront, valueBack, lowered, trimEnd_encode legible.valued]
  rfl

end Legible

/-- A line that starts with a byte of a name is not empty. -/
theorem afterLineEnd?_of_isNameByte {first : UInt8} (named : isNameByte first) (bytes : Bytes) :
    afterLineEnd? (first :: bytes) = none := by
  have unbroken : first ≠ 13 := by
    rintro rfl
    revert named
    decide
  have unended : first ≠ 10 := by
    rintro rfl
    revert named
    decide
  unfold afterLineEnd?
  split
  · rename_i same
    exact absurd (List.cons.inj same).1 unbroken
  · rename_i same
    exact absurd (List.cons.inj same).1 unended
  · rfl

/-- Headers are read from their lines up to the empty line after them. -/
theorem readHeaders_lines {headers : List (String × String)} {limit : Nat}
    (few : headers.length ≤ limit) (legible : ∀ header ∈ headers, Legible header) :
    readHeaders limit (lines (headers.map headerLine) ++ lineEnd) =
      some (headers.map readBack) := by
  induction headers generalizing limit with
  | nil =>
      unfold readHeaders
      rfl
  | cons header headers ih =>
      have front := legible header List.mem_cons_self
      obtain ⟨first, others, spelled, named⟩ := front.starts
      have split : lines ((header :: headers).map headerLine) ++ lineEnd =
          headerLine header ++ (lineEnd ++ (lines (headers.map headerLine) ++ lineEnd)) := by
        simp [lines]
      have unended : afterLineEnd? (headerLine header ++
          (lineEnd ++ (lines (headers.map headerLine) ++ lineEnd))) = none := by
        rw [headerLine, Text.encode_append, Text.encode_append, spelled]
        exact afterLineEnd?_of_isNameByte named _
      cases limit with
      | zero => cases few
      | succ limit =>
          have later := ih (Nat.le_of_succ_le_succ few) fun header mem =>
            legible header (List.mem_cons_of_mem _ mem)
          rw [split]
          unfold readHeaders
          rw [unended]
          simp [front.readHeader_line, later]

/-! ## File names -/

theorem filenameKey_eq : filenameKey = [102, 105, 108, 101, 110, 97, 109, 101] := by
  rw [filenameKey, Text.encode_of_visible (by decide)]
  decide

theorem length_filenameKey : filenameKey.length = 8 := by
  rw [filenameKey_eq]
  rfl

/-- Any fuel will do that is greater than the number of bytes. -/
theorem findFilename_eq_of_lt {fuel other : Nat} {free : Bool} {bytes : Bytes}
    (enough : bytes.length < fuel) (otherEnough : bytes.length < other) :
    findFilename fuel free bytes = findFilename other free bytes := by
  induction fuel generalizing other free bytes with
  | zero => cases enough
  | succ fuel ih =>
      cases other with
      | zero => cases otherEnough
      | succ other =>
          cases bytes with
          | nil => rfl
          | cons byte bytes =>
              rw [List.length_cons] at enough otherEnough
              rw [findFilename, findFilename]
              split
              · rename_i rest found
                have whole := congrArg List.length (after?_eq_some_iff.mp found)
                rw [List.length_append, List.length_cons, length_filenameKey] at whole
                split
                · rfl
                · exact ih (by omega) (by omega)
              · exact ih (by omega) (by omega)

/-- A byte that no key starts with is passed over. -/
theorem findFilename_cons {free : Bool} {byte : UInt8} {bytes : Bytes}
    (absent : ¬filenameKey <+: byte :: bytes) (fuel : Nat) :
    findFilename (fuel + 1) free (byte :: bytes) =
      findFilename fuel (isSpaceByte byte || byte = 59) bytes := by
  have unstarted : after? filenameKey (byte :: bytes) = none := by
    rw [Option.eq_none_iff_forall_ne_some]
    intro rest found
    exact absent ⟨rest, (after?_eq_some_iff.mp found).symm⟩
  rw [findFilename, unstarted]

/-- A key that is not free is passed over. -/
theorem findFilename_append_key (fuel : Nat) (rest : Bytes) :
    findFilename (fuel + 1) false (filenameKey ++ rest) = findFilename fuel true rest := by
  have found := after?_append filenameKey rest
  rw [filenameKey_eq, List.cons_append] at found ⊢
  rw [findFilename, filenameKey_eq, found]
  rfl

/-- Nothing in some bytes is taken for the key of a file's name: it does not stand at their start,
if it is free to, nor behind a byte that sets it free, nor behind itself. -/
structure Unkeyed (free : Bool) (bytes : Bytes) : Prop where
  started : free = true → ¬filenameKey <+: bytes
  freed : ∀ byte, (isSpaceByte byte || byte = 59) = true → ¬byte :: filenameKey <:+: bytes
  repeated : ¬filenameKey ++ filenameKey <:+: bytes

namespace Unkeyed

theorem of_absent {free : Bool} {bytes : Bytes} (absent : ¬filenameKey <:+: bytes) :
    Unkeyed free bytes where
  started _ inside := absent inside.isInfix
  freed byte _ inside := absent ((List.suffix_cons byte _).isInfix.trans inside)
  repeated inside := absent ((List.prefix_append _ _).isInfix.trans inside)

/-- In no more bytes than the key has nothing stands before a key. -/
theorem of_length_le {bytes : Bytes} (short : bytes.length ≤ filenameKey.length) :
    Unkeyed false bytes where
  started impossible := by cases impossible
  freed byte _ inside := by
    have long := inside.length_le
    rw [List.length_cons] at long
    omega
  repeated inside := by
    have long := inside.length_le
    rw [List.length_append, length_filenameKey] at long
    rw [length_filenameKey] at short
    omega

/-- The bytes behind the first one. -/
theorem tail {free : Bool} {byte : UInt8} {bytes : Bytes} (unkeyed : Unkeyed free (byte :: bytes)) :
    Unkeyed (isSpaceByte byte || byte = 59) bytes where
  started frees inside := unkeyed.freed byte frees (List.prefix_cons_inj byte |>.mpr inside).isInfix
  freed other frees inside :=
    unkeyed.freed other frees (inside.trans (List.suffix_cons byte bytes).isInfix)
  repeated inside := unkeyed.repeated (inside.trans (List.suffix_cons byte bytes).isInfix)

/-- The bytes behind a key that was not free. -/
theorem behind {free : Bool} {bytes : Bytes} (unkeyed : Unkeyed free (filenameKey ++ bytes)) :
    Unkeyed true bytes where
  started _ inside := unkeyed.repeated ((List.prefix_append_right_inj _).mpr inside).isInfix
  freed byte frees inside :=
    unkeyed.freed byte frees (inside.trans (List.suffix_append _ _).isInfix)
  repeated inside := unkeyed.repeated (inside.trans (List.suffix_append _ _).isInfix)

end Unkeyed

/-- A pattern in front of some bytes ends before a byte that it does not have. -/
theorem prefix_of_prefix_append_cons {pattern front rest : Bytes} {stop : UInt8}
    (outside : stop ∉ pattern) (started : pattern <+: front ++ stop :: rest) :
    pattern <+: front := by
  rcases List.prefix_or_prefix_of_prefix started (List.prefix_append front _) with
    inside | ⟨remaining, same⟩
  · exact inside
  · rw [← same, List.prefix_append_right_inj] at started
    cases remaining with
    | nil =>
        rw [List.append_nil] at same
        rw [same]
    | cons next remaining =>
        exfalso
        apply outside
        rw [← same, ← (List.cons_prefix_cons.mp started).1]
        simp

/-- Bytes in which nothing is taken for the key are passed over, up to a byte that is not in it. -/
theorem findFilename_skip {free : Bool} {front rest : Bytes} {stop : UInt8}
    (unkeyed : Unkeyed free front) (outside : stop ∉ filenameKey) {fuel other : Nat}
    (enough : (front ++ stop :: rest).length < fuel) (otherEnough : rest.length < other) :
    findFilename fuel free (front ++ stop :: rest) =
      findFilename other (isSpaceByte stop || stop = 59) rest := by
  induction fuel generalizing free front with
  | zero => cases enough
  | succ fuel ih =>
      have ends : filenameKey <+: front ++ stop :: rest → filenameKey <+: front :=
        prefix_of_prefix_append_cons outside
      by_cases started : filenameKey <+: front
      · obtain ⟨front, rfl⟩ := started
        have unfree : free = false := by
          rw [Bool.eq_false_iff]
          intro isFree
          exact unkeyed.started isFree (List.prefix_append _ _)
        rw [List.append_assoc, List.length_append, length_filenameKey] at enough
        rw [unfree, List.append_assoc, findFilename_append_key]
        exact ih unkeyed.behind (by omega)
      · cases front with
        | nil =>
            rw [List.nil_append] at ends enough ⊢
            rw [findFilename_cons (fun inside => started (ends inside))]
            exact findFilename_eq_of_lt (Nat.lt_of_succ_lt_succ enough) otherEnough
        | cons byte front =>
            rw [List.cons_append] at ends enough ⊢
            rw [findFilename_cons (fun inside => started (ends inside))]
            exact ih unkeyed.tail (Nat.lt_of_succ_lt_succ enough)

/-- A quoted value ends at the first quote, if it has no backslashes. -/
theorem readQuoted_append {bytes : Bytes} (unquoted : 34 ∉ bytes) (plain : 92 ∉ bytes)
    (rest : Bytes) : readQuoted (bytes ++ 34 :: rest) = some bytes := by
  induction bytes with
  | nil => simp [readQuoted]
  | cons byte bytes ih =>
      rw [List.mem_cons, not_or] at unquoted plain
      have later := ih unquoted.2 plain.2
      rw [List.cons_append]
      unfold readQuoted
      split
      · rename_i impossible
        cases impossible
      · rename_i same
        exact absurd (List.cons.inj same).1.symm plain.1
      · rename_i same
        exact absurd (List.cons.inj same).1.symm unquoted.1
      · rename_i same
        obtain ⟨rfl, rfl⟩ := List.cons.inj same
        rw [later]
        rfl

/-- The attribute with the name of a file is read off its key. -/
theorem findFilename_key {name : Bytes} (unquoted : 34 ∉ name) (plain : 92 ∉ name) (fuel : Nat) :
    findFilename (fuel + 1) true (filenameKey ++ 61 :: 34 :: (name ++ [34])) = some name := by
  have value : readAttribute (61 :: 34 :: (name ++ [34])) = some name := by
    rw [← readQuoted_append unquoted plain []]
    rfl
  have found := after?_append filenameKey (61 :: 34 :: (name ++ [34]))
  rw [filenameKey_eq] at found ⊢
  rw [List.cons_append] at found ⊢
  rw [findFilename, filenameKey_eq, found]
  exact value

namespace Field

/-- A field that can be told from the form around it, if the boundary of the form is the given
one. -/
structure Writable (boundary : String) (field : Field) : Prop where
  name : Text.Visible field.name
  /-- The name of the field does not look like the attribute with the name of the file. -/
  unkeyed : Unkeyed false (Text.encode field.name)
  filename : ∀ filename ∈ field.filename,
    Text.Visible filename ∧ '"' ∉ filename.toList ∧ '\\' ∉ filename.toList
  contentType : ∀ contentType ∈ field.contentType, (ContentType.ofHeader? contentType).isSome
  /-- The line that parts the form does not stand in the content. -/
  content : ¬lineEnd ++ dashes ++ Text.encode boundary <:+: field.content

variable {boundary : String} {field : Field}

theorem Writable.visible_disposition (writable : field.Writable boundary) :
    Text.Visible field.disposition := by
  have quote : Text.Visible "\"" := by decide
  have opening : Text.Visible "form-data; name=\"" := by decide
  unfold disposition
  apply Text.Visible.append
  · exact (opening.append writable.name).append quote
  · cases named : field.filename with
    | none => exact (by decide : Text.Visible "")
    | some filename =>
        have middle : Text.Visible "; filename=\"" := by decide
        exact (middle.append (writable.filename filename named).1).append quote

theorem quote_not_mem_filenameKey : (34 : UInt8) ∉ filenameKey := by
  rw [filenameKey_eq]
  decide

theorem encode_quote : Text.encode "\"" = [34] := by
  rw [Text.encode_of_visible (by decide)]
  decide

/-- The name of a field is passed over in the search for the name of a file. -/
theorem Writable.findFilename_name (writable : field.Writable boundary) {rest : Bytes}
    {fuel other : Nat} (enough : (Text.encode ("form-data; name=\"" ++ field.name ++ "\"") ++
      rest).length < fuel) (otherEnough : rest.length < other) :
    findFilename fuel true (Text.encode ("form-data; name=\"" ++ field.name ++ "\"") ++ rest) =
      findFilename other false rest := by
  obtain ⟨front, opening, unnamed⟩ : ∃ front : Bytes,
      Text.encode "form-data; name=\"" = front ++ [34] ∧ ¬filenameKey <:+: front := by
    refine ⟨[102, 111, 114, 109, 45, 100, 97, 116, 97, 59, 32, 110, 97, 109, 101, 61], ?_, ?_⟩
    · rw [Text.encode_of_visible (by decide)]
      decide
    · rw [filenameKey_eq]
      decide
  have split : Text.encode ("form-data; name=\"" ++ field.name ++ "\"") ++ rest =
      front ++ 34 :: (Text.encode field.name ++ 34 :: rest) := by
    simp [opening, encode_quote]
  rw [split] at enough ⊢
  rw [findFilename_skip (.of_absent unnamed) quote_not_mem_filenameKey enough
    (Nat.lt_succ_self _)]
  exact findFilename_skip writable.unkeyed quote_not_mem_filenameKey (Nat.lt_succ_self _)
    otherEnough

/-- The name of a file is found in the attribute that it is written in. -/
theorem findFilename_attribute {filename : String} (visible : Text.Visible filename)
    (unquoted : '"' ∉ filename.toList) (plain : '\\' ∉ filename.toList) :
    findFilename ((Text.encode ("; filename=\"" ++ filename ++ "\"")).length + 1) false
      (Text.encode ("; filename=\"" ++ filename ++ "\"")) = some (Text.encode filename) := by
  have separator : Text.encode "; filename=\"" = 59 :: 32 :: (filenameKey ++ [61, 34]) := by
    rw [filenameKey_eq, Text.encode_of_visible (by decide)]
    decide
  have split : Text.encode ("; filename=\"" ++ filename ++ "\"") =
      [59] ++ 32 :: (filenameKey ++ 61 :: 34 :: (Text.encode filename ++ [34])) := by
    simp [encode_quote, separator]
  have outside : (32 : UInt8) ∉ filenameKey := by
    rw [filenameKey_eq]
    decide
  have semicolon : ¬filenameKey <:+: [59] := by
    rw [filenameKey_eq]
    decide
  have unquotedBytes : 34 ∉ Text.encode filename := fun mem =>
    unquoted ((Text.mem_encode_iff visible (by decide : ContentType.isVisible '"')).mp mem)
  have plainBytes : 92 ∉ Text.encode filename := fun mem =>
    plain ((Text.mem_encode_iff visible (by decide : ContentType.isVisible '\\')).mp mem)
  rw [split, findFilename_skip (.of_absent semicolon) outside (Nat.lt_succ_self _)
    (Nat.lt_succ_self _)]
  exact findFilename_key unquotedBytes plainBytes _

/-- The name of a field's file is read from its disposition. -/
theorem Writable.filename?_disposition (writable : field.Writable boundary) :
    filename? (Text.encode field.disposition) = field.filename := by
  unfold filename? disposition
  cases named : field.filename with
  | none =>
      have nothing : Text.encode "" = [] := by
        rw [Text.encode_eq_toList]
        rfl
      dsimp only
      rw [Text.encode_append _ "", nothing,
        writable.findFilename_name (Nat.lt_succ_self _) (Nat.lt_succ_self _)]
      rfl
  | some filename =>
      obtain ⟨visible, unquoted, plain⟩ := writable.filename filename named
      dsimp only
      rw [Text.encode_append _ (_ ++ _ ++ _),
        writable.findFilename_name (Nat.lt_succ_self _) (Nat.lt_succ_self _),
        findFilename_attribute visible unquoted plain]
      exact Text.decode?_encode filename

/-! ## Parts -/

/-- The part that is read where a field was written. Blanks at the end of its content type belong
to the line. -/
def toRead (field : Field) : Part :=
  { field.toPart with contentType := field.contentType.map ContentType.trimmed }

theorem head?_disposition (field : Field) : field.disposition.toList.head? = some 'f' := by
  have front : "form-data; name=\"".toList.head? = some 'f' := by decide
  unfold disposition
  -- Only its first character matters.
  generalize "form-data; name=\"" = opening at front ⊢
  rw [String.toList_append, String.toList_append, String.toList_append, List.head?_append,
    List.head?_append, List.head?_append, front]
  rfl

/-- The headers of a field can be written on lines. -/
theorem Writable.legible (writable : field.Writable boundary) :
    ∀ header ∈ field.headers, Legible header := by
  have named : ∀ name ∈ ["Content-Disposition", "Content-Type"], name ≠ "" ∧
      Text.Visible name ∧ name.toList.all ContentType.isToken := by decide
  intro header mem
  rw [headers, List.mem_cons, Option.mem_toList, Option.map_eq_some_iff] at mem
  rcases mem with rfl | ⟨declared, typed, rfl⟩
  · obtain ⟨some_name, visible, token⟩ := named "Content-Disposition" (by simp)
    have unspaced : field.disposition.toList.head? ≠ some ' ' := by
      rw [head?_disposition]
      decide
    exact ⟨some_name, visible, List.all_eq_true.mp token, writable.visible_disposition, unspaced⟩
  · obtain ⟨some_name, visible, token⟩ := named "Content-Type" (by simp)
    have accepted := writable.contentType declared typed
    exact ⟨some_name, visible, List.all_eq_true.mp token, ContentType.visible_of_ofHeader? accepted,
      ContentType.unspaced_of_ofHeader? accepted⟩

/-- The headers of a field are cut off from what follows them, and read. -/
theorem Writable.readHeaders_block (writable : field.Writable boundary) (rest : Bytes) :
    ∃ block, cut? (lineEnd ++ lineEnd)
        (lines (field.headers.map headerLine) ++ (lineEnd ++ rest)) = some (block, rest) ∧
      readHeaders headerLimit (block ++ lineEnd ++ lineEnd) =
        some (field.headers.map readBack) := by
  have legible := writable.legible
  have solid : ∀ line ∈ field.headers.map headerLine, line ≠ [] ∧ 13 ∉ line := by
    rw [List.forall_mem_map]
    intro header mem
    obtain ⟨first, others, spelled, -⟩ := (legible header mem).starts
    refine ⟨?_, Text.not_mem_encode (legible header mem).visible (by decide)⟩
    rw [headerLine, Text.encode_append, Text.encode_append, spelled]
    exact List.cons_ne_nil _ _
  have few : field.headers.length ≤ headerLimit := by
    rw [Field.headers, List.length_cons]
    cases field.contentType with
    | none => decide
    | some declared => exact (by decide : 2 ≤ headerLimit)
  obtain ⟨block, whole, cut⟩ := cut?_lines (by simp [Field.headers]) solid rest
  refine ⟨block, cut, ?_⟩
  rw [whole]
  exact readHeaders_lines few legible

/-- The headers of a field as they are read. -/
theorem map_readBack_headers (field : Field) : field.headers.map readBack =
    ("content-disposition", Text.encode field.disposition) ::
      (field.contentType.map fun declared =>
        ("content-type", Text.encode (ContentType.trimmed declared))).toList := by
  have whole : ContentType.trimmed field.disposition = field.disposition := by
    unfold disposition
    cases field.filename with
    | none =>
        rw [String.append_empty]
        exact ContentType.trimmed_append_quote _
    | some filename =>
        dsimp only
        rw [← String.append_assoc]
        exact ContentType.trimmed_append_quote _
  have first : ContentType.lowered "Content-Disposition".toList = "content-disposition" := by
    decide
  have second : ContentType.lowered "Content-Type".toList = "content-type" := by decide
  rw [headers, List.map_cons, readBack, first, whole]
  cases field.contentType with
  | none => rfl
  | some declared =>
      simp only [Option.map_some, Option.toList_some, List.map_singleton, readBack, second]

/-- From its headers and its content a field is read as it was written. -/
theorem Writable.assemble_headers (writable : field.Writable boundary) :
    assemble (field.headers.map readBack) field.content = field.toRead := by
  have named := writable.filename?_disposition
  rw [map_readBack_headers]
  unfold assemble toRead
  cases typed : field.contentType with
  | none => simp [header?, named]
  | some declared =>
      have accepted := ContentType.isSome_ofHeader?_trimmed (writable.contentType declared typed)
      obtain ⟨contentType, accepted⟩ := Option.isSome_iff_exists.mp accepted
      simp [header?, named, Text.decode?_encode, accepted]

end Field

/-! ## Whole forms -/

/-- What stands after the first boundary of a form. -/
def following (boundary : String) : List Field → Bytes
  | [] => dashes ++ lineEnd
  | field :: fields =>
      lineEnd ++ (lines (field.headers.map headerLine) ++ (lineEnd ++ (field.content ++
        (lineEnd ++ dashes ++ Text.encode boundary ++ following boundary fields))))

theorem write_eq (boundary : String) (fields : List Field) :
    write boundary fields = dashes ++ Text.encode boundary ++ following boundary fields := by
  induction fields with
  | nil => simp [write, following]
  | cons field fields ih =>
      simp only [write, List.append_assoc] at ih
      simp [write, Field.write, following, lines, headerLine, List.flatMap_map, ih]

theorem length_le_length_following (boundary : String) (fields : List Field) :
    fields.length ≤ (following boundary fields).length := by
  induction fields with
  | nil => exact Nat.zero_le _
  | cons field fields ih =>
      simp only [following, List.length_append, List.length_cons, lineEnd]
      omega

section Reading

variable {boundary : String} {field : Field} {fields : List Field}

/-- One part is read off the front, and what it leaves starts after the next boundary. -/
theorem readParts_cons (visible : Text.Visible boundary) (writable : field.Writable boundary)
    (fuel : Nat) :
    readParts (Text.encode boundary) (fuel + 1) (following boundary (field :: fields)) =
      (readParts (Text.encode boundary) fuel (following boundary fields)).map
        (field.toRead :: ·) := by
  have opening (bytes : Bytes) : after? dashes (lineEnd ++ bytes) = none :=
    after?_cons_of_ne (by decide) _ _
  have ungapped (bytes : Bytes) : (lineEnd ++ bytes).dropWhile isGapByte = lineEnd ++ bytes :=
    List.dropWhile_cons_of_neg (by decide)
  obtain ⟨block, blockCut, headersRead⟩ := writable.readHeaders_block
    (field.content ++ (lineEnd ++ dashes ++ Text.encode boundary ++ following boundary fields))
  have once : (13 : UInt8) ∉ [10] ++ dashes ++ Text.encode boundary := by
    have unbroken : (13 : UInt8) ∉ Text.encode boundary :=
      Text.not_mem_encode visible (by decide)
    simp [dashes, unbroken]
  have contentCut : cut? (lineEnd ++ dashes ++ Text.encode boundary)
      (field.content ++ (lineEnd ++ dashes ++ Text.encode boundary ++ following boundary fields)) =
        some (field.content, following boundary fields) :=
    cut?_of_absent once writable.content _
  rw [following, readParts, opening]
  simp only [ungapped, after?_append, blockCut, headersRead, contentCut, writable.assemble_headers,
    Option.bind_eq_bind, Option.bind_some]
  cases readParts (Text.encode boundary) fuel (following boundary fields) <;> rfl

/-- What follows the first boundary is read part by part. -/
theorem readParts_following (visible : Text.Visible boundary)
    (writable : ∀ field ∈ fields, field.Writable boundary) {fuel : Nat}
    (enough : fields.length < fuel) :
    readParts (Text.encode boundary) fuel (following boundary fields) =
      some (fields.map Field.toRead) := by
  induction fields generalizing fuel with
  | nil =>
      cases fuel with
      | zero => cases enough
      | succ fuel => rw [following, readParts, after?_append, List.map_nil]
  | cons field fields ih =>
      cases fuel with
      | zero => cases enough
      | succ fuel =>
          have later := ih (fun field mem => writable field (List.mem_cons_of_mem _ mem))
            (Nat.lt_of_succ_lt_succ enough)
          rw [readParts_cons visible (writable field List.mem_cons_self), later]
          rfl

/-- A form is read as it was written. -/
theorem read_write (visible : Text.Visible boundary)
    (writable : ∀ field ∈ fields, field.Writable boundary) :
    read boundary (write boundary fields) = some (fields.map Field.toRead) := by
  have front : cut? (dashes ++ Text.encode boundary) (write boundary fields) =
      some ([], following boundary fields) := by
    rw [write_eq]
    exact cut?_front 45 ([45] ++ Text.encode boundary) _
  have enough := Nat.lt_succ_of_le (length_le_length_following boundary fields)
  have partsRead := readParts_following visible writable enough
  simp [read, front, partsRead]

end Reading

end ImageGallery.Http.Form
