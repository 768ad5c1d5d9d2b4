import ImageGallery.Blob.Local
import ImageGallery.Proofs.Walk

/-!
# Storage keys

A storage key consists of a scope, a parent and the name of a file, and is cut into these three
again when the file is looked up. Names of files with different times differ.
-/

namespace ImageGallery

/-! ## Cutting at slashes -/

namespace Text

variable {separator : Char} {field rest : List Char}

/-- A text without separators is one field. -/
theorem fields_of_not_mem (clean : separator ∉ field) : fields separator field = [field] := by
  induction field with
  | nil => rfl
  | cons char field ih =>
      rw [List.mem_cons, not_or] at clean
      rw [fields, if_neg (Ne.symm clean.1), ih clean.2]

/-- The first field ends at the first separator. -/
theorem fields_append_cons (clean : separator ∉ field) :
    fields separator (field ++ separator :: rest) = field :: fields separator rest := by
  induction field with
  | nil => rw [List.nil_append, fields, if_pos rfl]
  | cons char field ih =>
      rw [List.mem_cons, not_or] at clean
      rw [List.cons_append, fields, if_neg (Ne.symm clean.1), ih clean.2]

end Text

/-- A text with a hyphen stands for an entry. -/
theorem Disk.Tree.Plain.of_hyphen {name : String} (hyphen : '-' ∈ name.toList) : Plain name := by
  refine ⟨?_, ?_, ?_⟩
  · rintro rfl
    simp at hyphen
  · rintro rfl
    simp at hyphen
  · rintro rfl
    simp at hyphen

/-- The key is the path of its names below the root of every blob store. -/
def LocalBlobs.Keyed (key : String) : Prop :=
  ∀ blobs : LocalBlobs, blobs.resolve? key = some (blobs.rootPath.join (Disk.Path.split key))

/-- A text that is usable as one name: it stands for an entry, and no slash is in it. -/
structure EntryName (name : String) : Prop where
  plain : Disk.Tree.Plain name
  whole : '/' ∉ name.toList

namespace EntryName

theorem toList_ne_nil {name : String} (entry : EntryName name) : name.toList ≠ [] := by
  intro empty
  exact entry.plain.1 (String.toList_inj.mp empty)

/-- The names that a key of three entry names is made of. -/
theorem split_key {scope parent filename : String} (scopeName : EntryName scope)
    (parentName : EntryName parent) (fileName : EntryName filename) :
    Disk.Path.split (scope ++ "/" ++ parent ++ "/" ++ filename) = [scope, parent, filename] := by
  have chars : (scope ++ "/" ++ parent ++ "/" ++ filename).toList =
      scope.toList ++ '/' :: (parent.toList ++ '/' :: filename.toList) := by
    simp
  have cut : Text.fields '/' (scope ++ "/" ++ parent ++ "/" ++ filename).toList =
      [scope.toList, parent.toList, filename.toList] := by
    rw [chars, Text.fields_append_cons scopeName.whole, Text.fields_append_cons parentName.whole,
      Text.fields_of_not_mem fileName.whole]
  have open_end : (scope ++ "/" ++ parent ++ "/" ++ filename).toList.getLast? ≠ some '/' := by
    obtain ⟨last, lastEq⟩ := Option.isSome_iff_exists.mp
      (List.getLast?_isSome.mpr fileName.toList_ne_nil)
    intro slash
    rw [chars, List.getLast?_append, List.getLast?_cons, List.getLast?_append, List.getLast?_cons,
      lastEq] at slash
    cases slash
    exact fileName.whole (List.mem_of_getLast? lastEq)
  unfold Disk.Path.split
  dsimp only
  rw [if_neg (fun ends => open_end ends.2), cut]
  simp [scopeName.toList_ne_nil, parentName.toList_ne_nil, fileName.toList_ne_nil]

/-- A key of three entry names is the path of these names below the root. -/
theorem keyed {scope parent filename : String} (scopeName : EntryName scope)
    (parentName : EntryName parent) (fileName : EntryName filename) :
    LocalBlobs.Keyed (scope ++ "/" ++ parent ++ "/" ++ filename) := by
  intro blobs
  unfold LocalBlobs.resolve?
  rw [split_key scopeName parentName fileName, if_neg, if_neg]
  · rw [List.head?_cons, Option.some_inj, List.mem_cons, List.mem_cons, List.mem_singleton]
    rintro (dot | up | up | up)
    · exact scopeName.plain.2.1 dot
    · exact scopeName.plain.2.2 up.symm
    · exact parentName.plain.2.2 up.symm
    · exact fileName.plain.2.2 up.symm
  · rintro (empty | absolute)
    · have nothing := congrArg String.toList empty
      simp at nothing
    · obtain ⟨first, rest, chars⟩ := List.exists_cons_of_ne_nil scopeName.toList_ne_nil
      have slash : first = '/' := by
        simpa [Disk.Path.isAbsolute, chars] using absolute
      apply scopeName.whole
      rw [chars, slash]
      exact List.mem_cons_self

/-- A segment is an entry name. -/
theorem of_segment {segment : String} (valid : Segment.isValid segment) : EntryName segment := by
  unfold Segment.isValid at valid
  simp only [Bool.and_eq_true, Bool.not_eq_true', List.isEmpty_eq_false_iff,
    decide_eq_true_eq, List.all_eq_true] at valid
  obtain ⟨⟨⟨some_chars, -⟩, hidden⟩, allowed⟩ := valid
  refine ⟨⟨?_, ?_, ?_⟩, ?_⟩
  · rintro rfl
    exact some_chars rfl
  · rintro rfl
    exact hidden rfl
  · rintro rfl
    exact hidden rfl
  · intro slash
    have refused := allowed '/' slash
    revert refused
    decide

end EntryName

/-! ## Names of files -/

namespace Text

theorem isDigit_of_mem_naturalText {value : Nat} {char : Char} (mem : char ∈ naturalText value) :
    char.isDigit :=
  Nat.isDigit_of_mem_toDigits (by decide) (by decide) mem

/-- Numbers with the same digits are the same. -/
theorem naturalText_injective {first second : Nat} (same : naturalText first = naturalText second) :
    first = second := by
  have read := congrArg (fun digits => Nat.ofDigitChars 10 digits 0) same
  simpa [naturalText, Nat.ofDigitChars_ten_toDigits] using read

/-- A digit to the base 16 is no slash. -/
theorem hexDigit_ne_slash {value : Nat} (small : value < 16) : hexDigit value ≠ '/' := by
  revert small
  revert value
  decide

theorem slash_not_mem_hexText {width value : Nat} : '/' ∉ hexText width value := by
  induction width generalizing value with
  | zero => simp [hexText]
  | succ width ih =>
      rw [hexText, List.mem_append, List.mem_singleton]
      rintro (before | last)
      · exact ih before
      · exact hexDigit_ne_slash (Nat.mod_lt _ (by decide)) last.symm

end Text

namespace Blob

variable {draw other : Draw} {index otherIndex : Nat} {media otherMedia : MediaType}

/-- The name of a stored file can be used as one. -/
theorem entryName_filename : EntryName (filename draw index media) := by
  refine ⟨.of_hyphen (by simp [filename]), ?_⟩
  rw [filename, String.toList_ofList]
  simp only [List.mem_append, List.mem_cons, not_or]
  refine ⟨⟨⟨?_, by decide, ?_⟩, by decide, Text.slash_not_mem_hexText⟩, by decide, ?_⟩
  · exact fun slash => absurd (Text.isDigit_of_mem_naturalText slash) (by decide)
  · exact fun slash => absurd (Text.isDigit_of_mem_naturalText slash) (by decide)
  · cases media with
    | jpeg extension => cases extension <;> decide
    | png => decide
    | webp => decide

/-- What stands before the first hyphen in a name is the time. -/
theorem takeWhile_filename :
    (filename draw index media).toList.takeWhile (· ≠ '-') = Text.naturalText draw.micros := by
  have digits : ∀ char ∈ Text.naturalText draw.micros, decide (char ≠ '-') = true := by
    intro char mem
    apply decide_eq_true
    intro hyphen
    have digit := Text.isDigit_of_mem_naturalText mem
    rw [hyphen] at digit
    revert digit
    decide
  rw [filename, String.toList_ofList, List.append_assoc, List.append_assoc,
    List.takeWhile_append_of_pos digits]
  simp

/-- The time in a name can be read off it. -/
theorem micros_eq_of_filename_eq
    (same : filename draw index media = filename other otherIndex otherMedia) :
    draw.micros = other.micros := by
  have before : (filename draw index media).toList.takeWhile (· ≠ '-') =
      Text.naturalText draw.micros := takeWhile_filename
  rw [same, takeWhile_filename] at before
  exact (Text.naturalText_injective before).symm

/-- No stored file is named like a temporary file. -/
theorem temporaryName_ne_filename : temporaryName other ≠ filename draw index media := by
  intro same
  have before : (temporaryName other).toList.takeWhile (· ≠ '-') = ['t', 'm', 'p'] := by
    simp [temporaryName]
  rw [same, takeWhile_filename] at before
  have digit : 't'.isDigit := Text.isDigit_of_mem_naturalText (before ▸ List.mem_cons_self)
  revert digit
  decide

/-- The name of a temporary file stands for an entry. -/
theorem plain_temporaryName : Disk.Tree.Plain (temporaryName draw) :=
  .of_hyphen (by simp [temporaryName])

end Blob

end ImageGallery
