import Mathlib.Data.Nat.Digits.Defs
import ImageGallery.Proofs.Paths
import ImageGallery.Proofs.Removal
import ImageGallery.Proofs.Streaming

/-!
# Which keys are resolved

A key is meant to stand for a path if it is relative and all its components are plain names. One
kind of key more is resolved: a component `.` is passed over wherever it stands behind the first
one, so a file is found and removed under keys that hide a `.` in the middle or at the end.

The key of a saved file consists of plain names. It can be cut into scope, parent and file name
again, and stands for the very path that the file was moved to. This path is below the root, and
outside the directory of the temporary files.
-/

namespace ImageGallery

open Disk

/-! ## Components -/

namespace Disk.Path

/-- The components of a text: what stands between its slashes, without empty ones. -/
def pieces (text : String) : List String :=
  ((Text.fields '/' text.toList).filter (· ≠ [])).map String.ofList

/-- The names of a text are its components, and an empty one for a slash at the end. -/
theorem split_cases (text : String) :
    split text = pieces text ∨ pieces text ≠ [] ∧ split text = pieces text ++ [""] := by
  unfold split
  dsimp only
  split
  · rename_i ends
    exact .inr ⟨ends.1, rfl⟩
  · exact .inl rfl

theorem head?_split (text : String) : (split text).head? = (pieces text).head? := by
  rcases split_cases text with same | ⟨some_pieces, slash⟩
  · rw [same]
  · obtain ⟨first, rest, pieces_eq⟩ := List.exists_cons_of_ne_nil some_pieces
    rw [slash, pieces_eq]
    rfl

theorem mem_split_iff {text name : String} (named : name ≠ "") :
    name ∈ split text ↔ name ∈ pieces text := by
  rcases split_cases text with same | ⟨-, slash⟩
  · rw [same]
  · rw [slash, List.mem_append, List.mem_singleton]
    simp [named]

/-- Plain names below a text stay the last components. -/
theorem components_eq_append (root : String) {names : List String}
    (plain : ∀ name ∈ names, Tree.Plain name) :
    components ⟨root, names⟩ = components ⟨root, []⟩ ++ names := by
  have whole := withoutSlash_names root fun name mem => (plain name mem).1
  have alone : withoutSlash (Path.names ⟨root, []⟩) = withoutSlash (split root) := rfl
  have kept : names.filter (· ≠ ".") = names :=
    List.filter_eq_self.mpr fun name mem => decide_eq_true (plain name mem).2.1
  unfold components
  rw [whole, alone]
  cases withoutSlash (split root) with
  | nil =>
      cases names with
      | nil => rfl
      | cons first rest =>
          have dotless : first ≠ "." := (plain first List.mem_cons_self).2.1
          rw [List.filter_cons_of_pos (by simp [dotless])] at kept
          simp only [List.nil_append, dotless, false_and, if_false, (List.cons.inj kept).2]
  | cons first rest =>
      simp only [List.cons_append, List.filter_append, kept]
      split
      · rfl
      · rfl

end Disk.Path

namespace LocalBlobs

/-! ## Keys of plain names -/

/-- A key of plain names: it is relative, and no component is `.` or `..`. -/
structure PlainKey (key : String) : Prop where
  some_text : key ≠ ""
  relative : ¬Path.isAbsolute key
  plain : ∀ component ∈ Path.pieces key, component ≠ "." ∧ component ≠ ".."

/-- A relative key that starts with a plain name and does not go up, but has a component `.` behind
its first one. -/
structure HiddenDot (key : String) : Prop where
  relative : ¬Path.isAbsolute key
  first : (Path.pieces key).head? ≠ some "."
  up : ".." ∉ Path.pieces key
  dot : "." ∈ Path.pieces key

/-- A key is resolved if it is made of plain names, and no file has a key with another component. -/
structure PlainlyResolved (blobs : LocalBlobs) (key : String) : Prop where
  isSome_iff : (blobs.resolve? key).isSome ↔ PlainKey key
  refused : "." ∈ Path.pieces key ∨ ".." ∈ Path.pieces key →
    blobs.contains key = false ∧ blobs.delete key = (false, blobs)

variable {blobs : LocalBlobs} {key : String}

theorem HiddenDot.not_plainKey (hidden : HiddenDot key) : ¬PlainKey key :=
  fun plain => (plain.plain "." hidden.dot).1 rfl

/-- A key is resolved if it is not absolute, does not start with `.`, and does not go up. -/
theorem resolve?_isSome_iff_pieces : (blobs.resolve? key).isSome ↔
    key ≠ "" ∧ ¬Path.isAbsolute key ∧ (Path.pieces key).head? ≠ some "." ∧
      ".." ∉ Path.pieces key := by
  rw [← Path.head?_split, ← Path.mem_split_iff (by decide)]
  unfold resolve?
  split
  · rename_i refused
    rw [← not_or, ← and_assoc, ← not_or]
    simp [refused]
  · rename_i relative
    rw [not_or] at relative
    split
    · rename_i refused
      rw [← not_or]
      simp [refused]
    · rename_i accepted
      rw [not_or] at accepted
      exact ⟨fun _ => ⟨relative.1, relative.2, accepted⟩, fun _ => rfl⟩

/-- Besides the keys of plain names, the keys with a hidden `.` are resolved. -/
theorem resolve?_isSome_iff :
    (blobs.resolve? key).isSome ↔ PlainKey key ∨ HiddenDot key := by
  rw [resolve?_isSome_iff_pieces]
  constructor
  · rintro ⟨some_text, relative, first, up⟩
    by_cases dot : "." ∈ Path.pieces key
    · exact .inr ⟨relative, first, up, dot⟩
    · refine .inl ⟨some_text, relative, fun component mem => ⟨?_, ?_⟩⟩
      · rintro rfl
        exact dot mem
      · rintro rfl
        exact up mem
  · rintro (plain | hidden)
    · refine ⟨plain.some_text, plain.relative, fun first => ?_, fun up => ?_⟩
      · exact (plain.plain "." (List.mem_of_mem_head? first)).1 rfl
      · exact (plain.plain ".." up).2 rfl
    · refine ⟨?_, hidden.relative, hidden.first, hidden.up⟩
      rintro rfl
      have nothing := hidden.dot
      revert nothing
      decide

/-- Nothing is found or removed under a key that is not resolved. -/
theorem refused_of_resolve?_eq_none (unresolved : blobs.resolve? key = none) :
    blobs.contains key = false ∧ blobs.delete key = (false, blobs) := by
  rw [contains, delete, unresolved]
  exact ⟨rfl, rfl⟩

/-- Exactly the keys with a hidden `.` are not resolved as they are meant to be. -/
theorem plainlyResolved_iff (blobs : LocalBlobs) (key : String) :
    PlainlyResolved blobs key ↔ ¬HiddenDot key := by
  constructor
  · intro plainly hidden
    exact hidden.not_plainKey (plainly.isSome_iff.mp (resolve?_isSome_iff.mpr (.inr hidden)))
  · intro plain_or_refused
    have isSome_iff : (blobs.resolve? key).isSome ↔ PlainKey key := by
      rw [resolve?_isSome_iff, or_iff_left plain_or_refused]
    refine ⟨isSome_iff, fun odd => refused_of_resolve?_eq_none ?_⟩
    rw [← Option.not_isSome_iff_eq_none, isSome_iff]
    intro plain
    rcases odd with dot | up
    · exact (plain.plain "." dot).1 rfl
    · exact (plain.plain ".." up).2 rfl

/-- A store with one file in one directory. -/
def oneFile : LocalBlobs where
  root := "/root"
  chunkSize := 1
  names := { draws := fun _ => default }
  tree :=
    { entries :=
        [(["root"], .directory), (["root", "a"], .directory),
          (["root", "a", "x.png"], .file (.ofBytes [1]))] }

/-- A file is found and removed under a key with a `.` in its middle. -/
theorem hiddenDot_oneFile :
    "." ∈ Path.pieces "a/./x.png" ∧ ¬PlainlyResolved oneFile "a/./x.png" ∧
      oneFile.contains "a/./x.png" = true ∧ (oneFile.delete "a/./x.png").1 = true := by
  have dot : "." ∈ Path.pieces "a/./x.png" := by decide +kernel
  have resolved : oneFile.resolve? "a/./x.png" = some ⟨"/root", ["a", ".", "x.png"]⟩ := by
    decide +kernel
  have names : Path.names ⟨"/root", ["a", ".", "x.png"]⟩ = ["root", "a", ".", "x.png"] := by
    decide +kernel
  have rootNames : Path.names ⟨"/root", []⟩ = ["root"] := by decide +kernel
  have checked : Tree.checkPath (Path.display ⟨"/root", ["a", ".", "x.png"]⟩) = .ok () := by
    decide +kernel
  have file : oneFile.tree.resolve ⟨"/root", ["a", ".", "x.png"]⟩ =
      .ok (.entry ["root", "a", "x.png"] (.file (.ofBytes [1]))) := by
    refine Tree.lead_eq_ok_iff.mpr ⟨checked, ?_⟩
    simp +decide [names, Tree.follow, oneFile, Tree.lookup]
  have located : oneFile.tree.locate ⟨"/root", ["a", ".", "x.png"]⟩ =
      .ok (.entry ["root", "a", "x.png"] (.file (.ofBytes [1]))) := by
    refine Tree.lead_eq_ok_iff.mpr ⟨checked, ?_⟩
    simp +decide [names, Tree.follow, oneFile, Tree.lookup]
  have root : oneFile.tree.resolve oneFile.rootPath = .ok (.entry ["root"] .directory) := by
    refine Tree.lead_eq_ok_iff.mpr ⟨by decide +kernel, ?_⟩
    change Tree.follow _ _ _ _ (Path.names ⟨"/root", []⟩) = _
    simp +decide [rootNames, Tree.follow, oneFile, Tree.lookup]
  have isFile : oneFile.tree.isFile ⟨"/root", ["a", ".", "x.png"]⟩ = true := by
    rw [Tree.isFile, file]
  have isContained : oneFile.isContained ⟨"/root", ["a", ".", "x.png"]⟩ = true := by
    rw [isContained, Tree.canonical?, Tree.canonical?, file, root]
    decide
  have found : oneFile.contains "a/./x.png" = true := by
    rw [contains, resolved]
    exact Bool.and_eq_true_iff.mpr ⟨isFile, isContained⟩
  refine ⟨dot, fun plainly => ?_, found, ?_⟩
  · have refused := (plainly.refused (.inl dot)).1
    rw [found] at refused
    cases refused
  · rw [delete, resolved]
    dsimp only
    rw [if_pos ⟨isFile, isContained⟩, Tree.remove, located]

end LocalBlobs

/-! ## Names of saved files -/

namespace Text

/-- A text is cut at a separator if none follows. -/
theorem cutLast?_append_cons {separator : Char} {before after : List Char}
    (clean : separator ∉ after) :
    cutLast? separator (before ++ separator :: after) = some (before, after) := by
  have others : ∀ char ∈ after.reverse, decide (char ≠ separator) = true := by
    intro char mem
    apply decide_eq_true
    rintro rfl
    exact clean (List.mem_reverse.mp mem)
  have reversed : (before ++ separator :: after).reverse =
      after.reverse ++ separator :: before.reverse := by
    simp
  unfold cutLast?
  dsimp only
  rw [reversed, List.takeWhile_append_of_pos others, List.dropWhile_append_of_pos others]
  simp

/-- A number of 64 bits has at most twenty digits. -/
theorem length_naturalText_le {value : Nat} (fits : value < UInt64.size) :
    (naturalText value).length ≤ 20 :=
  Nat.toDigits_length 10 value 20 (by decide) (Nat.lt_trans fits (by decide))

@[simp]
theorem length_hexText (width value : Nat) : (hexText width value).length = width := by
  induction width generalizing value with
  | zero => rfl
  | succ width ih => rw [hexText, List.length_append, ih, List.length_singleton]

end Text

namespace Segment

open Text

theorem allows_of_mem_naturalText {value : Nat} {char : Char} (mem : char ∈ naturalText value) :
    allows char := by
  have digit : char.isDigit := isDigit_of_mem_naturalText mem
  simp [allows, Char.isAlphanum, digit]

theorem allows_hexDigit {value : Nat} (small : value < 16) : allows (hexDigit value) := by
  revert small
  revert value
  decide

theorem allows_of_mem_hexText {width value : Nat} {char : Char} (mem : char ∈ hexText width value) :
    allows char := by
  induction width generalizing value with
  | zero => cases mem
  | succ width ih =>
      rw [hexText, List.mem_append, List.mem_singleton] at mem
      rcases mem with before | rfl
      · exact ih before
      · exact allows_hexDigit (Nat.mod_lt _ (by decide))

end Segment

namespace MediaType

theorem allows_extension (media : MediaType) : media.extension.toList.all Segment.allows := by
  cases media with
  | jpeg spelling => cases spelling <;> decide +kernel
  | png => decide +kernel
  | webp => decide +kernel

theorem point_not_mem_extension (media : MediaType) : '.' ∉ media.extension.toList := by
  cases media with
  | jpeg spelling => cases spelling <;> decide
  | png => decide
  | webp => decide

theorem length_extension_le (media : MediaType) : media.extension.toList.length ≤ 4 := by
  cases media with
  | jpeg spelling => cases spelling <;> decide
  | png => decide
  | webp => decide

/-- Every format is recognised by the extension that it gives. -/
theorem ofExtension?_extension (media : MediaType) :
    ofExtension? media.extension.toList = some media := by
  cases media with
  | jpeg spelling => cases spelling <;> rfl
  | png => rfl
  | webp => rfl

end MediaType

namespace Blob

variable {draw : Draw} {index : Nat} {media : MediaType}

/-- The format of a saved file can be read off its name. -/
theorem ofFilename?_filename : MediaType.ofFilename? (filename draw index media) = some media := by
  rw [MediaType.ofFilename?, filename, String.toList_ofList,
    Text.cutLast?_append_cons media.point_not_mem_extension]
  exact media.ofExtension?_extension

/-- The name of a saved file is a segment if its numbers are of 64 bits. -/
theorem isValid_filename (timeFits : draw.micros < UInt64.size) (indexFits : index < UInt64.size) :
    Segment.isValid (filename draw index media) := by
  have some_digits : Text.naturalText draw.micros ≠ [] := Nat.toDigits_ne_nil
  obtain ⟨first, rest, time_eq⟩ := List.exists_cons_of_ne_nil some_digits
  have first_ne : first ≠ '.' := by
    rintro rfl
    have digit := Text.isDigit_of_mem_naturalText (time_eq ▸ List.mem_cons_self)
    revert digit
    decide
  have length_le : (filename draw index media).toList.length ≤ Segment.maxLength := by
    have time := Text.length_naturalText_le timeFits
    have number := Text.length_naturalText_le indexFits
    have extension := media.length_extension_le
    simp only [filename, String.toList_ofList, List.length_append, List.length_cons,
      Text.length_hexText, Segment.maxLength]
    omega
  have allowed : ∀ char ∈ (filename draw index media).toList, Segment.allows char := by
    intro char mem
    simp only [filename, String.toList_ofList, List.mem_append, List.mem_cons] at mem
    rcases mem with ((time | rfl | number) | rfl | suffix) | rfl | extension
    · exact Segment.allows_of_mem_naturalText time
    · decide
    · exact Segment.allows_of_mem_naturalText number
    · decide
    · exact Segment.allows_of_mem_hexText suffix
    · decide
    · exact List.all_eq_true.mp media.allows_extension char extension
  unfold Segment.isValid
  simp only [Bool.and_eq_true, decide_eq_true_eq, List.all_eq_true]
  refine ⟨⟨⟨?_, length_le⟩, ?_⟩, allowed⟩
  · simp [filename, time_eq]
  · simp [filename, time_eq, first_ne]

end Blob

namespace LocalBlobs

/-! ## Keys of saved files -/

/-- The key of a file. -/
def keyOf (scope parent filename : String) : String :=
  scope ++ "/" ++ parent ++ "/" ++ filename

theorem toList_keyOf (scope parent filename : String) : (keyOf scope parent filename).toList =
    scope.toList ++ '/' :: (parent.toList ++ '/' :: filename.toList) := by
  simp [keyOf]

/-- A key of three names without slashes is cut into these names. -/
theorem fields_keyOf {scope parent filename : String} (scopeWhole : '/' ∉ scope.toList)
    (parentWhole : '/' ∉ parent.toList) (fileWhole : '/' ∉ filename.toList) :
    Text.fields '/' (keyOf scope parent filename).toList =
      [scope.toList, parent.toList, filename.toList] := by
  rw [toList_keyOf, Text.fields_append_cons scopeWhole, Text.fields_append_cons parentWhole,
    Text.fields_of_not_mem fileWhole]

/-- The name that the next save gives to its file. -/
def nextName (blobs : LocalBlobs) (index : Nat) (media : MediaType) : String :=
  Blob.filename blobs.names.next.1 index media

/-- The key of the file that the next save makes leads back to all that it was made of. -/
structure RoundTrips (blobs : LocalBlobs) (scope parent : String) (index : Nat) (upload : Upload)
    (media : MediaType) : Prop where
  /-- The name of the file is a segment like scope and parent. -/
  segment : Segment.isValid (blobs.nextName index media)
  format : MediaType.ofFilename? (blobs.nextName index media) = some media
  /-- The key is cut into scope, parent and name of the file. -/
  cut : Text.fields '/' (keyOf scope parent (blobs.nextName index media)).toList =
    [scope.toList, parent.toList, (blobs.nextName index media).toList]
  /-- No other three names have this key. -/
  unique : ∀ otherScope otherParent otherName : String, '/' ∉ otherScope.toList →
    '/' ∉ otherParent.toList → '/' ∉ otherName.toList →
    keyOf otherScope otherParent otherName = keyOf scope parent (blobs.nextName index media) →
    otherScope = scope ∧ otherParent = parent ∧ otherName = blobs.nextName index media
  /-- The key stands for the path of the file. -/
  resolved : blobs.resolve? (keyOf scope parent (blobs.nextName index media)) =
    some (blobs.targetPath scope parent index media)
  /-- The path consists of three names below the root. -/
  inside : (blobs.targetPath scope parent index media).components =
    blobs.rootPath.components ++ [scope, parent, blobs.nextName index media]
  /-- The path is outside the directory of the temporary files. -/
  visible :
    ¬blobs.temporaryDirectory.components <+: (blobs.targetPath scope parent index media).components
  /-- A save tells this name, this key and this path, and moves the file there in its last step. -/
  written : ∀ saved after, blobs.save scope parent index upload = (.ok saved, after) →
    saved.filename = blobs.nextName index media ∧
      saved.storageKey = keyOf scope parent saved.filename ∧
      saved.path = (blobs.targetPath scope parent index media).display ∧
      after.resolve? saved.storageKey = some (blobs.targetPath scope parent index media) ∧
      ∃ before, blobs.saveSteps scope parent index upload =
        before ++ [.move blobs.temporaryPath (blobs.targetPath scope parent index media)]

variable {blobs after : LocalBlobs} {scope parent : String} {index : Nat} {upload : Upload}
  {media : MediaType}

/-- Three names without slashes can be read off their key. -/
theorem eq_of_keyOf_eq {otherScope otherParent filename otherName : String}
    (scopeWhole : '/' ∉ scope.toList) (parentWhole : '/' ∉ parent.toList)
    (fileWhole : '/' ∉ filename.toList) (otherScopeWhole : '/' ∉ otherScope.toList)
    (otherParentWhole : '/' ∉ otherParent.toList) (otherFileWhole : '/' ∉ otherName.toList)
    (same : keyOf otherScope otherParent otherName = keyOf scope parent filename) :
    otherScope = scope ∧ otherParent = parent ∧ otherName = filename := by
  have fields_eq := fields_keyOf otherScopeWhole otherParentWhole otherFileWhole
  rw [same, fields_keyOf scopeWhole parentWhole fileWhole] at fields_eq
  simp only [List.cons.injEq, String.toList_inj, and_true] at fields_eq
  obtain ⟨scope_eq, parent_eq, file_eq⟩ := fields_eq
  exact ⟨scope_eq.symm, parent_eq.symm, file_eq.symm⟩

/-- The key of a file stands for the path of the file. -/
theorem resolve?_keyOf (blobs : LocalBlobs) (scopeName : EntryName scope)
    (parentName : EntryName parent) (draw : Blob.Draw) :
    blobs.resolve? (keyOf scope parent (Blob.filename draw index media)) =
      some ((blobs.directoryOf scope parent).join [Blob.filename draw index media]) := by
  have fileName : EntryName (Blob.filename draw index media) := Blob.entryName_filename
  have keyed := EntryName.keyed scopeName parentName fileName blobs
  rwa [EntryName.split_key scopeName parentName fileName] at keyed

/-- The name `.tmp` is no segment, so no path of a segment is below it. -/
theorem not_temporary_of_segment {root : String} {names : List String}
    (valid : Segment.isValid scope) (plain : ∀ name ∈ scope :: names, Tree.Plain name) :
    ¬Path.components ⟨root, [".tmp"]⟩ <+: Path.components ⟨root, scope :: names⟩ := by
  rw [Path.components_eq_append root plain, Path.components_eq_append root
    (List.forall_mem_singleton.mpr plain_hidden), List.prefix_append_right_inj,
    List.cons_prefix_cons]
  rintro ⟨rfl, -⟩
  revert valid
  decide

/-- A save that succeeds moves the file of its key in its last step. -/
theorem written_of_save {saved : SavedBlob} (accepted : upload.media? = some media)
    (succeeded : blobs.save scope parent index upload = (.ok saved, after)) :
    after.root = blobs.root ∧ saved.filename = blobs.nextName index media ∧
      saved.storageKey = keyOf scope parent saved.filename ∧
      saved.path = (blobs.targetPath scope parent index media).display ∧
      ∃ before, blobs.saveSteps scope parent index upload =
        before ++ [.move blobs.temporaryPath (blobs.targetPath scope parent index media)] := by
  rcases save_cases succeeded with ⟨-, -, _, impossible⟩ |
    ⟨other, otherAccepted, steps, -, -, result, written, outcome⟩
  · cases impossible
  · cases accepted.symm.trans otherAccepted
    obtain ⟨root_eq, -⟩ := write_cases written
    rcases write_outcome written with
      ⟨failure, rfl, -⟩ | ⟨arrived, rfl, -, -, name_eq, key_eq, path_eq, complete, -⟩
    · cases outcome
    · cases outcome
      refine ⟨root_eq, name_eq, key_eq, path_eq, ?_⟩
      rw [steps, writeSteps_eq, fileSteps, complete, if_pos rfl, ← List.cons_append,
        ← List.append_assoc]
      exact ⟨_, rfl⟩

/-- The key of every saved file leads back to what it was made of. -/
theorem roundTrips (blobs : LocalBlobs) (scopeValid : Segment.isValid scope)
    (parentValid : Segment.isValid parent) (accepted : upload.media? = some media)
    (indexFits : index < UInt64.size) (timeFits : blobs.names.next.1.micros < UInt64.size) :
    RoundTrips blobs scope parent index upload media := by
  have scopeName := EntryName.of_segment scopeValid
  have parentName := EntryName.of_segment parentValid
  have fileName : EntryName (blobs.nextName index media) := Blob.entryName_filename
  have plain : ∀ name ∈ [scope, parent, blobs.nextName index media], Tree.Plain name :=
    plain_target scopeName parentName
  exact {
    segment := Blob.isValid_filename timeFits indexFits
    format := Blob.ofFilename?_filename
    cut := fields_keyOf scopeName.whole parentName.whole fileName.whole
    unique := fun otherScope otherParent otherName scopeWhole parentWhole fileWhole same =>
      eq_of_keyOf_eq scopeName.whole parentName.whole fileName.whole scopeWhole parentWhole
        fileWhole same
    resolved := resolve?_keyOf blobs scopeName parentName _
    inside := Path.components_eq_append blobs.root plain
    visible := not_temporary_of_segment scopeValid plain
    written := by
      intro saved after succeeded
      obtain ⟨root_eq, name_eq, key_eq, path_eq, steps⟩ := written_of_save accepted succeeded
      refine ⟨name_eq, key_eq, path_eq, ?_, steps⟩
      rw [key_eq, name_eq, nextName, resolve?_keyOf after scopeName parentName, directoryOf, rootPath,
        root_eq]
      rfl }

/-- An image whose key is made at the first time of a clock that stands still. -/
theorem roundTrips_shelf : RoundTrips shelf "s" "p" 0 smallImage .png ∧
    ∃ saved after, shelf.save "s" "p" 0 smallImage = (.ok saved, after) :=
  ⟨roundTrips shelf (by decide +kernel) (by decide +kernel) (by decide +kernel) (by decide)
    (by decide), exists_save_shelf⟩

end LocalBlobs

end ImageGallery
