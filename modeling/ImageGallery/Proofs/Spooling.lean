import ImageGallery.Proofs.FileChanges
import ImageGallery.Proofs.NewDirectories
import ImageGallery.Proofs.SaveSteps
import ImageGallery.Proofs.StorageKey

/-!
# Saves below a root without links

A save first makes directories on the way of its two files. From then on the tree differs from the
one with these directories at the place of the temporary file and nowhere else, until the file comes
to its place with all bytes of the upload. A save that fails discards the temporary file, and leaves
directories on the way at most.
-/

namespace ImageGallery

open Disk

/-! ## Reading uploads -/

namespace UploadContent

theorem readChunk_fst (content : UploadContent) (size : Nat) :
    (content.readChunk size).1 = content.ahead.take size := by
  cases content <;> rfl

theorem ahead_readChunk (content : UploadContent) (size : Nat) :
    (content.readChunk size).2.ahead = content.ahead.drop size := by
  cases content <;> rfl

end UploadContent

namespace Upload

/-- A read that goes through stops at the end of the content or goes on behind the chunk. -/
theorem deliver_going {size reads : Nat} {behind : List Bytes} {content : UploadContent}
    {breaksAfter : Option Nat} (going : breaksAfter ≠ some 0) :
    deliver size (reads + 1) behind content breaksAfter =
      if content.ahead.take size = [] then ⟨behind.reverse, true⟩
      else deliver size reads (content.ahead.take size :: behind) (content.readChunk size).2
        (breaksAfter.map (· - 1)) := by
  rw [deliver, ← content.readChunk_fst size]
  · rcases read : content.readChunk size with ⟨chunk, rest⟩
    cases chunk <;> rfl
  · intro broken
    exact going broken

/-- Reads that reach the end deliver all bytes. -/
theorem flatten_deliver {size reads : Nat} {behind : List Bytes} {content : UploadContent}
    {breaksAfter : Option Nat} (positive : 0 < size) (enough : content.ahead.length < reads)
    (complete : (deliver size reads behind content breaksAfter).complete) :
    (deliver size reads behind content breaksAfter).chunks.flatten =
      behind.reverse.flatten ++ content.ahead := by
  induction reads generalizing behind content breaksAfter with
  | zero => cases enough
  | succ reads ih =>
      by_cases broken : breaksAfter = some 0
      · subst broken
        cases complete
      · rw [deliver_going broken] at complete ⊢
        split at complete
        · rename_i ended
          have nothing : content.ahead = [] := by
            rcases List.take_eq_nil_iff.mp ended with zero | nothing
            · omega
            · exact nothing
          rw [if_pos ended, nothing, List.append_nil]
        · rename_i some_bytes
          have some_ahead : content.ahead ≠ [] := fun nothing =>
            some_bytes (by rw [nothing, List.take_nil])
          have shorter : (content.readChunk size).2.ahead.length < reads := by
            have positiveLength := List.length_pos_iff.mpr some_ahead
            rw [content.ahead_readChunk, List.length_drop]
            omega
          rw [if_neg some_bytes, ih shorter complete, List.reverse_cons, List.flatten_append,
            content.ahead_readChunk, List.append_assoc, List.flatten_singleton,
            List.take_append_drop]

/-- A delivery that is complete holds the bytes of its upload. -/
theorem flatten_delivery {upload : Upload} {size : Nat} (positive : 0 < size)
    (complete : (upload.delivery size).complete) :
    (upload.delivery size).chunks.flatten = upload.content.ahead :=
  flatten_deliver positive (Nat.lt_succ_self _) complete

end Upload

/-! ## Temporary files -/

namespace Disk

variable {root : String} {base names target : Place} {ground tree after : Tree} {bytes : Bytes}

/-- A temporary file has come into a tree, and has the given bytes so far. -/
structure Spooled (root : String) (base names : Place) (ground : Tree) (bytes : Bytes)
    (tree : Tree) : Prop where
  passable : Passable root names
  housed : ground.Housed base names
  touches : Touches (· = base ++ names) ground tree
  file : ∃ content, tree.lookup (base ++ names) = some (.file content) ∧ content.bytes = bytes

namespace Spooled

theorem create (linkless : Linkless root base ground) (some_names : names ≠ [])
    (plain : ∀ name ∈ names, Tree.Plain name)
    (created : ground.write ⟨root, names⟩ [] = .ok after) :
    Spooled root base names ground [] after := by
  obtain ⟨opened, rfl⟩ := linkless.write_of_ok some_names plain created
  have inner : base ++ names ≠ [] := List.append_ne_nil_of_right_ne_nil base some_names
  exact ⟨opened.passable, opened.housed, .put_self opened.loose _,
    _, Tree.lookup_put_self _ _ inner, Content.bytes_ofBytes []⟩

theorem append {chunk : Bytes} (spooled : Spooled root base names ground bytes tree)
    (linkless : Linkless root base ground)
    (appended : tree.append ⟨root, names⟩ chunk = .ok after) :
    Spooled root base names ground (bytes ++ chunk) after := by
  obtain ⟨some_names, plain, -⟩ := spooled.passable
  obtain ⟨content, there, written⟩ := spooled.file
  obtain ⟨found, foundThere, rfl⟩ :=
    (linkless.touch spooled.touches).append_of_ok some_names plain appended
  have inner : base ++ names ≠ [] := List.append_ne_nil_of_right_ne_nil base some_names
  cases there.symm.trans foundThere
  exact ⟨spooled.passable, spooled.housed,
    spooled.touches.trans (.put_self (.of_file there) _),
    _, Tree.lookup_put_self _ _ inner, by rw [Content.bytes_append, written]⟩

/-- Chunks are added one after the other, up to the first that fails. -/
theorem runAll_append {chunks : List Bytes} {result : Except SystemError Unit}
    (spooled : Spooled root base names ground bytes tree) (linkless : Linkless root base ground)
    (ran : LocalBlobs.Step.runAll (chunks.map (.append ⟨root, names⟩)) tree = (result, after)) :
    (∃ written, Spooled root base names ground written after) ∧
      (result = .ok () → Spooled root base names ground (bytes ++ chunks.flatten) after) := by
  induction chunks generalizing tree bytes with
  | nil =>
      cases ran
      rw [List.flatten_nil, List.append_nil]
      exact ⟨⟨bytes, spooled⟩, fun _ => spooled⟩
  | cons chunk chunks ih =>
      rw [List.map_cons, LocalBlobs.Step.runAll] at ran
      cases appended : tree.append ⟨root, names⟩ chunk with
      | error error =>
          simp only [LocalBlobs.Step.run, appended] at ran
          cases ran
          exact ⟨⟨bytes, spooled⟩, fun succeeded => (by cases succeeded)⟩
      | ok next =>
          simp only [LocalBlobs.Step.run, appended] at ran
          rw [List.flatten_cons, ← List.append_assoc]
          exact ih (spooled.append linkless appended) ran

/-- All chunks can be added. -/
theorem exists_runAll_append (spooled : Spooled root base names ground bytes tree)
    (linkless : Linkless root base ground) (chunks : List Bytes) :
    ∃ after, LocalBlobs.Step.runAll (chunks.map (.append ⟨root, names⟩)) tree =
      (.ok (), after) := by
  induction chunks generalizing tree bytes with
  | nil => exact ⟨tree, rfl⟩
  | cons chunk chunks ih =>
      obtain ⟨content, there, -⟩ := spooled.file
      have appended := (linkless.touch spooled.touches).append_eq_ok spooled.passable
        (spooled.housed.of_keeps spooled.touches.keeps) there chunk
      obtain ⟨after, ran⟩ := ih (spooled.append linkless appended)
      refine ⟨after, ?_⟩
      rw [List.map_cons, LocalBlobs.Step.runAll]
      simpa only [LocalBlobs.Step.run, appended] using ran

end Spooled

/-- A file has come to its place with the given bytes, and the temporary file is gone. -/
structure Arrived (root : String) (base names target : Place) (ground : Tree) (bytes : Bytes)
    (after : Tree) : Prop where
  passable : Passable root target
  housed : ground.Housed base target
  touches : Touches (fun place => place = base ++ names ∨ place = base ++ target) ground after
  file : ∃ content, after.lookup (base ++ target) = some (.file content) ∧ content.bytes = bytes
  gone : after.lookup (base ++ names) = none

/-- Nothing changes but the place of the file, if there was no temporary file before. -/
theorem Arrived.lookup_eq {place : Place}
    (arrived : Arrived root base names target ground bytes after)
    (fresh : ∀ content, ground.lookup (base ++ names) ≠ some (.file content))
    (differ : place ≠ base ++ target) : after.lookup place = ground.lookup place := by
  by_cases temporary : place = base ++ names
  · rw [temporary, arrived.gone]
    exact ((arrived.touches.loose (.of_none arrived.gone)).lookup_eq_none fresh).symm
  · rcases arrived.touches.lookup_eq place with same | ⟨mine, -⟩
    · exact same
    · exact (mine.elim temporary differ).elim

/-- The temporary file is moved. -/
theorem Spooled.move (spooled : Spooled root base names ground bytes tree)
    (linkless : Linkless root base ground) (some_target : target ≠ [])
    (plain : ∀ name ∈ target, Tree.Plain name) (differ : names ≠ target)
    (moved : tree.rename ⟨root, names⟩ ⟨root, target⟩ = .ok after) :
    Arrived root base names target ground bytes after := by
  obtain ⟨content, there, written⟩ := spooled.file
  have linklessTree := linkless.touch spooled.touches
  obtain ⟨opened, rfl⟩ := linklessTree.rename_of_ok spooled.passable
    (spooled.housed.of_keeps spooled.touches.keeps) there some_target plain moved
  have apart : base ++ names ≠ base ++ target := fun same => differ (List.append_cancel_left same)
  have inner : base ++ target ≠ [] := List.append_ne_nil_of_right_ne_nil base some_target
  have innerNames : base ++ names ≠ [] :=
    List.append_ne_nil_of_right_ne_nil base spooled.passable.some_names
  have touched : Touches (fun place => place = base ++ names ∨ place = base ++ target) ground
      tree := ⟨spooled.touches.current_eq, fun place =>
    (spooled.touches.lookup_eq place).imp_right fun ⟨mine, rest⟩ => ⟨.inl mine, rest⟩⟩
  refine ⟨opened.passable, opened.housed.of_keeps spooled.touches.symm.keeps,
    touched.move (.inl rfl) (.inr rfl) there opened.loose,
    ⟨content, Tree.lookup_put_self _ _ inner, written⟩, ?_⟩
  rw [Tree.lookup_put_of_ne _ _ apart, Tree.lookup_erase_self _ innerNames]

/-- The temporary file has not come in yet, or it has some bytes. -/
def Pending (root : String) (base names : Place) (ground tree : Tree) : Prop :=
  tree = ground ∨ ∃ bytes, Spooled root base names ground bytes tree

theorem Pending.touches (pending : Pending root base names ground tree) :
    Touches (· = base ++ names) ground tree := by
  rcases pending with rfl | ⟨bytes, spooled⟩
  · exact .refl _ tree
  · exact spooled.touches

/-- A temporary file that is discarded leaves no trace. -/
theorem Pending.discard (pending : Pending root base names ground tree)
    (linkless : Linkless root base ground) (some_names : names ≠ [])
    (plain : ∀ name ∈ names, Tree.Plain name)
    (fresh : ∀ content, ground.lookup (base ++ names) ≠ some (.file content))
    (own : Place → Prop) :
    Adds own ground (LocalBlobs.discard ⟨root, names⟩ tree) := by
  unfold LocalBlobs.discard
  rcases pending with rfl | ⟨bytes, spooled⟩
  · obtain ⟨error, refused⟩ := linkless.remove_ne_ok some_names plain fresh
    rw [refused]
    exact .refl own tree
  · obtain ⟨content, there, -⟩ := spooled.file
    have inner : base ++ names ≠ [] := List.append_ne_nil_of_right_ne_nil base some_names
    rw [(linkless.touch spooled.touches).remove_eq_ok spooled.passable
      (spooled.housed.of_keeps spooled.touches.keeps) there]
    refine ⟨spooled.touches.current_eq, fun place => .inl ?_⟩
    by_cases same : place = base ++ names
    · subst same
      rw [Tree.lookup_erase_self _ inner]
      exact ((spooled.touches.loose (.of_file there)).lookup_eq_none fresh).symm
    · rw [Tree.lookup_erase_of_ne _ same]
      exact (spooled.touches.lookup_eq place).resolve_right fun changed => same changed.1

/-! ## Filling the temporary file -/

/-- However far a temporary file is made and filled, it has not come in or it has some bytes. When
all went through, it has the bytes of all chunks. -/
theorem pending_of_fill {chunks : List Bytes} {result : Except SystemError Unit}
    (linkless : Linkless root base ground) (some_names : names ≠ [])
    (plain : ∀ name ∈ names, Tree.Plain name)
    (ran : LocalBlobs.Step.runAll
      (.create ⟨root, names⟩ :: chunks.map (.append ⟨root, names⟩)) ground = (result, after)) :
    Pending root base names ground after ∧
      (result = .ok () → Spooled root base names ground chunks.flatten after) := by
  rw [LocalBlobs.Step.runAll] at ran
  cases created : ground.write ⟨root, names⟩ [] with
  | error error =>
      simp only [LocalBlobs.Step.run, created] at ran
      cases ran
      exact ⟨.inl rfl, fun succeeded => (by cases succeeded)⟩
  | ok made =>
      simp only [LocalBlobs.Step.run, created] at ran
      obtain ⟨part, whole⟩ :=
        (Spooled.create linkless some_names plain created).runAll_append linkless ran
      exact ⟨.inr part, whole⟩

/-- A temporary file can be made and filled at a path that is open. -/
theorem exists_spooled (opened : Linkless.Open root base ground names)
    (linkless : Linkless root base ground) (chunks : List Bytes) :
    ∃ after, LocalBlobs.Step.runAll
        (.create ⟨root, names⟩ :: chunks.map (.append ⟨root, names⟩)) ground = (.ok (), after) ∧
      Spooled root base names ground chunks.flatten after := by
  obtain ⟨created, written⟩ := opened.exists_write linkless []
  have spooled :=
    Spooled.create linkless opened.passable.some_names opened.passable.plain written
  obtain ⟨after, filled⟩ := spooled.exists_runAll_append linkless chunks
  have step : LocalBlobs.Step.run (.create ⟨root, names⟩) ground = (.ok (), created) := by
    simp only [LocalBlobs.Step.run, written]
  exact ⟨after, (LocalBlobs.Step.runAll_cons_ok step).trans filled,
    (spooled.runAll_append linkless filled).2 rfl⟩

end Disk

namespace LocalBlobs

variable {blobs after : LocalBlobs} {base : Place} {scope parent : String} {index : Nat}
  {upload : Upload} {media : MediaType}

/-! ## The places of a save -/

/-- The names of the temporary file of the next save. -/
def temporaryNames (blobs : LocalBlobs) : Place :=
  [".tmp", Blob.temporaryName blobs.names.next.1]

/-- The names that the next save moves its file to. -/
def targetNames (blobs : LocalBlobs) (scope parent : String) (index : Nat) (media : MediaType) :
    Place :=
  [scope, parent, Blob.filename blobs.names.next.1 index media]

theorem temporaryNames_ne_targetNames :
    blobs.temporaryNames ≠ blobs.targetNames scope parent index media := by
  intro same
  cases same

theorem plain_hidden : Tree.Plain ".tmp" :=
  ⟨by decide, by decide, by decide⟩

theorem plain_temporary {draw : Blob.Draw} :
    ∀ name ∈ [".tmp", Blob.temporaryName draw], Tree.Plain name :=
  List.forall_mem_cons.mpr ⟨plain_hidden, List.forall_mem_singleton.mpr Blob.plain_temporaryName⟩

theorem plain_directory {scope parent : String} (scopeName : EntryName scope)
    (parentName : EntryName parent) : ∀ name ∈ [scope, parent], Tree.Plain name :=
  List.forall_mem_cons.mpr ⟨scopeName.plain, List.forall_mem_singleton.mpr parentName.plain⟩

theorem plain_target {scope parent : String} (scopeName : EntryName scope)
    (parentName : EntryName parent) {draw : Blob.Draw} {index : Nat} {media : MediaType} :
    ∀ name ∈ [scope, parent, Blob.filename draw index media], Tree.Plain name :=
  List.forall_mem_cons.mpr ⟨scopeName.plain, List.forall_mem_cons.mpr
    ⟨parentName.plain, List.forall_mem_singleton.mpr Blob.entryName_filename.plain⟩⟩

/-- The directories on the way to the two files of a save, below the root. -/
def directoriesOf (base : Place) (scope parent : String) : List Place :=
  [base ++ [".tmp"], base ++ [scope], base ++ [scope, parent]]

theorem mem_directoriesOf {place : Place}
    (along : Along base [".tmp"] place ∨ Along base [scope, parent] place) :
    place ∈ directoriesOf base scope parent := by
  rcases along with ⟨above, some_above, first, rfl⟩ | ⟨above, some_above, first, rfl⟩
  · rcases List.prefix_cons_iff.mp first with rfl | ⟨rest, rfl, empty⟩
    · exact absurd rfl some_above
    · rw [List.prefix_nil.mp empty]
      exact List.mem_cons_self
  · rcases List.prefix_cons_iff.mp first with rfl | ⟨rest, rfl, second⟩
    · exact absurd rfl some_above
    · rcases List.prefix_cons_iff.mp second with rfl | ⟨rest, rfl, empty⟩
      · exact List.mem_cons_of_mem _ List.mem_cons_self
      · rw [List.prefix_nil.mp empty]
        exact List.mem_cons_of_mem _ (List.mem_cons_of_mem _ List.mem_cons_self)

/-- All steps that make the file of an upload went through, and the upload was complete. -/
def WentThrough (blobs : LocalBlobs) (scope parent : String) (index : Nat) (upload : Upload)
    (media : MediaType) (steps : List Step) (result : Except SystemError Unit) : Prop :=
  (upload.delivery (max blobs.chunkSize 1)).complete = true ∧
    steps = blobs.fileSteps scope parent index upload media ∧ result = .ok ()

theorem not_wentThrough_of_error {steps : List Step} {error : SystemError} :
    ¬WentThrough blobs scope parent index upload media steps (.error error) := by
  rintro ⟨-, -, impossible⟩
  cases impossible

section Steps

variable (scopeName : EntryName scope) (parentName : EntryName parent)
include scopeName parentName

/-- A save that has not come to its file yet has added directories on the way at most. -/
theorem adds_groundSteps (linkless : Linkless blobs.root base blobs.tree) {steps : List Step}
    (first : steps ⊆ blobs.groundSteps scope parent) :
    Adds (· ∈ directoriesOf base scope parent) blobs.tree (Step.runAll steps blobs.tree).2 := by
  refine Step.runAll_induction (Adds _ blobs.tree) (fun step mem tree added => ?_) (.refl _ _)
  have linklessTree := added.linkless linkless
  rcases List.mem_pair.mp (first mem) with rfl | rfl
  · have made := linklessTree.adds_makeDirectories (plain_directory scopeName parentName)
    exact added.trans (made.mono fun place along => mem_directoriesOf (.inr along))
  · have made := linklessTree.adds_makeDirectories (List.forall_mem_singleton.mpr plain_hidden)
    exact added.trans (made.mono fun place along => mem_directoriesOf (.inl along))

/-- Once directories have been made, the file comes to its place with the last step. Up to there
nothing but the temporary file changes. -/
theorem fileSteps_cases {ground left : Tree} (linkless : Linkless blobs.root base ground)
    {steps : List Step} (first : steps <+: blobs.fileSteps scope parent index upload media)
    {result : Except SystemError Unit} (ran : Step.runAll steps ground = (result, left)) :
    WentThrough blobs scope parent index upload media steps result ∧
        Arrived blobs.root base blobs.temporaryNames (blobs.targetNames scope parent index media)
          ground upload.content.ahead left ∨
      ¬WentThrough blobs scope parent index upload media steps result ∧
        Pending blobs.root base blobs.temporaryNames ground left := by
  have fill {chunks : List Bytes} {result : Except SystemError Unit} {left : Tree}
      (ran : Step.runAll (.create blobs.temporaryPath ::
        chunks.map (.append blobs.temporaryPath)) ground = (result, left)) :
      Pending blobs.root base blobs.temporaryNames ground left ∧
        (result = .ok () →
          Spooled blobs.root base blobs.temporaryNames ground chunks.flatten left) :=
    pending_of_fill linkless (List.cons_ne_nil _ _) plain_temporary ran
  -- Steps before the last one fill the temporary file.
  have pending (before : steps <+: .create blobs.temporaryPath ::
      (upload.delivery (max blobs.chunkSize 1)).chunks.map (.append blobs.temporaryPath)) :
      Pending blobs.root base blobs.temporaryNames ground left := by
    rcases List.prefix_cons_iff.mp before with rfl | ⟨rest, rfl, filling⟩
    · cases ran
      exact .inl rfl
    · rw [List.prefix_iff_eq_take.mp filling, ← List.map_take] at ran
      exact (fill ran).1
  unfold fileSteps at first
  dsimp only at first
  split at first
  · rename_i complete
    rw [← List.cons_append] at first
    rcases List.prefix_concat_iff.mp first with rfl | before
    · rcases filled : Step.runAll (.create blobs.temporaryPath ::
        (upload.delivery (max blobs.chunkSize 1)).chunks.map (.append blobs.temporaryPath)) ground
        with ⟨_ | _, middle⟩
      · rw [Step.runAll_append_error filled] at ran
        cases ran
        exact .inr ⟨not_wentThrough_of_error, (fill filled).1⟩
      · rw [Step.runAll_append_ok filled] at ran
        have spooled := (fill filled).2 rfl
        rw [Upload.flatten_delivery (by omega) complete] at spooled
        cases moved : middle.rename blobs.temporaryPath
            (blobs.targetPath scope parent index media) with
        | error error =>
            simp only [Step.runAll, Step.run, moved] at ran
            cases ran
            exact .inr ⟨not_wentThrough_of_error, .inr ⟨_, spooled⟩⟩
        | ok next =>
            simp only [Step.runAll, Step.run, moved] at ran
            cases ran
            refine .inl ⟨⟨complete, ?_, rfl⟩, spooled.move linkless (List.cons_ne_nil _ _)
              (plain_target scopeName parentName) temporaryNames_ne_targetNames moved⟩
            rw [fileSteps, complete, if_pos rfl, List.cons_append]
    · refine .inr ⟨fun through => ?_, pending before⟩
      have shorter := before.length_le
      rw [through.2.1, fileSteps, complete, if_pos rfl] at shorter
      simp only [List.length_cons, List.length_append] at shorter
      omega
  · rename_i broken
    rw [List.append_nil] at first
    exact .inr ⟨fun through => broken through.1, pending first⟩

end Steps

/-! ## Saving -/

/-- A file with the given bytes stands at a place. -/
def HasFile (blobs : LocalBlobs) (place : Place) (bytes : Bytes) : Prop :=
  ∃ content, blobs.tree.lookup place = some (.file content) ∧ content.bytes = bytes

/-- A save has brought in the file with all bytes of its upload, and otherwise nothing but
directories on the way. -/
structure SavesWhole (base : Place) (scope parent : String) (upload : Upload)
    (blobs after : LocalBlobs) (saved : SavedBlob) : Prop where
  size_eq : saved.size = upload.content.ahead.length
  file : after.HasFile (base ++ [scope, parent, saved.filename]) upload.content.ahead
  others : ∀ place, place ≠ base ++ [scope, parent, saved.filename] →
    after.tree.lookup place = blobs.tree.lookup place ∨
      place ∈ directoriesOf base scope parent ∧ blobs.tree.lookup place = none ∧
        after.tree.lookup place = some .directory

/-- No file has the name of the next temporary file. -/
def TemporaryFree (blobs : LocalBlobs) (base : Place) : Prop :=
  ∀ content, blobs.tree.lookup (base ++ blobs.temporaryNames) ≠ some (.file content)

section Write

variable (linkless : Linkless blobs.root base blobs.tree) (free : blobs.TemporaryFree base)
  (scopeName : EntryName scope) (parentName : EntryName parent)
include linkless free scopeName parentName

/-- A write that fails leaves directories on the way at most. -/
theorem adds_of_write {failure : Failure}
    (written : blobs.write scope parent index upload media = (.error failure, after)) :
    Adds (· ∈ directoriesOf base scope parent) blobs.tree after.tree := by
  have ground : Adds (· ∈ directoriesOf base scope parent) blobs.tree
      (blobs.ground scope parent) :=
    adds_groundSteps scopeName parentName linkless (List.Subset.refl _)
  have discarded {left : Tree}
      (pending : Pending blobs.root base blobs.temporaryNames (blobs.ground scope parent) left) :
      Adds (· ∈ directoriesOf base scope parent) blobs.tree (discard blobs.temporaryPath left) :=
    ground.trans <| pending.discard (ground.linkless linkless) (List.cons_ne_nil _ _)
      plain_temporary (fun content there => free content (ground.lookup_eq_file_iff.mp there)) _
  obtain ⟨-, ⟨_, impossible, -⟩ | ⟨-, halted, ⟨error, failed⟩ | left⟩⟩ := write_cases written
  · cases impossible
  · have first : [.makeDirectories (blobs.directoryOf scope parent)] ⊆
        blobs.groundSteps scope parent := List.cons_subset_cons _ (List.nil_subset _)
    have added := adds_groundSteps scopeName parentName linkless first
    rwa [Step.runAll_cons_error failed] at added
  · rw [left, writeSteps_eq]
    rw [writeSteps_eq] at halted
    rcases made : Step.runAll (blobs.groundSteps scope parent) blobs.tree with ⟨_ | _, tree⟩
    · have tree_eq : blobs.ground scope parent = tree := by rw [LocalBlobs.ground, made]
      rw [Step.runAll_append_error made, ← tree_eq]
      exact discarded (.inl rfl)
    · have tree_eq : blobs.ground scope parent = tree := by rw [LocalBlobs.ground, made]
      rw [Step.runAll_append_ok made, ← tree_eq] at halted ⊢
      rcases ran : Step.runAll (blobs.fileSteps scope parent index upload media)
        (blobs.ground scope parent) with ⟨result, left⟩
      rw [ran] at halted
      rcases fileSteps_cases scopeName parentName (ground.linkless linkless) (List.prefix_refl _)
        ran with ⟨⟨complete, -, rfl⟩, -⟩ | ⟨-, pending⟩
      · exact absurd ⟨complete, left, rfl⟩ halted
      · exact discarded pending

/-- A write that succeeds has brought its file to its place, after directories have been made. -/
theorem arrived_of_write {saved : SavedBlob}
    (written : blobs.write scope parent index upload media = (.ok saved, after)) :
    ∃ ground, Adds (· ∈ directoriesOf base scope parent) blobs.tree ground ∧
      (∀ content, ground.lookup (base ++ blobs.temporaryNames) ≠ some (.file content)) ∧
      Arrived blobs.root base blobs.temporaryNames (blobs.targetNames scope parent index media)
        ground upload.content.ahead after.tree := by
  obtain ⟨-, ⟨_, -, -, complete, ran⟩ | ⟨⟨_, impossible⟩, -⟩⟩ := write_cases written
  · rw [writeSteps_eq] at ran
    obtain ⟨ground, made, ran⟩ := Step.exists_of_runAll_append ran
    have added := adds_groundSteps scopeName parentName linkless (List.Subset.refl _)
    rw [made] at added
    refine ⟨ground, added,
      fun content there => free content (added.lookup_eq_file_iff.mp there), ?_⟩
    rcases fileSteps_cases scopeName parentName (added.linkless linkless) (List.prefix_refl _) ran
      with ⟨-, arrived⟩ | ⟨halted, -⟩
    · exact arrived
    · exact absurd ⟨complete, rfl, rfl⟩ halted
  · cases impossible

theorem savesWhole_of_write {saved : SavedBlob}
    (written : blobs.write scope parent index upload media = (.ok saved, after)) :
    SavesWhole base scope parent upload blobs after saved := by
  obtain ⟨ground, added, fresh, arrived⟩ :=
    arrived_of_write linkless free scopeName parentName written
  rcases write_outcome written with
    ⟨_, impossible, -⟩ | ⟨_, same, -, -, filename_eq, -, -, complete, size_eq⟩
  · cases impossible
  · cases same
    constructor
    · rw [size_eq, Upload.flatten_delivery (by omega) complete]
    · rw [filename_eq]
      exact arrived.file
    · intro place differ
      rw [filename_eq] at differ
      rw [arrived.lookup_eq fresh differ]
      exact added.lookup_eq place

end Write

end LocalBlobs

end ImageGallery
