import ImageGallery.Proofs.FileChanges
import ImageGallery.Proofs.Removal
import ImageGallery.Proofs.SaveSteps
import ImageGallery.Proofs.StorageKey

/-!
# Saving inside the root

A save checks the two ids that its directory is named after, but not where the directory is. Links
may lead it outside the root, or the directory of the temporary files. If neither is outside, the
save stays inside and the file can be found by its key.
-/

namespace ImageGallery

open Disk

namespace LocalBlobs

variable {blobs after : LocalBlobs} {scope parent : String} {index : Nat} {upload : Upload}
  {media : MediaType} {tree : Tree}

/-! ## The places that a save changes -/

/-- No link bears a name that the next save makes up. -/
structure NamesFree (blobs : LocalBlobs) (index : Nat) : Prop where
  temporary : blobs.tree.Unlinked (Blob.temporaryName blobs.names.next.1)
  target : ∀ media, blobs.tree.Unlinked (Blob.filename blobs.names.next.1 index media)

/-- The names that are made up have hyphens. -/
theorem NamesFree.of_entries
    (unlike : ∀ entry ∈ blobs.tree.entries, ∀ name ∈ entry.1.getLast?, '-' ∉ name.toList) :
    blobs.NamesFree index := by
  have unlinked {name : String} (hyphen : '-' ∈ name.toList) : blobs.tree.Unlinked name := by
    intro place target link
    have listed := Tree.mem_entries_of_lookup
      (List.append_ne_nil_of_right_ne_nil _ (List.cons_ne_nil _ _)) link
    refine unlike _ listed name ?_ hyphen
    rw [List.getLast?_concat]
    exact Option.mem_some_self name
  exact ⟨unlinked (by simp [Blob.temporaryName]), fun media => unlinked (by simp [Blob.filename])⟩

/-- The two places of a save: that of its temporary file, and that of its file. -/
inductive OwnPlace (blobs : LocalBlobs) (scope parent : String) (index : Nat) (media : MediaType) :
    Place → Prop where
  | temporary {directory : Place} (leads : (blobs.ground scope parent).resolve
      blobs.temporaryDirectory = .ok (.entry directory .directory)) :
      OwnPlace blobs scope parent index media
        (directory ++ [Blob.temporaryName blobs.names.next.1])
  | target {directory : Place} (leads : (blobs.ground scope parent).resolve
      (blobs.directoryOf scope parent) = .ok (.entry directory .directory)) :
      OwnPlace blobs scope parent index media
        (directory ++ [Blob.filename blobs.names.next.1 index media])

theorem closed_ground (closed : blobs.tree.Closed) (scope parent : String) :
    (blobs.ground scope parent).Closed := by
  refine Step.runAll_induction Tree.Closed (fun step mem tree closed => ?_) closed
  rcases List.mem_pair.mp mem with rfl | rfl
  · exact closed.makeDirectories _
  · exact closed.makeDirectories _

theorem OwnPlace.housed (closed : blobs.tree.Closed) {place : Place}
    (own : OwnPlace blobs scope parent index media place) :
    ∃ directory name, place = directory ++ [name] ∧
      (blobs.ground scope parent).lookup directory = some .directory := by
  cases own with
  | temporary leads => exact ⟨_, _, rfl, (closed_ground closed _ _).lookup_of_lead leads⟩
  | target leads => exact ⟨_, _, rfl, (closed_ground closed _ _).lookup_of_lead leads⟩

/-- Making directories adds directories. -/
theorem grows_groundSteps {steps : List Step} (first : steps ⊆ blobs.groundSteps scope parent) :
    Region.Grows blobs.tree (Step.runAll steps blobs.tree).2 := by
  refine Step.runAll_induction (Region.Grows blobs.tree) (fun step mem tree grown => ?_)
    (.refl blobs.tree)
  rcases List.mem_pair.mp (first mem) with rfl | rfl
  · exact grown.trans (Tree.grows_makeDirectories tree _)
  · exact grown.trans (Tree.grows_makeDirectories tree _)

theorem grows_ground (blobs : LocalBlobs) (scope parent : String) :
    Region.Grows blobs.tree (blobs.ground scope parent) :=
  grows_groundSteps (List.Subset.refl _)

/-- The path of the temporary file. -/
theorem owned_temporary (free : blobs.NamesFree index) (scope parent : String)
    (media : MediaType) :
    Owned (OwnPlace blobs scope parent index media) (blobs.ground scope parent) blobs.root [".tmp"]
      (Blob.temporaryName blobs.names.next.1) where
  some_names := List.cons_ne_nil _ _
  named := by
    intro name mem
    rw [List.mem_singleton.mp mem]
    decide
  plain := Blob.plain_temporaryName
  unlinked := free.temporary.grow (blobs.grows_ground scope parent)
  mine _ leads := .temporary leads

/-- The path of the file. -/
theorem owned_target (free : blobs.NamesFree index) (scopeName : EntryName scope)
    (parentName : EntryName parent) (media : MediaType) :
    Owned (OwnPlace blobs scope parent index media) (blobs.ground scope parent) blobs.root
      [scope, parent] (Blob.filename blobs.names.next.1 index media) where
  some_names := List.cons_ne_nil _ _
  named := by
    intro name mem
    rcases List.mem_pair.mp mem with rfl | rfl
    · exact scopeName.plain.1
    · exact parentName.plain.1
  plain := Blob.entryName_filename.plain
  unlinked := (free.target media).grow (blobs.grows_ground scope parent)
  mine _ leads := .target leads

section Steps

variable (free : blobs.NamesFree index) (scopeName : EntryName scope)
  (parentName : EntryName parent)
include free scopeName parentName

/-- A step that makes the file changes the two places only. -/
theorem touches_fileSteps {step : Step}
    (mem : step ∈ blobs.fileSteps scope parent index upload media)
    (touched : Touches (OwnPlace blobs scope parent index media) (blobs.ground scope parent) tree) :
    Touches (OwnPlace blobs scope parent index media) (blobs.ground scope parent)
      (step.run tree).2 := by
  have temporary := owned_temporary free scope parent media
  have target := owned_target free scopeName parentName media
  rcases List.mem_cons.mp mem with rfl | mem
  · cases written : tree.write blobs.temporaryPath [] with
    | error error => simpa only [Step.run, written] using touched
    | ok next => simpa only [Step.run, written] using temporary.write touched written
  · rcases List.mem_append.mp mem with appends | moves
    · obtain ⟨chunk, -, rfl⟩ := List.mem_map.mp appends
      cases appended : tree.append blobs.temporaryPath chunk with
      | error error => simpa only [Step.run, appended] using touched
      | ok next => simpa only [Step.run, appended] using temporary.append touched appended
    · have move : step = .move blobs.temporaryPath (blobs.targetPath scope parent index media) := by
        split at moves
        · exact List.mem_singleton.mp moves
        · cases moves
      rw [move]
      cases moved : tree.rename blobs.temporaryPath (blobs.targetPath scope parent index media) with
      | error error => simpa only [Step.run, moved] using touched
      | ok next =>
          obtain ⟨old, directory, content, oldLeads, leads, -, -, there, loose, rfl⟩ :=
            temporary.rename target touched moved
          simpa only [Step.run, moved] using
            touched.move (.temporary oldLeads) (.target leads) there loose

/-- After directories have been made, a save changes the two places only. -/
theorem touches_writeSteps (upload : Upload) (media : MediaType) (count : Nat) :
    Touches (OwnPlace blobs scope parent index media) (blobs.ground scope parent)
      (Step.runAll (blobs.groundSteps scope parent ++
        (blobs.fileSteps scope parent index upload media).take count) blobs.tree).2 := by
  rcases made : Step.runAll (blobs.groundSteps scope parent) blobs.tree with ⟨_ | _, tree⟩
  · have ground : blobs.ground scope parent = tree := by rw [LocalBlobs.ground, made]
    rw [Step.runAll_append_error made, ground]
    exact .refl _ tree
  · have ground : blobs.ground scope parent = tree := by rw [LocalBlobs.ground, made]
    rw [Step.runAll_append_ok made, ← ground]
    exact Step.runAll_induction _ (fun step mem tree touched =>
      touches_fileSteps free scopeName parentName (List.mem_of_mem_take mem) touched) (.refl _ _)

/-- A save that writes changes the two places only, once directories have been made. -/
theorem touches_write {result : Except Failure SavedBlob}
    (written : blobs.write scope parent index upload media = (result, after)) :
    Touches (OwnPlace blobs scope parent index media) (blobs.ground scope parent) after.tree := by
  have whole := touches_writeSteps free scopeName parentName upload media
    (blobs.fileSteps scope parent index upload media).length
  rw [List.take_length, ← writeSteps_eq] at whole
  obtain ⟨-, ⟨saved, -, -, -, ran⟩ | ⟨-, -, ⟨error, failed⟩ | discarded⟩⟩ := write_cases written
  · rwa [ran] at whole
  · have failed : Step.runAll (blobs.groundSteps scope parent) blobs.tree =
        (.error error, after.tree) := Step.runAll_cons_error failed
    rw [ground, failed]
    exact .refl _ _
  · rw [discarded, discard]
    cases removed : Tree.remove _ blobs.temporaryPath with
    | error error => exact whole
    | ok left => exact (owned_temporary free scope parent media).remove whole removed

/-- After a save that succeeds, the file stands at its path. The temporary file, which was filled
by then, is gone. -/
theorem write_arrives {saved : SavedBlob}
    (written : blobs.write scope parent index upload media = (.ok saved, after)) :
    ∃ old directory content count,
      after.tree.resolve blobs.temporaryDirectory = .ok (.entry old .directory) ∧
      after.tree.resolve (blobs.directoryOf scope parent) = .ok (.entry directory .directory) ∧
      after.tree.resolve (blobs.targetPath scope parent index media) =
        .ok (.entry (directory ++ [Blob.filename blobs.names.next.1 index media])
          (.file content)) ∧
      (Step.runAll ((blobs.writeSteps scope parent index upload media).take count)
        blobs.tree).2.lookup (old ++ [Blob.temporaryName blobs.names.next.1]) =
          some (.file content) ∧
      after.tree.lookup (old ++ [Blob.temporaryName blobs.names.next.1]) = none := by
  have kept := (touches_write free scopeName parentName written).keeps
  obtain ⟨-, ⟨_, -, -, complete, ran⟩ | ⟨⟨_, impossible⟩, -⟩⟩ := write_cases written
  · -- The last step of those that succeed moves the file.
    obtain ⟨fill, fileSteps_eq⟩ : ∃ fill, blobs.fileSteps scope parent index upload media =
        fill ++ [.move blobs.temporaryPath (blobs.targetPath scope parent index media)] := by
      refine ⟨.create blobs.temporaryPath :: (upload.delivery (max blobs.chunkSize 1)).chunks.map
        (.append blobs.temporaryPath), ?_⟩
      rw [fileSteps, complete, if_pos rfl, List.cons_append]
    have touched := touches_writeSteps free scopeName parentName upload media fill.length
    rw [writeSteps_eq, fileSteps_eq, ← List.append_assoc] at ran
    obtain ⟨middle, filled, moved⟩ := Step.exists_of_runAll_append ran
    rw [fileSteps_eq, List.take_left, filled] at touched
    cases renamed : middle.rename blobs.temporaryPath
        (blobs.targetPath scope parent index media) with
    | error error =>
        simp only [Step.runAll, Step.run, renamed] at moved
        cases moved
    | ok next =>
        obtain ⟨old, directory, content, oldLeads, leads, short, checked, there, -, moved_eq⟩ :=
          (owned_temporary free _ _ _).rename (owned_target free scopeName parentName media) touched
            renamed
        simp only [Step.runAll, Step.run, renamed] at moved
        obtain rfl : next = after.tree := (Prod.mk.inj moved).2
        have arrived : after.tree.lookup
            (directory ++ [Blob.filename blobs.names.next.1 index media]) =
              some (.file content) := by
          rw [moved_eq]
          exact Tree.lookup_put_self _ _
            (List.append_ne_nil_of_right_ne_nil _ (List.cons_ne_nil _ _))
        refine ⟨old, directory, content, (blobs.groundSteps scope parent ++ fill).length,
          Tree.resolve_directory_of_keeps kept oldLeads, Tree.resolve_directory_of_keeps kept leads,
          Tree.resolve_file (List.cons_ne_nil _ _) (Tree.resolve_directory_of_keeps kept leads)
            Blob.entryName_filename.plain short checked arrived, ?_, ?_⟩
        · rw [writeSteps_eq, fileSteps_eq, ← List.append_assoc, List.take_left, filled]
          exact there
        · rw [moved_eq, Tree.lookup_put_of_ne, Tree.lookup_erase_self]
          · exact List.append_ne_nil_of_right_ne_nil _ (List.cons_ne_nil _ _)
          · intro same
            have names := List.append_inj_right' same rfl
            exact Blob.temporaryName_ne_filename (List.singleton_inj.mp names)
  · cases impossible

end Steps

/-! ## Saving inside -/

/-- The two directories of a save are inside the root. -/
structure Sheltered (blobs : LocalBlobs) (scope parent : String) : Prop where
  temporary : ∀ directory,
    blobs.tree.resolve blobs.temporaryDirectory = .ok (.entry directory .directory) →
      blobs.Encloses directory
  target : ∀ directory,
    blobs.tree.resolve (blobs.directoryOf scope parent) = .ok (.entry directory .directory) →
      blobs.Encloses directory

/-- The entries of directories outside the root of a store are the same in a tree as before, but
for new directories. -/
def Spares (before : Tree) (blobs : LocalBlobs) (tree : Tree) : Prop :=
  ∀ directory name, ¬blobs.Encloses directory →
    tree.lookup (directory ++ [name]) = before.lookup (directory ++ [name]) ∨
      before.lookup (directory ++ [name]) = none ∧
        tree.lookup (directory ++ [name]) = some .directory

/-- A save changes no file outside the root, neither after any of its steps nor at its end. -/
structure SavesInside (before after : LocalBlobs) (steps : List Step) : Prop where
  onTheWay : ∀ count, Spares before.tree after (Step.runAll (steps.take count) before.tree).2
  atEnd : Spares before.tree after after.tree

theorem spares_of_grows (blobs : LocalBlobs) {before : Tree} (grown : Region.Grows before tree) :
    Spares before blobs tree :=
  fun directory name _ => grown.lookup_eq (directory ++ [name])

/-- The two places of a save are inside the root if its directories are. -/
theorem Sheltered.spares (sheltered : after.Sheltered scope parent)
    (root_eq : after.root = blobs.root)
    (final : Touches (OwnPlace blobs scope parent index media) (blobs.ground scope parent)
      after.tree)
    (touched : Touches (OwnPlace blobs scope parent index media) (blobs.ground scope parent) tree) :
    Spares blobs.tree after tree := by
  intro directory name outside
  rcases touched.lookup_eq (directory ++ [name]) with same | ⟨own, -, -⟩
  · rw [same]
    exact (blobs.grows_ground scope parent).lookup_eq _
  · generalize place_eq : directory ++ [name] = place at own
    refine absurd ?_ outside
    cases own with
    | temporary leads =>
        obtain ⟨rfl, -⟩ := List.append_inj' place_eq rfl
        apply sheltered.temporary
        rw [temporaryDirectory, rootPath, root_eq]
        exact Tree.resolve_directory_of_keeps final.keeps leads
    | target leads =>
        obtain ⟨rfl, -⟩ := List.append_inj' place_eq rfl
        apply sheltered.target
        rw [directoryOf, rootPath, root_eq]
        exact Tree.resolve_directory_of_keeps final.keeps leads

section Sheltering

variable (free : blobs.NamesFree index) (scopeName : EntryName scope)
  (parentName : EntryName parent)
include free scopeName parentName

/-- A save into directories inside the root stays inside. -/
theorem Sheltered.savesInside {result : Except Failure SavedBlob}
    (written : blobs.write scope parent index upload media = (result, after))
    (sheltered : after.Sheltered scope parent) :
    SavesInside blobs after (blobs.writeSteps scope parent index upload media) := by
  have root_eq := (write_cases written).1
  have final := touches_write free scopeName parentName written
  refine ⟨fun count => ?_, sheltered.spares root_eq final final⟩
  rw [writeSteps_eq, List.take_append]
  by_cases few : count ≤ (blobs.groundSteps scope parent).length
  · rw [Nat.sub_eq_zero_of_le few, List.take_zero, List.append_nil]
    exact spares_of_grows after (grows_groundSteps (List.take_subset _ _))
  · rw [List.take_of_length_le (Nat.le_of_not_le few)]
    exact sheltered.spares root_eq final (touches_writeSteps free scopeName parentName _ _ _)

/-- The file of a save that succeeds can be found by its key exactly if its directory is inside the
root. -/
theorem contains_iff_of_write (closed : blobs.tree.Closed) {saved : SavedBlob}
    (written : blobs.write scope parent index upload media = (.ok saved, after)) :
    ∃ directory,
      after.tree.resolve (blobs.directoryOf scope parent) = .ok (.entry directory .directory) ∧
      (after.contains saved.storageKey = true ↔ after.Encloses directory) := by
  obtain ⟨_, directory, content, _, -, leads, file, -, -⟩ :=
    write_arrives free scopeName parentName written
  obtain ⟨root_eq, ⟨_, same, keyEq, -⟩ | ⟨⟨_, impossible⟩, -⟩⟩ := write_cases written
  · cases same
    have fileName : EntryName (Blob.filename blobs.names.next.1 index media) :=
      Blob.entryName_filename
    have closedAfter : after.tree.Closed :=
      (touches_write free scopeName parentName written).closed (closed_ground closed scope parent)
        fun place own => own.housed closed
    have resolved : after.resolve? saved.storageKey =
        some (blobs.targetPath scope parent index media) := by
      rw [keyEq, EntryName.keyed scopeName parentName fileName after,
        EntryName.split_key scopeName parentName fileName, rootPath, root_eq]
      rfl
    exact ⟨directory, leads, contains_iff_encloses closedAfter resolved file⟩
  · cases impossible

/-- A save that succeeds and stays inside the root, so that the key is contained, is one into
directories inside the root. -/
theorem sheltered_iff_of_write (closed : blobs.tree.Closed) {saved : SavedBlob}
    (written : blobs.write scope parent index upload media = (.ok saved, after)) :
    after.Sheltered scope parent ↔
      SavesInside blobs after (blobs.writeSteps scope parent index upload media) ∧
        after.contains saved.storageKey = true := by
  obtain ⟨old, _, content, count, oldLeads, -, -, filled, gone⟩ :=
    write_arrives free scopeName parentName written
  obtain ⟨directory, leads, contained⟩ :=
    contains_iff_of_write free scopeName parentName closed written
  have root_eq := (write_cases written).1
  have temporary_eq : after.temporaryDirectory = blobs.temporaryDirectory := by
    rw [temporaryDirectory, rootPath, root_eq, temporaryDirectory, rootPath]
  have directory_eq : after.directoryOf scope parent = blobs.directoryOf scope parent := by
    rw [directoryOf, rootPath, root_eq, directoryOf, rootPath]
  constructor
  · intro sheltered
    refine ⟨sheltered.savesInside free scopeName parentName written, contained.mpr ?_⟩
    exact sheltered.target directory (directory_eq ▸ leads)
  · rintro ⟨inside, found⟩
    refine ⟨fun other otherLeads => ?_, fun other otherLeads => ?_⟩
    · rw [temporary_eq, oldLeads] at otherLeads
      cases otherLeads
      -- The temporary file was there before the last step, and it is not there now.
      apply Classical.byContradiction
      intro outside
      rcases inside.onTheWay count old (Blob.temporaryName blobs.names.next.1) outside with
        before | ⟨-, impossible⟩
      · rcases inside.atEnd old (Blob.temporaryName blobs.names.next.1) outside with
          same | ⟨missing, -⟩
        · rw [← same, gone, filled] at before
          cases before
        · rw [missing, filled] at before
          cases before
      · rw [filled] at impossible
        cases impossible
    · rw [directory_eq, leads] at otherLeads
      cases otherLeads
      exact contained.mp found

end Sheltering

/-- A save changes no file outside the root if its two directories, as it leaves them, are inside.
A save that succeeds changes one otherwise, or its file cannot be found by its key. -/
theorem save_inside_iff (blobs : LocalBlobs) (closed : blobs.tree.Closed) (scope parent : String)
    (index : Nat) (upload : Upload) (free : blobs.NamesFree index) :
    ((blobs.save scope parent index upload).2.Sheltered scope parent →
        SavesInside blobs (blobs.save scope parent index upload).2
          (blobs.saveSteps scope parent index upload)) ∧
      ∀ saved, (blobs.save scope parent index upload).1 = .ok saved →
        ((blobs.save scope parent index upload).2.Sheltered scope parent ↔
          SavesInside blobs (blobs.save scope parent index upload).2
              (blobs.saveSteps scope parent index upload) ∧
            (blobs.save scope parent index upload).2.contains saved.storageKey = true) := by
  rcases saved : blobs.save scope parent index upload with ⟨result, after⟩
  rcases save_cases saved with
    ⟨nothing, rfl, error, rfl⟩ | ⟨media, -, steps_eq, scopeValid, parentValid, result, written, rfl⟩
  · rw [nothing]
    refine ⟨fun _ => ⟨fun count => ?_, fun _ _ _ => .inl rfl⟩, fun _ impossible => ?_⟩
    · rw [List.take_nil]
      exact fun _ _ _ => .inl rfl
    · cases impossible
  · have scopeName := EntryName.of_segment scopeValid
    have parentName := EntryName.of_segment parentValid
    rw [steps_eq]
    refine ⟨Sheltered.savesInside free scopeName parentName written, fun blob succeeded => ?_⟩
    cases result with
    | error failure => cases succeeded
    | ok saved =>
        cases succeeded
        exact sheltered_iff_of_write free scopeName parentName closed written

/-! ## Directories that are there before -/

/-- A save keeps all directories and links. -/
theorem keeps_of_save (free : blobs.NamesFree index) {result : Except GalleryError SavedBlob}
    (saved : blobs.save scope parent index upload = (result, after)) :
    after.root = blobs.root ∧ Keeps blobs.tree after.tree := by
  rcases save_cases saved with
    ⟨-, rfl, -⟩ | ⟨media, -, -, scopeValid, parentValid, result, written, -⟩
  · exact ⟨rfl, .refl _⟩
  · have touched := touches_write free (EntryName.of_segment scopeValid)
      (EntryName.of_segment parentValid) written
    exact ⟨(write_cases written).1, (blobs.grows_ground scope parent).keeps.trans touched.keeps⟩

/-- The file of a save that succeeds can be found by its key exactly if its directory is inside the
root. -/
theorem contains_iff_of_save (closed : blobs.tree.Closed) (free : blobs.NamesFree index)
    {saved : SavedBlob}
    (succeeded : blobs.save scope parent index upload = (.ok saved, after)) :
    ∃ directory,
      after.tree.resolve (blobs.directoryOf scope parent) = .ok (.entry directory .directory) ∧
      (after.contains saved.storageKey = true ↔ after.Encloses directory) := by
  rcases save_cases succeeded with
    ⟨-, -, _, impossible⟩ | ⟨media, -, -, scopeValid, parentValid, result, written, same⟩
  · cases impossible
  · cases result with
    | error failure => cases same
    | ok blob =>
        cases same
        exact contains_iff_of_write free (EntryName.of_segment scopeValid)
          (EntryName.of_segment parentValid) closed written

theorem encloses_iff {base directory : Place}
    (root : blobs.tree.resolve blobs.rootPath = .ok (.entry base .directory)) :
    blobs.Encloses directory ↔ base <+: directory := by
  have canonical : blobs.tree.canonical? blobs.rootPath = some base := by
    rw [Tree.canonical?, root]
  rw [Encloses, canonical]
  simp

/-- Directories that are inside the root before a save are inside it afterwards. -/
theorem sheltered_save (free : blobs.NamesFree index) (upload : Upload)
    {base old directory : Place}
    (root : blobs.tree.resolve blobs.rootPath = .ok (.entry base .directory))
    (temporary : blobs.tree.resolve blobs.temporaryDirectory = .ok (.entry old .directory))
    (target : blobs.tree.resolve (blobs.directoryOf scope parent) =
      .ok (.entry directory .directory))
    (inside : base <+: old ∧ base <+: directory) :
    (blobs.save scope parent index upload).2.Sheltered scope parent := by
  rcases saved : blobs.save scope parent index upload with ⟨result, after⟩
  obtain ⟨root_eq, kept⟩ := keeps_of_save free saved
  have rootAfter : after.tree.resolve after.rootPath = .ok (.entry base .directory) := by
    rw [rootPath, root_eq]
    exact Tree.resolve_directory_of_keeps kept root
  constructor
  · intro other leads
    rw [temporaryDirectory, rootPath, root_eq] at leads
    cases leads.symm.trans (Tree.resolve_directory_of_keeps kept temporary)
    exact (encloses_iff rootAfter).mpr inside.1
  · intro other leads
    rw [directoryOf, rootPath, root_eq] at leads
    cases leads.symm.trans (Tree.resolve_directory_of_keeps kept target)
    exact (encloses_iff rootAfter).mpr inside.2

/-! ## A link that leads out -/

/-- The directory of the scope s is a link that leads out of the root, that of the scope t is
none. -/
def leadingOut : LocalBlobs where
  root := "/root"
  chunkSize := 1
  names := { draws := fun _ => default }
  tree :=
    { entries :=
        [(["root"], .directory), (["root", ".tmp"], .directory), (["root", "s"], .link "/outside"),
          (["outside"], .directory), (["outside", "p"], .directory), (["root", "t"], .directory),
          (["root", "t", "p"], .directory)] }

theorem closed_leadingOut : leadingOut.tree.Closed :=
  .of_entries (by decide) rfl

theorem namesFree_leadingOut : leadingOut.NamesFree 0 :=
  .of_entries (by decide +kernel)

theorem resolve_leadingOut :
    leadingOut.tree.resolve ⟨"/root", []⟩ = .ok (.entry ["root"] .directory) ∧
    leadingOut.tree.resolve ⟨"/root", [".tmp"]⟩ = .ok (.entry ["root", ".tmp"] .directory) ∧
    leadingOut.tree.resolve ⟨"/root", ["s", "p"]⟩ = .ok (.entry ["outside", "p"] .directory) ∧
    leadingOut.tree.resolve ⟨"/root", ["t", "p"]⟩ = .ok (.entry ["root", "t", "p"] .directory) := by
  have out : Path.split "/outside" = ["outside"] := by decide +kernel
  have names : Path.names ⟨"/root", []⟩ = ["root"] ∧
    Path.names ⟨"/root", [".tmp"]⟩ = ["root", ".tmp"] ∧
    Path.names ⟨"/root", ["s", "p"]⟩ = ["root", "s", "p"] ∧
    Path.names ⟨"/root", ["t", "p"]⟩ = ["root", "t", "p"] := by decide +kernel
  refine ⟨Tree.lead_eq_ok_iff.mpr ⟨by decide +kernel, ?_⟩,
    Tree.lead_eq_ok_iff.mpr ⟨by decide +kernel, ?_⟩,
    Tree.lead_eq_ok_iff.mpr ⟨by decide +kernel, ?_⟩,
    Tree.lead_eq_ok_iff.mpr ⟨by decide +kernel, ?_⟩⟩
  · simp +decide [names, Tree.follow, leadingOut, Tree.lookup]
  · simp +decide [names, Tree.follow, leadingOut, Tree.lookup]
  · simp +decide [names, out, Tree.follow, leadingOut, Tree.lookup, Tree.linkLimit]
  · simp +decide [names, Tree.follow, leadingOut, Tree.lookup]

/-- An image without any bytes. -/
def emptyImage : Upload :=
  .ofHeld "a.png" none []

/-- The tree while the temporary file of a save of that image stands. -/
def spooledOut : Tree :=
  leadingOut.tree.put ["root", ".tmp", "tmp-"] (.file (.ofBytes []))

theorem names_temporary : Path.names ⟨"/root", [".tmp", "tmp-"]⟩ = ["root", ".tmp", "tmp-"] := by
  decide +kernel

theorem checkPath_temporary :
    Tree.checkPath (Path.display ⟨"/root", [".tmp", "tmp-"]⟩) = .ok () := by
  decide +kernel

theorem write_temporary :
    leadingOut.tree.write ⟨"/root", [".tmp", "tmp-"]⟩ [] = .ok spooledOut := by
  have leads : leadingOut.tree.lead .create ⟨"/root", [".tmp", "tmp-"]⟩
      (Path.names ⟨"/root", [".tmp", "tmp-"]⟩) = .ok (.free ["root", ".tmp", "tmp-"]) := by
    refine Tree.lead_eq_ok_iff.mpr ⟨checkPath_temporary, ?_⟩
    simp +decide [names_temporary, Tree.follow, leadingOut, Tree.lookup]
  rw [Tree.write, leads, spooledOut]

theorem locate_temporary : spooledOut.locate ⟨"/root", [".tmp", "tmp-"]⟩ =
    .ok (.entry ["root", ".tmp", "tmp-"] (.file (.ofBytes []))) := by
  refine Tree.lead_eq_ok_iff.mpr ⟨checkPath_temporary, ?_⟩
  simp +decide [spooledOut, names_temporary, Tree.follow, leadingOut, Tree.put, Tree.lookup]

/-- The image is saved where the path of its file leads to. -/
theorem save_of_free {scope : String} {directory target : Place}
    (steps : leadingOut.saveSteps scope "p" 0 emptyImage =
      [.makeDirectories ⟨"/root", [scope, "p"]⟩, .makeDirectories ⟨"/root", [".tmp"]⟩,
        .create ⟨"/root", [".tmp", "tmp-"]⟩,
        .move ⟨"/root", [".tmp", "tmp-"]⟩ ⟨"/root", [scope, "p", "1-0-0000.png"]⟩])
    (leads : leadingOut.tree.resolve ⟨"/root", [scope, "p"]⟩ = .ok (.entry directory .directory))
    (open_end : Path.withoutSlash (Path.names ⟨"/root", [scope, "p"]⟩) =
      Path.names ⟨"/root", [scope, "p"]⟩)
    (free : spooledOut.locate ⟨"/root", [scope, "p", "1-0-0000.png"]⟩ = .ok (.free target)) :
    ∃ saved after, leadingOut.save scope "p" 0 emptyImage = (.ok saved, after) ∧
      after.tree =
        (spooledOut.erase ["root", ".tmp", "tmp-"]).put target (.file (.ofBytes [])) := by
  have moved : spooledOut.rename ⟨"/root", [".tmp", "tmp-"]⟩
      ⟨"/root", [scope, "p", "1-0-0000.png"]⟩ =
        .ok ((spooledOut.erase ["root", ".tmp", "tmp-"]).put target (.file (.ofBytes []))) := by
    rw [Tree.rename, locate_temporary]
    dsimp only
    rw [free]
  have madeTarget := Tree.makeDirectories_of_directory leads open_end
  have madeTemporary : leadingOut.tree.makeDirectories ⟨"/root", [".tmp"]⟩ =
      (.ok (), leadingOut.tree) :=
    Tree.makeDirectories_of_directory resolve_leadingOut.2.1 (by decide +kernel)
  refine save_eq_ok_of_runAll (steps ▸ List.cons_ne_nil _ _) (by decide +kernel) ?_
  rw [steps]
  simp only [Step.runAll, Step.run, madeTarget, madeTemporary, write_temporary, moved]

/-- A file comes in outside the root, and it cannot be found by its key. -/
theorem save_leadingOut :
    ∃ saved after, leadingOut.save "s" "p" 0 emptyImage = (.ok saved, after) ∧
      after.contains saved.storageKey = false ∧ ¬after.Encloses ["outside", "p"] ∧
      leadingOut.tree.lookup ["outside", "p", "1-0-0000.png"] = none ∧
      after.tree.lookup ["outside", "p", "1-0-0000.png"] = some (.file (.ofBytes [])) := by
  obtain ⟨root, -, target, -⟩ := resolve_leadingOut
  have out : Path.split "/outside" = ["outside"] := by decide +kernel
  have names : Path.names ⟨"/root", ["s", "p", "1-0-0000.png"]⟩ =
      ["root", "s", "p", "1-0-0000.png"] := by decide +kernel
  have free : spooledOut.locate ⟨"/root", ["s", "p", "1-0-0000.png"]⟩ =
      .ok (.free ["outside", "p", "1-0-0000.png"]) := by
    refine Tree.lead_eq_ok_iff.mpr ⟨by decide +kernel, ?_⟩
    simp +decide [spooledOut, names, out, Tree.follow, leadingOut, Tree.put, Tree.lookup,
      Tree.linkLimit]
  obtain ⟨saved, after, succeeded, tree_eq⟩ :=
    save_of_free (by decide +kernel) target (by decide +kernel) free
  obtain ⟨root_eq, kept⟩ := keeps_of_save namesFree_leadingOut succeeded
  have outside : ¬after.Encloses ["outside", "p"] := by
    have rootAfter : after.tree.resolve after.rootPath = .ok (.entry ["root"] .directory) := by
      rw [rootPath, root_eq]
      exact Tree.resolve_directory_of_keeps kept root
    rw [encloses_iff rootAfter]
    decide
  refine ⟨saved, after, succeeded, ?_, outside, by decide, ?_⟩
  · obtain ⟨directory, leads, found⟩ :=
      contains_iff_of_save closed_leadingOut namesFree_leadingOut succeeded
    cases leads.symm.trans (Tree.resolve_directory_of_keeps kept target)
    exact Bool.eq_false_iff.mpr fun contained => outside (found.mp contained)
  · rw [tree_eq]
    exact Tree.lookup_put_self _ _ (List.cons_ne_nil _ _)

/-- A scope whose directory is inside the root. -/
theorem save_inside_leadingOut :
    leadingOut.tree.Closed ∧ leadingOut.NamesFree 0 ∧
      SavesInside leadingOut (leadingOut.save "t" "p" 0 emptyImage).2
        (leadingOut.saveSteps "t" "p" 0 emptyImage) := by
  obtain ⟨root, temporary, -, target⟩ := resolve_leadingOut
  exact ⟨closed_leadingOut, namesFree_leadingOut, (save_inside_iff leadingOut closed_leadingOut
    "t" "p" 0 emptyImage namesFree_leadingOut).1
      (sheltered_save namesFree_leadingOut emptyImage root temporary target (by decide))⟩

/-- The directory of another scope takes the same file in. -/
theorem exists_save_leadingOut :
    ∃ saved after, leadingOut.save "t" "p" 0 emptyImage = (.ok saved, after) := by
  obtain ⟨-, -, -, target⟩ := resolve_leadingOut
  have names : Path.names ⟨"/root", ["t", "p", "1-0-0000.png"]⟩ =
      ["root", "t", "p", "1-0-0000.png"] := by decide +kernel
  have free : spooledOut.locate ⟨"/root", ["t", "p", "1-0-0000.png"]⟩ =
      .ok (.free ["root", "t", "p", "1-0-0000.png"]) := by
    refine Tree.lead_eq_ok_iff.mpr ⟨by decide +kernel, ?_⟩
    simp +decide [spooledOut, names, Tree.follow, leadingOut, Tree.put, Tree.lookup]
  obtain ⟨saved, after, succeeded, -⟩ :=
    save_of_free (by decide +kernel) target (by decide +kernel) free
  exact ⟨saved, after, succeeded⟩

end LocalBlobs

end ImageGallery
