import ImageGallery.Proofs.Streaming

/-!
# Crash safety

A process may stop after any of the steps of a save. Outside the directory of the temporary files
every file is then as before, or the file of the save has come in with all bytes of its upload, so
no key ever leads to a part of one. When the store is opened again, a sweep takes all files out of
the directory of the temporary files and leaves the others as they are.
-/

namespace ImageGallery

open Disk

namespace Disk.Tree

/-- The names in a directory are those that lead on from its place. -/
theorem mem_children_iff {tree : Tree} {place : Place} {name : String} :
    name ∈ tree.children place ↔ ∃ entry, tree.lookup (place ++ [name]) = some entry := by
  have inner : place ++ [name] ≠ [] := List.append_ne_nil_of_right_ne_nil _ (List.cons_ne_nil _ _)
  constructor
  · intro mem
    obtain ⟨entry, listed, named⟩ := List.mem_filterMap.mp mem
    split at named
    · split at named
      · rename_i place_eq
        cases named
        have found : (tree.entries.find? fun other => other.1 = place ++ [name]).isSome :=
          List.find?_isSome.mpr ⟨entry, listed, decide_eq_true place_eq⟩
        obtain ⟨first, first_eq⟩ := Option.isSome_iff_exists.mp found
        exact ⟨first.2, by rw [lookup, if_neg inner, first_eq]; rfl⟩
      · cases named
    · cases named
  · rintro ⟨entry, there⟩
    refine List.mem_filterMap.mpr ⟨_, mem_entries_of_lookup inner there, ?_⟩
    dsimp only
    rw [List.getLast?_concat]
    exact if_pos rfl

end Disk.Tree

namespace LocalBlobs

/-! ## Sweeping -/

/-- A file stands in the directory of the temporary files. -/
def IsTemporary (base : Place) (tree : Tree) (name : String) : Prop :=
  ∃ content, tree.lookup (base ++ [".tmp", name]) = some (.file content)

/-- The path of every file in the directory of the temporary files is one that the system takes. -/
def Addressable (root : String) (base : Place) (tree : Tree) : Prop :=
  ∀ name, IsTemporary base tree name →
    Passable root [".tmp", name] ∧ name.utf8ByteSize ≤ Tree.nameLimit

/-- A tree whose temporary files can be swept: the directory is there, without links, and its
files can be looked up. -/
structure Sweepable (root : String) (base : Place) (tree : Tree) : Prop where
  linkless : Linkless root base tree
  leads : Linkless.Leads root base tree [".tmp"]
  addressable : Addressable root base tree

/-- Some files of the directory of the temporary files are gone, and everything else is as
before. -/
structure Clears (base : Place) (names : List String) (tree after : Tree) : Prop where
  gone : ∀ name ∈ names, after.lookup (base ++ [".tmp", name]) = none
  others : ∀ place, (∀ name ∈ names, place ≠ base ++ [".tmp", name]) →
    after.lookup place = tree.lookup place

namespace Sweepable

variable {root : String} {base : Place} {tree : Tree} {name : String}

theorem housed (sweepable : Sweepable root base tree) (short : name.utf8ByteSize ≤ Tree.nameLimit) :
    tree.Housed base [".tmp", name] :=
  (Tree.Housed.single short).cons
    (sweepable.leads.housed.short ".tmp" List.mem_cons_self) sweepable.leads.there

/-- What is seen as a file is one. -/
theorem isFile_iff (sweepable : Sweepable root base tree) :
    tree.isFile ⟨root, [".tmp", name]⟩ = true ↔ IsTemporary base tree name := by
  constructor
  · exact sweepable.linkless.lookup_of_isFile plain_hidden
  · intro temporary
    obtain ⟨passable, short⟩ := sweepable.addressable name temporary
    exact (sweepable.linkless.isFile_iff passable.some_names passable.plain).mpr
      ⟨passable, sweepable.housed short, temporary⟩

/-- A file in the directory can be removed. -/
theorem remove_eq_ok (sweepable : Sweepable root base tree)
    (temporary : IsTemporary base tree name) :
    tree.remove ⟨root, [".tmp", name]⟩ = .ok (tree.erase (base ++ [".tmp", name])) := by
  obtain ⟨passable, short⟩ := sweepable.addressable name temporary
  obtain ⟨content, there⟩ := temporary
  exact sweepable.linkless.remove_eq_ok passable (sweepable.housed short) there

theorem isTemporary_erase_iff {other : String} :
    IsTemporary base (tree.erase (base ++ [".tmp", name])) other ↔
      IsTemporary base tree other ∧ other ≠ name := by
  have inner : base ++ [".tmp", name] ≠ [] :=
    List.append_ne_nil_of_right_ne_nil _ (List.cons_ne_nil _ _)
  unfold IsTemporary
  by_cases same : other = name
  · rw [same, Tree.lookup_erase_self _ inner]
    simp
  · rw [Tree.lookup_erase_of_ne _ (by simpa using same)]
    simp [same]

/-- The directory stays as it is when one of its files is gone. -/
theorem erase (sweepable : Sweepable root base tree) (temporary : IsTemporary base tree name) :
    Sweepable root base (tree.erase (base ++ [".tmp", name])) := by
  obtain ⟨content, there⟩ := temporary
  have touched : Touches (fun _ => True) tree (tree.erase (base ++ [".tmp", name])) :=
    .erase trivial (.of_file there)
  refine ⟨sweepable.linkless.touch touched, ⟨sweepable.leads.passable,
    sweepable.leads.housed.of_keeps touched.keeps,
    touched.keeps.directory _ sweepable.leads.there⟩, fun other left => ?_⟩
  exact sweepable.addressable other (isTemporary_erase_iff.mp left).1

/-- Of the names that it goes through, a sweep takes the files away and counts them. -/
theorem sweepNames_eq (sweepable : Sweepable root base tree) (names : List String) :
    ∃ removed after, sweepNames ⟨root, [".tmp"]⟩ names tree = (removed.length, after) ∧
      removed.Nodup ∧ (∀ name, name ∈ removed ↔ name ∈ names ∧ IsTemporary base tree name) ∧
      Clears base removed tree after ∧ Sweepable root base after := by
  induction names generalizing tree with
  | nil =>
      exact ⟨[], tree, rfl, List.nodup_nil, by simp, ⟨by simp, fun _ _ => rfl⟩, sweepable⟩
  | cons name names ih =>
      have join_eq : Path.join ⟨root, [".tmp"]⟩ [name] = ⟨root, [".tmp", name]⟩ := rfl
      rw [sweepNames]
      dsimp only
      rw [join_eq]
      by_cases temporary : IsTemporary base tree name
      · rw [if_pos (sweepable.isFile_iff.mpr temporary), sweepable.remove_eq_ok temporary]
        obtain ⟨removed, after, swept, distinct, mem_iff, clears, left⟩ :=
          ih (sweepable.erase temporary)
        dsimp only
        rw [swept]
        have inner : base ++ [".tmp", name] ≠ [] :=
          List.append_ne_nil_of_right_ne_nil _ (List.cons_ne_nil _ _)
        have absent : name ∉ removed := fun mem =>
          (isTemporary_erase_iff.mp ((mem_iff name).mp mem).2).2 rfl
        refine ⟨name :: removed, after, rfl, List.nodup_cons.mpr ⟨absent, distinct⟩, ?_, ?_, left⟩
        · intro other
          rw [List.mem_cons, List.mem_cons, mem_iff, isTemporary_erase_iff]
          by_cases same : other = name
          · subst same
            simp [temporary]
          · simp [same]
        · constructor
          · rintro other (_ | ⟨_, mem⟩)
            · rw [clears.others _ fun other mem same => absent ?_, Tree.lookup_erase_self _ inner]
              cases List.append_cancel_left same
              exact mem
            · exact clears.gone other mem
          · intro place elsewhere
            rw [clears.others place fun other mem => elsewhere other (List.mem_cons_of_mem _ mem),
              Tree.lookup_erase_of_ne _ (elsewhere name List.mem_cons_self)]
      · rw [if_neg fun found => temporary (sweepable.isFile_iff.mp found)]
        obtain ⟨removed, after, swept, distinct, mem_iff, clears, left⟩ := ih sweepable
        refine ⟨removed, after, swept, distinct, fun other => ?_, clears, left⟩
        rw [mem_iff, List.mem_cons]
        refine and_congr_left fun found => ⟨.inr, fun mem => mem.resolve_left ?_⟩
        rintro rfl
        exact temporary found

end Sweepable

variable {blobs later : LocalBlobs} {base : Place} {scope parent : String} {index : Nat}
  {upload : Upload} {crashed : Tree}

/-- A sweep goes through the directory of the temporary files. -/
theorem sweep_eq (blobs : LocalBlobs) (sweepable : Sweepable blobs.root base blobs.tree) :
    ∃ names tree, blobs.sweep = (.ok names.length, { blobs with tree }) ∧ names.Nodup ∧
      (∀ name, name ∈ names ↔ IsTemporary base blobs.tree name) ∧
      Clears base names blobs.tree tree ∧ Sweepable blobs.root base tree := by
  have directory_eq : blobs.temporaryDirectory = ⟨blobs.root, [".tmp"]⟩ := rfl
  have listed : blobs.tree.listDirectory blobs.temporaryDirectory =
      .ok (blobs.tree.children (base ++ [".tmp"])) := by
    rw [Tree.listDirectory, Tree.resolve, directory_eq,
      sweepable.linkless.lead_entry sweepable.leads.passable sweepable.leads.housed
        sweepable.leads.there]
  obtain ⟨names, tree, swept, distinct, mem_iff, clears, left⟩ :=
    sweepable.sweepNames_eq (blobs.tree.children (base ++ [".tmp"]))
  refine ⟨names, tree, ?_, distinct, fun name => ?_, clears, left⟩
  · rw [← directory_eq] at swept
    rw [sweep, listed]
    dsimp only
    rw [swept]
  · rw [mem_iff, Tree.mem_children_iff, List.append_assoc]
    apply and_iff_right_of_imp
    rintro ⟨content, there⟩
    exact ⟨_, there⟩

/-- A sweep took the files with the given names out of the directory of the temporary files: all
that were there, and nothing else. -/
structure Swept (base : Place) (names : List String) (blobs after : LocalBlobs) : Prop where
  distinct : names.Nodup
  mem_iff : ∀ name, name ∈ names ↔ IsTemporary base blobs.tree name
  clears : Clears base names blobs.tree after.tree
  /-- There is nothing left to sweep. -/
  again : after.sweep.1 = .ok 0

/-- A sweep takes all files out of the directory of the temporary files, and counts them. -/
theorem exists_swept (sweepable : Sweepable blobs.root base blobs.tree) :
    ∃ names after, blobs.sweep = (.ok names.length, after) ∧ Swept base names blobs after := by
  obtain ⟨names, tree, swept, distinct, mem_iff, clears, left⟩ := sweep_eq blobs sweepable
  refine ⟨names, { blobs with tree }, swept, distinct, mem_iff, clears, ?_⟩
  obtain ⟨others, after, sweptAgain, -, others_iff, -⟩ := sweep_eq { blobs with tree } left
  have nothing : others = [] := by
    refine List.eq_nil_iff_forall_not_mem.mpr fun name mem => ?_
    obtain ⟨content, there⟩ := (others_iff name).mp mem
    by_cases taken : name ∈ names
    · rw [clears.gone name taken] at there
      cases there
    · rw [clears.others _ fun other otherMem same => ?_] at there
      · exact taken ((mem_iff name).mpr ⟨content, there⟩)
      · cases List.append_cancel_left same
        exact taken otherMem
  rw [sweptAgain, nothing]
  rfl

/-! ## Opening a store again -/

/-- Opening a store makes the directory of the temporary files, unless it is there. -/
theorem adds_of_prepare (linkless : Linkless blobs.root base crashed) {tree : Tree}
    (prepared : prepare blobs.root crashed = (.ok (), tree)) :
    Adds (· = base ++ [".tmp"]) crashed tree ∧ Linkless.Leads blobs.root base tree [".tmp"] := by
  have plain : ∀ name ∈ [".tmp"], Tree.Plain name := List.forall_mem_singleton.mpr plain_hidden
  have above : Adds (· = base ++ [".tmp"]) crashed
      (crashed.makeDirectories ⟨blobs.root, []⟩).2 := by
    refine (linkless.adds_makeDirectories (List.forall_mem_nil _)).mono ?_
    rintro place ⟨names, some_names, first, -⟩
    exact absurd (List.prefix_nil.mp first) some_names
  unfold prepare at prepared
  split at prepared
  · cases prepared
  · rename_i ground made
    rw [made] at above
    have linklessGround := above.linkless linkless
    have below := linklessGround.adds_makeDirectories plain
    split at prepared
    · cases prepared
    · rename_i made
      cases prepared
      rw [made] at below
      refine ⟨above.trans (below.mono ?_),
        linklessGround.leads_of_makeDirectories (List.cons_ne_nil _ _) plain made⟩
      rintro place ⟨names, some_names, first, rfl⟩
      rcases List.prefix_cons_iff.mp first with rfl | ⟨rest, rfl, empty⟩
      · exact absurd rfl some_names
      · rw [List.prefix_nil.mp empty]

/-- A store whose directory of temporary files is there can be opened, and that changes nothing. -/
theorem prepare_eq (linkless : Linkless blobs.root base crashed)
    (leads : Linkless.Leads blobs.root base crashed [".tmp"]) :
    prepare blobs.root crashed = (.ok (), crashed) := by
  have root : crashed.makeDirectories ⟨blobs.root, []⟩ = (.ok (), crashed) := by
    by_cases empty : blobs.root = ""
    · have no_text : Path.display ⟨blobs.root, []⟩ = "" := empty
      rw [Tree.makeDirectories, if_pos no_text]
    · have checked := @Tree.checkPath_above blobs.root ".tmp" [] empty leads.passable.checked
      exact (linkless.way.rooted checked).makeDirectories_eq
  rw [prepare, root]
  dsimp only
  rw [leads.makeDirectories_eq linkless]

/-! ## Stopping -/

/-- The tree that a save leaves when the process stops after some of its steps. -/
def stoppedAfter (blobs : LocalBlobs) (scope parent : String) (index : Nat) (upload : Upload)
    (count : Nat) : Tree :=
  (Step.runAll ((blobs.saveSteps scope parent index upload).take count) blobs.tree).2

/-- Outside the directory of the temporary files and apart from some places, two trees have the same
files. -/
def SameFiles (base : Place) (but : Place → Prop) (tree after : Tree) : Prop :=
  ∀ place content, ¬base ++ [".tmp"] <+: place → ¬but place →
    (after.lookup place = some (.file content) ↔ tree.lookup place = some (.file content))

/-- Where a save may stop: before its file comes in, or after it came in whole. -/
inductive Stopped (base : Place) (scope parent : String) (index : Nat) (upload : Upload)
    (blobs : LocalBlobs) (crashed : Tree) : Prop where
  | before (same : SameFiles base (fun _ => False) blobs.tree crashed)
  | after {media : MediaType} (accepted : upload.media? = some media)
      (file : ∃ content, crashed.lookup (base ++ blobs.targetNames scope parent index media) =
        some (.file content) ∧ content.bytes = upload.content.ahead)
      (others : SameFiles base (· = base ++ blobs.targetNames scope parent index media) blobs.tree
        crashed)

/-- A stopped save made directories, and then changed nothing but its temporary file, or its file
came to its place. -/
theorem stoppedAfter_cases (linkless : Linkless blobs.root base blobs.tree)
    (scope parent : String) (index : Nat) (upload : Upload) (count : Nat) :
    ∃ ground, Adds (· ∈ directoriesOf base scope parent) blobs.tree ground ∧
      (Pending blobs.root base blobs.temporaryNames ground
          (blobs.stoppedAfter scope parent index upload count) ∨
        ∃ media, upload.media? = some media ∧
          Arrived blobs.root base blobs.temporaryNames (blobs.targetNames scope parent index media)
            ground upload.content.ahead (blobs.stoppedAfter scope parent index upload count)) := by
  have unstarted : ∃ ground, Adds (· ∈ directoriesOf base scope parent) blobs.tree ground ∧
      (Pending blobs.root base blobs.temporaryNames ground blobs.tree ∨
        ∃ media, upload.media? = some media ∧
          Arrived blobs.root base blobs.temporaryNames (blobs.targetNames scope parent index media)
            ground upload.content.ahead blobs.tree) :=
    ⟨blobs.tree, .refl _ _, .inl (.inl rfl)⟩
  unfold stoppedAfter saveSteps
  split
  · rename_i media accepted
    split
    · rename_i valid
      have scopeName := EntryName.of_segment valid.1
      have parentName := EntryName.of_segment valid.2
      rw [writeSteps_eq, List.take_append]
      by_cases few : count ≤ (blobs.groundSteps scope parent).length
      · rw [Nat.sub_eq_zero_of_le few, List.take_zero, List.append_nil]
        exact ⟨_, adds_groundSteps scopeName parentName linkless (List.take_subset _ _),
          .inl (.inl rfl)⟩
      · rw [List.take_of_length_le (Nat.le_of_not_le few)]
        have added := adds_groundSteps scopeName parentName linkless
          (List.Subset.refl (blobs.groundSteps scope parent))
        refine ⟨_, added, ?_⟩
        rcases made : Step.runAll (blobs.groundSteps scope parent) blobs.tree with ⟨_ | _, ground⟩
        · rw [Step.runAll_append_error made]
          exact .inl (.inl rfl)
        · rw [made] at added
          rw [Step.runAll_append_ok made]
          rcases fileSteps_cases scopeName parentName (added.linkless linkless)
            (List.take_prefix _ _) rfl with ⟨-, arrived⟩ | ⟨-, pending⟩
          · exact .inr ⟨media, accepted, arrived⟩
          · exact .inl pending
    · rw [List.take_nil]
      exact unstarted
  · rw [List.take_nil]
    exact unstarted

section Stopping

variable (linkless : Linkless blobs.root base blobs.tree) (scope parent : String) (index : Nat)
  (upload : Upload) (count : Nat)
include linkless

theorem stopped_stoppedAfter :
    Stopped base scope parent index upload blobs
      (blobs.stoppedAfter scope parent index upload count) := by
  have inside {place : Place} (same : place = base ++ blobs.temporaryNames) :
      base ++ [".tmp"] <+: place :=
    ⟨[Blob.temporaryName blobs.names.next.1], same ▸ List.append_assoc ..⟩
  obtain ⟨ground, added, pending | ⟨media, accepted, arrived⟩⟩ :=
    stoppedAfter_cases linkless scope parent index upload count
  · refine .before fun place content outside _ => ?_
    rcases pending.touches.lookup_eq place with same | ⟨mine, -⟩
    · rw [same, added.lookup_eq_file_iff]
    · exact absurd (inside mine) outside
  · refine .after accepted arrived.file fun place content outside differ => ?_
    rcases arrived.touches.lookup_eq place with same | ⟨mine, -⟩
    · rw [same, added.lookup_eq_file_iff]
    · exact (mine.elim (fun mine => outside (inside mine)) differ).elim

theorem linkless_stoppedAfter :
    Linkless blobs.root base (blobs.stoppedAfter scope parent index upload count) := by
  obtain ⟨ground, added, pending | ⟨media, accepted, arrived⟩⟩ :=
    stoppedAfter_cases linkless scope parent index upload count
  · exact (added.linkless linkless).touch pending.touches
  · exact (added.linkless linkless).touch arrived.touches

/-- The file that a save may leave in the directory of the temporary files can be looked up. -/
theorem addressable_stoppedAfter (addressable : Addressable blobs.root base blobs.tree) :
    Addressable blobs.root base (blobs.stoppedAfter scope parent index upload count) := by
  rintro name ⟨content, there⟩
  obtain ⟨ground, added, (same | ⟨bytes, spooled⟩) | ⟨media, accepted, arrived⟩⟩ :=
    stoppedAfter_cases linkless scope parent index upload count
  · rw [same] at there
    exact addressable name ⟨content, added.lookup_eq_file_iff.mp there⟩
  · rcases spooled.touches.lookup_eq (base ++ [".tmp", name]) with same | ⟨mine, -⟩
    · rw [same] at there
      exact addressable name ⟨content, added.lookup_eq_file_iff.mp there⟩
    · have names_eq : [".tmp", name] = blobs.temporaryNames := List.append_cancel_left mine
      have short := spooled.housed.short name (names_eq ▸ by simp)
      exact ⟨names_eq ▸ spooled.passable, short⟩
  · rcases arrived.touches.lookup_eq (base ++ [".tmp", name]) with same | ⟨mine | mine, -⟩
    · rw [same] at there
      exact addressable name ⟨content, added.lookup_eq_file_iff.mp there⟩
    · rw [mine, arrived.gone] at there
      cases there
    · cases List.append_cancel_left mine

/-- Directories stay. -/
theorem leads_stoppedAfter {names : Place}
    (leads : Linkless.Leads blobs.root base blobs.tree names) :
    Linkless.Leads blobs.root base (blobs.stoppedAfter scope parent index upload count) names := by
  obtain ⟨ground, added, pending | ⟨media, accepted, arrived⟩⟩ :=
    stoppedAfter_cases linkless scope parent index upload count
  · exact leads.of_keeps (added.grows.keeps.trans pending.touches.keeps)
  · exact leads.of_keeps (added.grows.keeps.trans arrived.touches.keeps)

end Stopping

/-! ## What a key finds -/

/-- A key that is contained leads to a file at a place. -/
theorem exists_of_contains {key : String} (found : blobs.contains key = true) :
    ∃ path place content, blobs.resolve? key = some path ∧
      blobs.tree.resolve path = .ok (.entry place (.file content)) ∧
      blobs.tree.lookup place = some (.file content) := by
  unfold contains at found
  split at found
  · rename_i path resolved
    obtain ⟨place, content, leads⟩ := exists_of_isFile (Bool.and_eq_true_iff.mp found).1
    exact ⟨path, place, content, resolved, leads,
      Tree.lookup_file_of_follow (Tree.lead_eq_ok_iff.mp leads).2⟩
  · cases found

/-- A file below the root after a save was stopped: a temporary file, a file that was there before,
or the whole file of the save. -/
inductive Standing (base : Place) (scope parent : String) (index : Nat) (upload : Upload)
    (blobs : LocalBlobs) (place : Place) (content : Content) : Prop where
  | temporary (inside : base ++ [".tmp"] <+: place)
  | old (there : blobs.tree.lookup place = some (.file content))
  | whole {media : MediaType} (accepted : upload.media? = some media)
      (place_eq : place = base ++ blobs.targetNames scope parent index media)
      (bytes_eq : content.bytes = upload.content.ahead)

theorem Stopped.standing (stopped : Stopped base scope parent index upload blobs crashed)
    {place : Place} {content : Content} (there : crashed.lookup place = some (.file content)) :
    Standing base scope parent index upload blobs place content := by
  by_cases inside : base ++ [".tmp"] <+: place
  · exact .temporary inside
  · cases stopped with
    | before same => exact .old ((same place content inside not_false).mp there)
    | @after media accepted file others =>
        by_cases target : place = base ++ blobs.targetNames scope parent index media
        · obtain ⟨whole, wholeThere, bytes_eq⟩ := file
          rw [target, wholeThere] at there
          cases there
          exact .whole accepted target bytes_eq
        · exact .old ((others place content inside target).mp there)

/-! ## Crash safety -/

/-- A store that is opened again after a crash has the same files, and can be swept. -/
structure Recovers (base : Place) (crashed : Tree) (later : LocalBlobs) : Prop where
  opened : Adds (· = base ++ [".tmp"]) crashed later.tree
  swept : ∃ names after, later.sweep = (.ok names.length, after) ∧ Swept base names later after

/-- What holds of the tree that a stopped save leaves. -/
structure SafeAt (base : Place) (scope parent : String) (index : Nat) (upload : Upload)
    (blobs : LocalBlobs) (crashed : Tree) : Prop where
  stopped : Stopped base scope parent index upload blobs crashed
  found : ∀ key, { blobs with tree := crashed }.contains key = true →
    ∃ path place content, blobs.resolve? key = some path ∧
      crashed.resolve path = .ok (.entry place (.file content)) ∧
      Standing base scope parent index upload blobs place content
  /-- A store that was open can be opened again. -/
  opens : Linkless.Leads blobs.root base blobs.tree [".tmp"] →
    prepare blobs.root crashed = (.ok (), crashed)
  recovers : ∀ later : LocalBlobs, later.root = blobs.root →
    prepare blobs.root crashed = (.ok (), later.tree) → Recovers base crashed later

/-- A save goes through its steps. It is safe to stop it after any of them. -/
structure CrashSafe (base : Place) (scope parent : String) (index : Nat) (upload : Upload)
    (blobs : LocalBlobs) : Prop where
  succeeds : ∀ saved after, blobs.save scope parent index upload = (.ok saved, after) →
    Step.runAll (blobs.saveSteps scope parent index upload) blobs.tree = (.ok (), after.tree)
  fails : ∀ error after, blobs.save scope parent index upload = (.error error, after) →
    let ended := (Step.runAll (blobs.saveSteps scope parent index upload) blobs.tree).2
    after.tree = ended ∨ after.tree = discard blobs.temporaryPath ended
  stops : ∀ count, SafeAt base scope parent index upload blobs
    (blobs.stoppedAfter scope parent index upload count)

/-- Below a root without links every save is crash-safe. -/
theorem save_crashSafe (blobs : LocalBlobs) (base : Place)
    (linkless : Linkless blobs.root base blobs.tree)
    (addressable : Addressable blobs.root base blobs.tree) (scope parent : String) (index : Nat)
    (upload : Upload) : CrashSafe base scope parent index upload blobs where
  succeeds saved after succeeded := by
    rcases save_cases succeeded with
      ⟨-, -, _, impossible⟩ | ⟨media, -, steps_eq, -, -, result, written, same⟩
    · cases impossible
    · obtain ⟨-, ⟨blob, -, -, -, ran⟩ | ⟨⟨failure, rfl⟩, -⟩⟩ := write_cases written
      · rw [steps_eq, ran]
      · cases same
  fails error after failed := by
    rcases save_cases failed with
      ⟨nothing, rfl, -⟩ | ⟨media, -, steps_eq, -, -, result, written, same⟩
    · rw [nothing]
      exact .inl rfl
    · rw [steps_eq]
      obtain ⟨-, ⟨blob, rfl, -⟩ | ⟨-, -, ⟨error, first⟩ | discarded⟩⟩ := write_cases written
      · cases same
      · rw [writeSteps, Step.runAll_cons_error first]
        exact .inl rfl
      · exact .inr discarded
  stops count := by
    have stopped := stopped_stoppedAfter linkless scope parent index upload count
    have linklessStopped := linkless_stoppedAfter linkless scope parent index upload count
    have addressableStopped :=
      addressable_stoppedAfter linkless scope parent index upload count addressable
    refine ⟨stopped, fun key found => ?_, fun leads => ?_, fun later root_eq prepared => ?_⟩
    · obtain ⟨path, place, content, resolved, leads, there⟩ := exists_of_contains found
      exact ⟨path, place, content, resolved, leads, stopped.standing there⟩
    · exact prepare_eq linklessStopped
        (leads_stoppedAfter linkless scope parent index upload count leads)
    · obtain ⟨opened, leads⟩ := adds_of_prepare linklessStopped prepared
      refine ⟨opened, exists_swept ?_⟩
      rw [root_eq]
      exact ⟨opened.linkless linklessStopped, leads, fun name ⟨content, there⟩ =>
        addressableStopped name ⟨content, opened.lookup_eq_file_iff.mp there⟩⟩

theorem not_isTemporary_shelf (name : String) : ¬IsTemporary ["root"] shelf.tree name := by
  rintro ⟨content, there⟩
  have listed := Tree.mem_entries_of_lookup (List.cons_ne_nil _ _) there
  simp [shelf] at listed

theorem addressable_shelf : Addressable shelf.root ["root"] shelf.tree :=
  fun name temporary => (not_isTemporary_shelf name temporary).elim

/-- After five steps two of three bytes have come to the temporary file. -/
theorem spooled_shelf : Spooled shelf.root ["root"] shelf.temporaryNames shelf.tree [1, 2]
    (shelf.stoppedAfter "s" "p" 0 smallImage 5) := by
  have steps : (shelf.saveSteps "s" "p" 0 smallImage).take 5 = shelf.groundSteps "s" "p" ++
      .create shelf.temporaryPath :: [[1], [2]].map (.append shelf.temporaryPath) := by
    decide +kernel
  obtain ⟨after, ran, spooled⟩ := exists_spooled open_shelf linkless_shelf [[1], [2]]
  have stopped : Step.runAll ((shelf.saveSteps "s" "p" 0 smallImage).take 5) shelf.tree =
      (.ok (), after) := by
    rw [steps, Step.runAll_append_ok runAll_groundSteps_shelf]
    exact ran
  rw [stoppedAfter, stopped]
  exact spooled

/-- The part of an image that a stopped save leaves is swept. -/
theorem save_crashSafe_shelf : ∃ stopped after : LocalBlobs,
    stopped = { shelf with tree := shelf.stoppedAfter "s" "p" 0 smallImage 5 } ∧
      stopped.sweep = (.ok 1, after) ∧
      Swept ["root"] [Blob.temporaryName shelf.names.next.1] stopped after := by
  have safe := (save_crashSafe shelf ["root"] linkless_shelf addressable_shelf "s" "p" 0
    smallImage).stops 5
  have spooled := spooled_shelf
  obtain ⟨stopped, stopped_eq⟩ : ∃ stopped : LocalBlobs,
    stopped = { shelf with tree := shelf.stoppedAfter "s" "p" 0 smallImage 5 } := ⟨_, rfl⟩
  have tree_eq : stopped.tree = shelf.stoppedAfter "s" "p" 0 smallImage 5 := by rw [stopped_eq]
  rw [← tree_eq] at safe spooled
  obtain ⟨names, after, sweep, swept⟩ :=
    (safe.recovers stopped (by rw [stopped_eq]) (safe.opens leads_shelf)).swept
  have only (name : String) : IsTemporary ["root"] stopped.tree name ↔
      name = Blob.temporaryName shelf.names.next.1 := by
    constructor
    · rintro ⟨content, there⟩
      rcases spooled.touches.lookup_eq (["root"] ++ [".tmp", name]) with same | ⟨mine, -⟩
      · exact (not_isTemporary_shelf name ⟨content, same ▸ there⟩).elim
      · have names_eq : [".tmp", name] = shelf.temporaryNames := List.append_cancel_left mine
        exact (List.cons.inj (List.cons.inj names_eq).2).1
    · rintro rfl
      obtain ⟨content, there, -⟩ := spooled.file
      exact ⟨content, there⟩
  have names_eq : names = [Blob.temporaryName shelf.names.next.1] := by
    refine List.perm_singleton.mp <|
      (List.perm_ext_iff_of_nodup swept.distinct (List.nodup_singleton _)).mpr fun name => ?_
    rw [swept.mem_iff, only, List.mem_singleton]
  subst names_eq
  exact ⟨stopped, after, stopped_eq, sweep, swept⟩

end LocalBlobs

end ImageGallery
