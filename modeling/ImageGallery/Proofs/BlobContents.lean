import ImageGallery.Proofs.KeyResolution

/-!
# Contents of saved files

A saved file can be read under its key, and holds the bytes of its upload. A save changes no other
file, wherever links lead, as long as the names that it makes up are new.
-/

namespace ImageGallery

open Disk

/-! ## Names to come -/

/-- The draw for the name that is made up after so many others. -/
def Blob.NameSource.coming (source : NameSource) : Nat → Draw
  | 0 => source.next.1
  | count + 1 => source.next.2.coming count

/-- All times to come are later than that of the last name. -/
theorem Blob.NameSource.lastMicros_lt_coming (source : NameSource) (count : Nat) :
    source.lastMicros < (source.coming count).micros := by
  induction count generalizing source with
  | zero => exact source.lastMicros_lt_next
  | succ count ih =>
      have later := ih source.next.2
      rw [lastMicros_next] at later
      exact Nat.lt_trans source.lastMicros_lt_next later

/-! ## Paths to files -/

namespace Disk

/-- Only directories bear a name. -/
def Tree.Unborne (tree : Tree) (name : String) : Prop :=
  ∀ place entry, tree.lookup (place ++ [name]) = some entry → entry = .directory

theorem Tree.Plain.of_checks {name : String} (still : ¬(name = "" ∨ name = "."))
    (upward : ¬name = "..") : Plain name := by
  rw [not_or] at still
  exact ⟨still.1, still.2, upward⟩

/-- A path goes on leading to a file while directories and links are kept. -/
theorem Tree.follow_file_of_keeps {tree other : Tree} {purpose : Purpose} {links : Nat}
    {place found : Place} {names : List String} {content new : Content} (kept : Keeps tree other)
    (there : other.lookup found = some (.file new))
    (leads : tree.follow purpose links place names = .ok (.entry found (.file content))) :
    other.follow purpose links place names = .ok (.entry found (.file new)) := by
  fun_induction tree.follow purpose links place names with
  | case2 _ _ _ _ same ih =>
      rw [follow_stay same]
      exact ih leads
  | case3 _ _ _ _ ih =>
      rw [follow_up]
      exact ih leads
  | case8 _ _ _ _ still upward open_end long _ directory ih =>
      rw [follow_plain (.of_checks still upward) (Nat.not_lt.mp long) open_end,
        kept.directory _ directory]
      exact ih leads
  | case9 _ _ _ still upward long _ _ file open_end =>
      obtain ⟨rfl, -⟩ := Target.entry.inj (Except.ok.inj leads)
      rw [follow_plain (.of_checks still upward) (Nat.not_lt.mp long) open_end, there]
      rfl
  | case11 => cases (Target.entry.inj (Except.ok.inj leads)).2
  | case13 _ _ _ still upward open_end long _ _ link going_on _ ih =>
      rw [dite_eq_ite] at ih
      rw [follow_plain (.of_checks still upward) (Nat.not_lt.mp long) open_end, kept.link _ _ link]
      dsimp only
      rw [if_neg going_on]
      exact ih leads
  | case1 | case4 | case5 | case6 | case7 | case10 | case12 => cases leads

/-- Chunks are added to a file one after the other. -/
theorem Owned.runAll_append {own : Place → Prop} {ground tree after : Tree} {root name : String}
    {above : List String} {directory : Place} {content : Content} {chunks : List Bytes}
    (owned : Owned own ground root above name) (touched : Touches own ground tree)
    (resolved : ground.resolve ⟨root, above⟩ = .ok (.entry directory .directory))
    (there : tree.lookup (directory ++ [name]) = some (.file content))
    (ran : LocalBlobs.Step.runAll (chunks.map (.append ⟨root, above ++ [name]⟩)) tree =
      (.ok (), after)) :
    Touches own ground after ∧ ∃ filled, after.lookup (directory ++ [name]) = some (.file filled) ∧
      filled.bytes = content.bytes ++ chunks.flatten := by
  induction chunks generalizing tree content with
  | nil =>
      cases ran
      exact ⟨touched, content, there, by rw [List.flatten_nil, List.append_nil]⟩
  | cons chunk chunks ih =>
      rw [List.map_cons, LocalBlobs.Step.runAll] at ran
      cases appended : tree.append ⟨root, above ++ [name]⟩ chunk with
      | error error =>
          simp only [LocalBlobs.Step.run, appended] at ran
          cases ran
      | ok next =>
          simp only [LocalBlobs.Step.run, appended] at ran
          have touchedNext := owned.append touched appended
          obtain ⟨other, before, otherResolved, otherThere, rfl⟩ :=
            owned.append_eq touched appended
          cases resolved.symm.trans otherResolved
          cases there.symm.trans otherThere
          have inner : directory ++ [name] ≠ [] :=
            List.append_ne_nil_of_right_ne_nil _ (List.cons_ne_nil _ _)
          obtain ⟨touchedAfter, filled, filledThere, filled_eq⟩ :=
            ih touchedNext (Tree.lookup_put_self _ _ inner) ran
          refine ⟨touchedAfter, filled, filledThere, ?_⟩
          rw [filled_eq, Content.bytes_append, List.flatten_cons, List.append_assoc]

end Disk

namespace LocalBlobs

variable {blobs after : LocalBlobs} {scope parent : String} {index : Nat} {upload : Upload}
  {media : MediaType} {saved : SavedBlob}

/-! ## Reading -/

/-- The bytes of the file under a key. -/
def read? (blobs : LocalBlobs) (key : String) : Option Bytes :=
  (blobs.resolve? key).bind fun path => (blobs.tree.read path).toOption

theorem read?_eq_some_iff {key : String} {bytes : Bytes} : blobs.read? key = some bytes ↔
    ∃ path place content, blobs.resolve? key = some path ∧
      blobs.tree.resolve path = .ok (.entry place (.file content)) ∧ content.bytes = bytes := by
  unfold read?
  constructor
  · intro read
    obtain ⟨path, resolved, bytes_eq⟩ := Option.bind_eq_some_iff.mp read
    unfold Tree.read at bytes_eq
    split at bytes_eq
    · rename_i place content leads
      exact ⟨path, place, content, resolved, leads, Option.some.inj bytes_eq⟩
    · cases bytes_eq
    · cases bytes_eq
    · cases bytes_eq
  · rintro ⟨path, place, content, resolved, leads, rfl⟩
    rw [resolved, Option.bind_some, Tree.read, leads]
    rfl

/-- No name that is made up from now on is in use, but for directories. -/
structure NewNames (blobs : LocalBlobs) : Prop where
  temporary : ∀ count, blobs.tree.Unborne (Blob.temporaryName (blobs.names.coming count))
  target : ∀ count index media,
    blobs.tree.Unborne (Blob.filename (blobs.names.coming count) index media)

theorem NewNames.namesFree (new : blobs.NewNames) (index : Nat) : blobs.NamesFree index where
  temporary place target link := by
    cases new.temporary 0 place _ link
  target media place target link := by
    cases new.target 0 index media place _ link

/-- The names that are made up have hyphens. -/
theorem NewNames.of_entries
    (unlike : ∀ entry ∈ blobs.tree.entries, ∀ name ∈ entry.1.getLast?, '-' ∉ name.toList) :
    blobs.NewNames := by
  have unborne {name : String} (hyphen : '-' ∈ name.toList) : blobs.tree.Unborne name := by
    intro place entry there
    have listed := Tree.mem_entries_of_lookup
      (List.append_ne_nil_of_right_ne_nil _ (List.cons_ne_nil _ _)) there
    refine absurd hyphen (unlike _ listed name ?_)
    rw [List.getLast?_concat]
    exact Option.mem_some_self name
  exact ⟨fun _ => unborne (by simp [Blob.temporaryName]),
    fun _ _ _ => unborne (by simp [Blob.filename])⟩

theorem newNames_leadingOut : leadingOut.NewNames :=
  .of_entries (by decide +kernel)

/-! ## What a save writes -/

section Writing

variable (new : blobs.NewNames) (scopeName : EntryName scope) (parentName : EntryName parent)
  (written : blobs.write scope parent index upload media = (.ok saved, after))
include new scopeName parentName written

omit scopeName parentName in
/-- Before the last step of a save that succeeds the temporary file holds the bytes of the
upload. -/
theorem exists_filled_of_write : ∃ filled directory content,
    Touches (OwnPlace blobs scope parent index media) (blobs.ground scope parent) filled ∧
      (blobs.ground scope parent).resolve blobs.temporaryDirectory =
        .ok (.entry directory .directory) ∧
      filled.lookup (directory ++ [Blob.temporaryName blobs.names.next.1]) =
        some (.file content) ∧
      content.bytes = upload.content.ahead ∧
      filled.rename blobs.temporaryPath (blobs.targetPath scope parent index media) =
        .ok after.tree := by
  have temporary := owned_temporary (new.namesFree index) scope parent media
  obtain ⟨-, ⟨_, -, -, complete, ran⟩ | ⟨⟨_, impossible⟩, -⟩⟩ := write_cases written
  · rw [writeSteps_eq, fileSteps, complete, if_pos rfl] at ran
    obtain ⟨ground, made, making⟩ := Step.exists_of_runAll_append ran
    obtain rfl : blobs.ground scope parent = ground := by rw [LocalBlobs.ground, made]
    cases created : (blobs.ground scope parent).write blobs.temporaryPath [] with
    | error error =>
        rw [Step.runAll, Step.run, created] at making
        cases making
    | ok empty =>
        have first : Step.run (.create blobs.temporaryPath) (blobs.ground scope parent) =
            (.ok (), empty) := by
          simp only [Step.run, created]
        rw [Step.runAll_cons_ok first] at making
        obtain ⟨filled, appended, moving⟩ := Step.exists_of_runAll_append making
        have touched := temporary.write (.refl _ _) created
        obtain ⟨directory, resolved, -, rfl⟩ := temporary.write_eq (.refl _ _) created
        have inner : directory ++ [Blob.temporaryName blobs.names.next.1] ≠ [] :=
          List.append_ne_nil_of_right_ne_nil _ (List.cons_ne_nil _ _)
        obtain ⟨touchedFilled, content, there, content_eq⟩ :=
          temporary.runAll_append touched resolved (Tree.lookup_put_self _ _ inner) appended
        refine ⟨filled, directory, content, touchedFilled, resolved, there, ?_, ?_⟩
        · rw [content_eq, Content.bytes_ofBytes, List.nil_append,
            Upload.flatten_delivery (by omega) complete]
        · cases renamed : filled.rename blobs.temporaryPath
              (blobs.targetPath scope parent index media) with
          | error error =>
              simp only [Step.runAll, Step.run, renamed] at moving
              cases moving
          | ok moved =>
              simp only [Step.runAll, Step.run, renamed] at moving
              rw [(Prod.mk.inj moving).2]
  · cases impossible

/-- The file at the path of a save that succeeds holds the bytes of the upload. -/
theorem exists_content_of_write : ∃ place content,
    after.tree.resolve (blobs.targetPath scope parent index media) =
        .ok (.entry place (.file content)) ∧
      content.bytes = upload.content.ahead := by
  have free := new.namesFree index
  have kept := (touches_write free scopeName parentName written).keeps
  obtain ⟨filled, directory, content, touched, resolved, there, bytes_eq, renamed⟩ :=
    exists_filled_of_write new written
  obtain ⟨old, into, other, oldLeads, leads, short, checked, otherThere, -, moved⟩ :=
    (owned_temporary free scope parent media).rename (owned_target free scopeName parentName media)
      touched renamed
  cases resolved.symm.trans oldLeads
  cases there.symm.trans otherThere
  have arrived : after.tree.lookup (into ++ [Blob.filename blobs.names.next.1 index media]) =
      some (.file content) := by
    rw [moved]
    exact Tree.lookup_put_self _ _ (List.append_ne_nil_of_right_ne_nil _ (List.cons_ne_nil _ _))
  exact ⟨_, content, Tree.resolve_file (List.cons_ne_nil _ _)
    (Tree.resolve_directory_of_keeps kept leads) Blob.entryName_filename.plain short checked
    arrived, bytes_eq⟩

/-- A save that succeeds changes no file that was there. -/
theorem lookup_file_of_write {place : Place} {content : Content}
    (there : blobs.tree.lookup place = some (.file content)) :
    after.tree.lookup place = some (.file content) := by
  have touched := touches_write (new.namesFree index) scopeName parentName written
  have grown := blobs.grows_ground scope parent
  rcases touched.lookup_eq place with same | ⟨own, -, -⟩
  · rcases grown.lookup_eq place with before | ⟨missing, -⟩
    · rw [same, before, there]
    · rw [missing] at there
      cases there
  · cases own with
    | temporary _ => cases new.temporary 0 _ _ there
    | target _ => cases new.target 0 index media _ _ there

/-- A name that no entry bears but directories is borne by no other entry after a save, if it is not
the one of the file. -/
theorem unborne_of_write {name : String} (unborne : blobs.tree.Unborne name)
    (differ : name ≠ Blob.filename blobs.names.next.1 index media) : after.tree.Unborne name := by
  intro place entry there
  have free := new.namesFree index
  have touched := touches_write free scopeName parentName written
  rcases touched.lookup_eq (place ++ [name]) with same | ⟨own, -, -⟩
  · rw [same] at there
    rcases (blobs.grows_ground scope parent).lookup_eq (place ++ [name]) with before | ⟨-, made⟩
    · exact unborne place entry (before ▸ there)
    · rw [made] at there
      exact (Option.some.inj there).symm
  · generalize place_eq : place ++ [name] = whole at own there
    cases own with
    | temporary leads =>
        obtain ⟨old, _, _, _, oldLeads, -, -, -, gone⟩ :=
          write_arrives free scopeName parentName written
        cases (Tree.resolve_directory_of_keeps touched.keeps leads).symm.trans oldLeads
        rw [gone] at there
        cases there
    | target leads =>
        obtain ⟨-, same⟩ := List.append_inj' place_eq rfl
        exact absurd (List.singleton_inj.mp same) differ

/-- After a save that succeeds the names to come are still new. -/
theorem newNames_of_write : after.NewNames := by
  have names_eq : after.names = blobs.names.next.2 := by
    rcases write_outcome written with ⟨_, impossible, -⟩ | ⟨_, -, -, names_eq, -⟩
    · cases impossible
    · exact names_eq
  have later (count : Nat) : blobs.names.next.1.micros < (after.names.coming count).micros := by
    rw [names_eq]
    have before := blobs.names.next.2.lastMicros_lt_coming count
    rwa [Blob.NameSource.lastMicros_next] at before
  constructor
  · intro count
    refine unborne_of_write new scopeName parentName written ?_ Blob.temporaryName_ne_filename
    rw [names_eq]
    exact new.temporary (count + 1)
  · intro count otherIndex otherMedia
    refine unborne_of_write new scopeName parentName written ?_ fun same => ?_
    · rw [names_eq]
      exact new.target (count + 1) otherIndex otherMedia
    · exact Nat.ne_of_gt (later count) (Blob.micros_eq_of_filename_eq same)

end Writing

/-! ## What can be read after saves -/

/-- What saves do to the files that can be read, given what they write and the keys for it. -/
structure Readable (blobs after : LocalBlobs) (written : List (Bytes × String)) : Prop where
  saved : ∀ file ∈ written, after.read? file.2 = some file.1
  kept : ∀ key bytes, blobs.read? key = some bytes → after.read? key = some bytes
  new : after.NewNames

theorem Readable.nil (new : blobs.NewNames) : Readable blobs blobs [] :=
  ⟨fun _ mem => absurd mem List.not_mem_nil, fun _ _ => id, new⟩

/-- What was written earlier can be read after later saves. -/
theorem Readable.append {middle : LocalBlobs} {earlier later : List (Bytes × String)}
    (first : Readable blobs middle earlier) (second : Readable middle after later) :
    Readable blobs after (earlier ++ later) where
  saved := List.forall_mem_append.mpr
    ⟨fun file mem => second.kept _ _ (first.saved file mem), second.saved⟩
  kept key bytes read := second.kept key bytes (first.kept key bytes read)
  new := second.new

/-- After a save that succeeds the file can be read under its key, and so can all files that could
be read before. -/
theorem readable_of_save (new : blobs.NewNames)
    (succeeded : blobs.save scope parent index upload = (.ok saved, after)) :
    Readable blobs after [(upload.content.ahead, saved.storageKey)] := by
  rcases save_cases succeeded with
    ⟨-, -, _, impossible⟩ | ⟨media, accepted, -, scopeValid, parentValid, result, written, outcome⟩
  · cases impossible
  · cases result with
    | error failure => cases outcome
    | ok blob =>
        cases outcome
        have scopeName := EntryName.of_segment scopeValid
        have parentName := EntryName.of_segment parentValid
        obtain ⟨root_eq, name_eq, key_eq, -⟩ := written_of_save accepted succeeded
        have kept := keeps_of_save (new.namesFree index) succeeded
        constructor
        · rw [List.forall_mem_singleton]
          obtain ⟨place, content, leads, bytes_eq⟩ :=
            exists_content_of_write new scopeName parentName written
          refine read?_eq_some_iff.mpr ⟨_, place, content, ?_, leads, bytes_eq⟩
          rw [key_eq, name_eq, nextName, resolve?_keyOf after scopeName parentName, directoryOf,
            rootPath, root_eq]
          rfl
        · intro other bytes read
          obtain ⟨path, place, content, resolved, leads, bytes_eq⟩ := read?_eq_some_iff.mp read
          refine read?_eq_some_iff.mpr ⟨path, place, content, ?_, ?_, bytes_eq⟩
          · rw [← resolved, resolve?, rootPath, root_eq]
            rfl
          · obtain ⟨checked, follows⟩ := Tree.lead_eq_ok_iff.mp leads
            have there := lookup_file_of_write new scopeName parentName written
              (Tree.lookup_file_of_follow follows)
            refine Tree.lead_eq_ok_iff.mpr ⟨checked, ?_⟩
            rw [kept.2.current_eq]
            exact Tree.follow_file_of_keeps kept.2 there follows
        · exact newNames_of_write new scopeName parentName written

end LocalBlobs

end ImageGallery
