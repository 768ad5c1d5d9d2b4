import ImageGallery.Proofs.History
import ImageGallery.Proofs.SavedFiles

/-!
# Files outlive records

A file may stay behind without a record, but no record is ever without its file. A file is saved
before its record is inserted, and removed only after its record is gone for good; its name is new,
so it takes the place of no other file; and no other record has its key, so it is not removed
together with another image. What stays behind without a record are files of uploads that failed.
-/

namespace ImageGallery

open Disk

variable {σ τ ρ : Type} {base : Place} {files : List (Place × Bytes)}

/-! ## Steps that leave the files to the store -/

/-- What is done to the files between calls. -/
inductive Upkeep where
  | sweep
  /-- From now on saves fail after the given number of them. -/
  | failSaves (failAfter : Option Nat)

/-- Do what is to be done to the files. -/
def Upkeep.apply : Upkeep → Faulty LocalBlobs → Faulty LocalBlobs
  | .sweep, blobs => { blobs with inner := blobs.inner.sweep.2 }
  | .failSaves failAfter, blobs => { blobs with failAfter }

/-- One step of a run in which nobody else changes the files. -/
inductive OwnStep (ρ : Type) where
  | call (call : Call)
  | refuse (refusals : ρ)
  | upkeep (upkeep : Upkeep)

/-- The step of a run in which anything may happen to the files. -/
def OwnStep.toStep : OwnStep ρ → Step ρ (Faulty LocalBlobs)
  | .call operation => .call operation
  | .refuse refusals => .refuse refusals
  | .upkeep work => .disturb work.apply

/-! ## Files left behind -/

/-- The call was an upload that failed, and it left a file behind that was not there before. -/
def Event.LeavesBehind (event : Event σ (Faulty LocalBlobs)) (place : Place) (bytes : Bytes) :
    Prop :=
  (∃ parent uploads, event.call = .upload parent uploads) ∧
    (∃ error, event.answer = .error error) ∧
    (∀ old, ¬ event.before.blobs.inner.HasFile place old) ∧
    event.after.blobs.inner.HasFile place bytes

/-- Files that came in with an upload that failed are left behind by it. -/
theorem leavesBehind_of_failed {manager after : Manager σ (Faulty LocalBlobs)} {parent : String}
    {uploads : List Upload} {error : GalleryError} {new : List (Place × Bytes)}
    (holds : manager.blobs.inner.Holds base files)
    (left : after.blobs.inner.Holds base (new ++ files)) {file : Place × Bytes} (mem : file ∈ new) :
    Event.LeavesBehind ⟨manager, .upload parent uploads, .error error, after⟩ (base ++ file.1)
      file.2 := by
  have listed : file ∈ new ++ files := List.mem_append_left _ mem
  have some_names := left.some_names listed
  refine ⟨⟨_, _, rfl⟩, ⟨_, rfl⟩, ?_, (left.hasFile_iff some_names).mpr listed⟩
  intro old there
  have listedBefore : (file.1, old) ∈ files := (holds.hasFile_iff some_names).mp there
  have apart := left.region.distinct
  rw [List.map_append, List.nodup_append] at apart
  exact apart.2.2 file.1 (List.mem_map_of_mem mem) file.1
    (List.mem_map.mpr ⟨_, listedBefore, rfl⟩) rfl

namespace Manager

section Durable

variable [StoreView σ τ]

/-! ## The invariant -/

/-- Every image has its own file, with the bytes that it was created from, and the other files were
left behind by uploads that failed. -/
structure Durable (base : Place) (history : List (Event σ (Faulty LocalBlobs)))
    (manager : Manager σ (Faulty LocalBlobs)) (files : List (Place × Bytes)) : Prop where
  ordered : GalleriesInOrder manager.options manager.store
  holds : manager.blobs.inner.Holds base files
  recorded : Recorded history (StoreView.lastId manager.store)
  backed : ∀ holding, Held manager.store holding → LocalBlobs.Keyed holding.key ∧
    ∃ bytes, (Path.split holding.key, bytes) ∈ files ∧
      Created history holding.parent holding.id bytes
  unshared : ∀ first second, Held manager.store first → Held manager.store second →
    Path.split first.key = Path.split second.key → first = second
  owned : ∀ file ∈ files,
    (∃ holding, Held manager.store holding ∧ Path.split holding.key = file.1) ∨
      ∃ event ∈ history, event.LeavesBehind (base ++ file.1) file.2
  removed : ∀ event ∈ history, ∀ outcome, event.answer = .ok (.deleted outcome) →
    outcome.blobRemoved

variable {manager after : Manager σ (Faulty LocalBlobs)}
  {past present : List (Event σ (Faulty LocalBlobs))}

/-- Events that answer no records and no outcome of a deletion, and that leave holdings and ids as
they are, keep the invariant. They may leave files behind. -/
theorem Durable.idle {kept : List (Place × Bytes)} (durable : Durable base past manager files)
    (ordered : GalleriesInOrder after.options after.store)
    (holds : after.blobs.inner.Holds base kept)
    (same : ∀ holding, Held after.store holding ↔ Held manager.store holding)
    (sameLast : StoreView.lastId after.store = StoreView.lastId manager.store)
    (idle : ∀ event ∈ present, event.isIdle)
    (old : ∀ file ∈ files, file ∈ kept)
    (new : ∀ file ∈ kept, file ∈ files ∨
      ∃ event ∈ present, event.LeavesBehind (base ++ file.1) file.2) :
    Durable base (past ++ present) after kept := by
  exact {
    ordered, holds
    recorded := by
      rw [sameLast]
      exact durable.recorded.append fun _ _ _ => created_append_of_isIdle idle
    backed := by
      intro holding held
      obtain ⟨keyed, bytes, mem, creation⟩ := durable.backed holding ((same holding).mp held)
      exact ⟨keyed, bytes, old _ mem, (created_append_of_isIdle idle).mpr creation⟩
    unshared := by
      intro first second firstHeld secondHeld
      exact durable.unshared first second ((same first).mp firstHeld) ((same second).mp secondHeld)
    owned := by
      intro file mem
      rcases new file mem with mem | ⟨event, eventMem, left⟩
      · rcases durable.owned file mem with ⟨holding, held, named⟩ | ⟨event, eventMem, left⟩
        · exact .inl ⟨holding, (same holding).mpr held, named⟩
        · exact .inr ⟨event, List.mem_append_left _ eventMem, left⟩
      · exact .inr ⟨event, List.mem_append_right _ eventMem, left⟩
    removed := by
      intro event mem outcome answered
      rcases List.mem_append.mp mem with mem | mem
      · exact durable.removed event mem outcome answered
      · exact absurd answered (Event.answer_ne_deleted_of_isIdle (idle event mem) outcome) }

/-- An event that leaves files, holdings and ids as they are keeps the invariant. -/
theorem Durable.unmoved {call : Call} {answer : Except GalleryError Answer}
    (durable : Durable base past manager files)
    (ordered : GalleriesInOrder after.options after.store) (blobs_eq : after.blobs = manager.blobs)
    (same : ∀ holding, Held after.store holding ↔ Held manager.store holding)
    (sameLast : StoreView.lastId after.store = StoreView.lastId manager.store)
    (idle : Event.isIdle ⟨manager, call, answer, after⟩) :
    Durable base (past ++ [⟨manager, call, answer, after⟩]) after files := by
  refine durable.idle ordered (blobs_eq ▸ durable.holds) same sameLast ?_ (fun _ mem => mem)
    (fun _ mem => .inl mem)
  intro event mem
  rw [List.mem_singleton.mp mem]
  exact idle

/-! ## Deletions -/

variable [ParentStore σ]

/-- The file of an image that is deleted is removed, and no other file is. -/
theorem Deleted.holds {parent : String} {target : ImageRecord} {outcome : DeleteOutcome}
    (deleted : Deleted manager after parent target outcome)
    (holds : manager.blobs.inner.Holds base files) (keyed : LocalBlobs.Keyed target.storageKey)
    {bytes : Bytes} (mem : (Path.split target.storageKey, bytes) ∈ files) :
    outcome.blobRemoved = true ∧ after.blobs.inner.Holds base
      (files.filter fun file => file.1 ≠ Path.split target.storageKey) := by
  obtain ⟨left, deleting, held⟩ := holds.delete_key keyed mem
  have removed : (outcome.blobRemoved, after.blobs) =
      (true, { manager.blobs with inner := left }) := by
    rw [deleted.removed]
    change (let (removed, inner) := manager.blobs.inner.delete target.storageKey
      (removed, { manager.blobs with inner })) = _
    rw [deleting]
  obtain ⟨gone, blobsEq⟩ := Prod.mk.inj removed
  rw [blobsEq]
  exact ⟨gone, held⟩

/-- A deletion that succeeds keeps the invariant. -/
theorem Durable.deleted {parent : String} {target : ImageRecord} {outcome : DeleteOutcome}
    (durable : Durable base past manager files)
    (ordered : GalleriesInOrder after.options after.store)
    (deleted : Deleted manager after parent target outcome) :
    ∃ kept, Durable base
      (past ++ [⟨manager, .delete parent target.id, .ok (.deleted outcome), after⟩]) after
      kept := by
  have targetHeld : Held manager.store ⟨parent, target.id, target.storageKey⟩ :=
    mem_holdings_iff.mpr ⟨target, deleted.mem, rfl⟩
  obtain ⟨keyed, bytes, fileMem, -⟩ := durable.backed _ targetHeld
  obtain ⟨gone, holds⟩ := deleted.holds durable.holds keyed fileMem
  have heldIff {holding : Holding} : Held after.store holding ↔ _ :=
    deleted.held_iff (durable.ordered parent).distinct
  refine ⟨_, {
    ordered, holds
    recorded := ?_
    backed := ?_
    unshared := ?_
    owned := ?_
    removed := ?_ }⟩
  · rw [deleted.published.lastId_eq]
    exact durable.recorded.append fun _ _ _ => created_append_deletion
  · intro holding held
    obtain ⟨before, differs⟩ := heldIff.mp held
    obtain ⟨keyed, bytes, mem, creation⟩ := durable.backed holding before
    refine ⟨keyed, bytes, List.mem_filter.mpr ⟨mem, decide_eq_true fun same => ?_⟩,
      created_append_deletion.mpr creation⟩
    exact differs (durable.unshared _ _ before targetHeld same)
  · intro first second firstHeld secondHeld
    exact durable.unshared first second (heldIff.mp firstHeld).1 (heldIff.mp secondHeld).1
  · intro file mem
    obtain ⟨before, differs⟩ := List.mem_filter.mp mem
    rcases durable.owned file before with ⟨holding, held, same⟩ | ⟨event, eventMem, left⟩
    · refine .inl ⟨holding, heldIff.mpr ⟨held, ?_⟩, same⟩
      rintro rfl
      exact of_decide_eq_true differs same.symm
    · exact .inr ⟨event, List.mem_append_left _ eventMem, left⟩
  · intro event mem other answered
    rcases List.mem_append.mp mem with old | new
    · exact durable.removed event old other answered
    · rw [List.mem_singleton.mp new] at answered
      cases answered
      exact gone

/-! ## Uploads -/

variable [GalleryTx τ] [GalleryStore σ τ]

section Stored

variable {parent : ParentRecord} {uploads taken : List Upload} {saved : List SavedBlob}
  {records : List ImageRecord} {order : UInt32}

/-- The files of an upload that succeeds come in, each under the key of its record. -/
theorem Stored.holds (stored : Stored manager after parent taken saved records order)
    (holds : manager.blobs.inner.Holds base files) :
    after.blobs.inner.Holds base
        ((savedFiles taken (records.map (·.storageKey))).reverse ++ files) ∧
      ∀ record ∈ records, LocalBlobs.Keyed record.storageKey := by
  obtain ⟨left, keyed⟩ := holds.saves stored.saves
  have keys : records.map (·.storageKey) = saved.map (·.storageKey) := by
    rw [stored.records_eq, map_storageKey_recordsOf]
  rw [keys]
  refine ⟨left, fun record mem => ?_⟩
  have listed : record.storageKey ∈ records.map (·.storageKey) := List.mem_map_of_mem mem
  rw [keys] at listed
  obtain ⟨blob, blobMem, same⟩ := List.mem_map.mp listed
  rw [← same]
  exact keyed blob blobMem

/-- The keys of new records stand for paths that no other image has. -/
theorem Stored.separate (stored : Stored manager after parent taken saved records order)
    (holds : manager.blobs.inner.Holds base files) :
    (records.map fun record => Path.split record.storageKey).Nodup ∧
      ∀ record ∈ records, Path.split record.storageKey ∉ files.map (·.1) := by
  have fitting : (records.map (·.storageKey)).length = taken.length := by
    rw [List.length_map, stored.length_eq]
  have names : (savedFiles taken (records.map (·.storageKey))).map (·.1) =
      records.map fun record => Path.split record.storageKey := by
    rw [map_fst_savedFiles fitting, List.map_map]
    rfl
  have apart := (stored.holds holds).1.region.distinct
  rw [List.map_append, List.map_reverse, names, List.nodup_append, List.nodup_reverse] at apart
  obtain ⟨fresh, -, separate⟩ := apart
  refine ⟨fresh, fun record mem listed => ?_⟩
  exact separate _ (List.mem_reverse.mpr (List.mem_map_of_mem mem)) _ listed rfl

end Stored

/-- An upload that succeeds keeps the invariant. -/
theorem Durable.stored {parent : ParentRecord} {uploads taken : List Upload}
    {saved : List SavedBlob} {records : List ImageRecord} {order : UInt32}
    (durable : Durable base past manager files)
    (ordered : GalleriesInOrder after.options after.store) (leading : taken <+: uploads)
    (stored : Stored manager after parent taken saved records order) :
    ∃ kept, Durable base
      (past ++ [⟨manager, .upload parent.id uploads, .ok (.stored records), after⟩]) after
      kept := by
  obtain ⟨holds, keyed⟩ := stored.holds durable.holds
  obtain ⟨fresh, separate⟩ := stored.separate durable.holds
  have named {holding : Holding} (new : holding ∈ holdings parent.id records) :
      Path.split holding.key ∉ files.map (·.1) := by
    obtain ⟨record, mem, rfl⟩ := mem_holdings_iff.mp new
    exact separate record mem
  have backedBefore {holding : Holding} (held : Held manager.store holding) :
      Path.split holding.key ∈ files.map (·.1) := by
    obtain ⟨-, bytes, mem, -⟩ := durable.backed holding held
    exact List.mem_map.mpr ⟨_, mem, rfl⟩
  refine ⟨_, {
    ordered, holds
    recorded := Recorded.stored durable.recorded stored leading
    backed := ?_
    unshared := ?_
    owned := ?_
    removed := ?_ }⟩
  · intro holding held
    rcases stored.held_iff.mp held with old | new
    · obtain ⟨keyed, bytes, mem, creation⟩ := durable.backed holding old
      exact ⟨keyed, bytes, List.mem_append_right _ mem,
        (stored.created_iff leading).mpr (.inl creation)⟩
    · obtain ⟨record, mem, rfl⟩ := mem_holdings_iff.mp new
      obtain ⟨upload, pairMem⟩ := stored.exists_pair mem
      exact ⟨keyed record mem, upload.content.ahead,
        List.mem_append_left _ (List.mem_reverse.mpr (mem_savedFiles pairMem)),
        (stored.created_iff leading).mpr (.inr ⟨rfl, _, pairMem, rfl, rfl⟩)⟩
  · -- An old key has a file already, and the keys of the upload are new and differ.
    intro first second firstHeld secondHeld same
    rcases stored.held_iff.mp firstHeld with firstOld | firstNew
    · rcases stored.held_iff.mp secondHeld with secondOld | secondNew
      · exact durable.unshared first second firstOld secondOld same
      · exact absurd (same ▸ backedBefore firstOld) (named secondNew)
    · rcases stored.held_iff.mp secondHeld with secondOld | secondNew
      · exact absurd (same ▸ backedBefore secondOld) (named firstNew)
      · obtain ⟨firstRecord, firstMem, rfl⟩ := mem_holdings_iff.mp firstNew
        obtain ⟨secondRecord, secondMem, rfl⟩ := mem_holdings_iff.mp secondNew
        rw [List.inj_on_of_nodup_map fresh firstMem secondMem same]
  · intro file mem
    rcases List.mem_append.mp mem with new | old
    · obtain ⟨key, keyMem, same⟩ := exists_key_of_mem_savedFiles (List.mem_reverse.mp new)
      obtain ⟨record, recordMem, rfl⟩ := List.mem_map.mp keyMem
      exact .inl ⟨_, stored.held_iff.mpr (.inr (mem_holdings_iff.mpr ⟨record, recordMem, rfl⟩)),
        same⟩
    · rcases durable.owned file old with ⟨holding, held, same⟩ | ⟨event, eventMem, left⟩
      · exact .inl ⟨holding, stored.held_iff.mpr (.inl held), same⟩
      · exact .inr ⟨event, List.mem_append_left _ eventMem, left⟩
  · intro event mem outcome answered
    rcases List.mem_append.mp mem with old | new
    · exact durable.removed event old outcome answered
    · rw [List.mem_singleton.mp new] at answered
      cases answered

/-! ## Runs -/

variable [TxView τ] [LawfulTx τ] [LawfulStore σ τ]

/-- A call that fails keeps the invariant. An upload may have saved files before it failed, and no
record names them. -/
theorem Durable.failed {call : Call} {error : GalleryError}
    (durable : Durable base past manager files)
    (ordered : GalleriesInOrder after.options after.store)
    (failed : manager.perform call = (.error error, after)) :
    ∃ kept, Durable base (past ++ [⟨manager, call, .error error, after⟩]) after kept := by
  have sameStore := (store_of_perform_eq_error failed).1
  have sameHeld (holding : Holding) : Held after.store holding ↔ Held manager.store holding := by
    rw [sameStore]
  have sameLast : StoreView.lastId after.store = StoreView.lastId manager.store := by
    rw [sameStore]
  rcases blobs_of_perform_eq_error failed with blobsEq | ⟨parent, uploads, rfl, halted⟩
  · exact ⟨files, durable.unmoved ordered blobsEq sameHeld sameLast rfl⟩
  · obtain ⟨new, left⟩ := halted.holds durable.holds
    refine ⟨new ++ files, durable.idle ordered left sameHeld sameLast ?_
      (fun file mem => List.mem_append_right _ mem) ?_⟩
    · intro event mem
      rw [List.mem_singleton.mp mem]
      rfl
    · intro file mem
      rcases List.mem_append.mp mem with new | old
      · exact .inr ⟨_, List.mem_singleton_self _, leavesBehind_of_failed durable.holds left new⟩
      · exact .inl old

/-- Every call keeps the invariant. -/
theorem Durable.call (durable : Durable base past manager files) (call : Call) :
    ∃ kept, Durable base (past ++ [manager.event call]) (manager.perform call).2 kept := by
  obtain ⟨ordered, sameOptions⟩ := inOrder_perform durable.ordered call
  rw [← sameOptions] at ordered
  rcases performed : manager.perform call with ⟨error | answer, after⟩
  · rw [performed] at ordered
    rw [event_eq performed]
    exact durable.failed ordered performed
  · rw [performed] at ordered
    obtain ⟨effect, -⟩ :=
      effect_of_perform_eq_ok (fun parent => (durable.ordered parent).distinct) performed
    rw [event_eq performed]
    cases effect with
    | registered _ storeEq blobsEq =>
        refine ⟨files, durable.unmoved ordered blobsEq ?_ ?_ ?_⟩
        · intro holding
          rw [storeEq, Held, LawfulStore.images_withRegistry, Held]
        · rw [storeEq, LawfulStore.lastId_withRegistry]
        · rfl
    | stored leading _ stored => exact durable.stored ordered leading stored
    | deleted deleted => exact durable.deleted ordered deleted
    | covered _ published blobsEq =>
        refine ⟨files, durable.unmoved ordered blobsEq ?_ published.lastId_eq ?_⟩
        · exact fun holding => published.held_iff_of_holdings_eq holdings_withCover
        · rfl
    | ranked _ published blobsEq =>
        refine ⟨files, durable.unmoved ordered blobsEq ?_ published.lastId_eq ?_⟩
        · exact fun holding => published.held_iff_of_holdings_eq holdings_settle
        · rfl
    | listed same =>
        refine ⟨files, durable.unmoved ordered (by rw [same]) ?_ (by rw [same]) ?_⟩
        · intro holding
          rw [same]
        · rfl

variable [Refusing σ ρ] [LawfulRefusing σ τ ρ]

/-- Every step keeps the invariant. -/
theorem Durable.step (durable : Durable base past manager files) (step : OwnStep ρ) :
    ∃ kept, Durable base (past ++ manager.events step.toStep) (manager.step step.toStep) kept := by
  have ordered := (inOrder_step durable.ordered step.toStep).1
  have nothing : ∀ event ∈ ([] : List (Event σ (Faulty LocalBlobs))), event.isIdle :=
    fun _ mem => absurd mem List.not_mem_nil
  cases step with
  | call operation => exact durable.call operation
  | refuse refusals =>
      refine ⟨files, durable.idle ordered durable.holds ?_ ?_ nothing (fun _ mem => mem)
        (fun _ mem => .inl mem)⟩
      · intro holding
        rw [OwnStep.toStep, Manager.step, Held, LawfulRefusing.images_refuse, Held]
      · rw [OwnStep.toStep, Manager.step, LawfulRefusing.lastId_refuse]
  | upkeep work =>
      refine ⟨files, durable.idle ordered ?_ (fun _ => Iff.rfl) rfl nothing (fun _ mem => mem)
        (fun _ mem => .inl mem)⟩
      cases work with
      | sweep =>
          change LocalBlobs.Holds base manager.blobs.inner.sweep.2 files
          rw [durable.holds.sweep_eq]
          exact durable.holds
      | failSaves failAfter => exact durable.holds

/-- Every run keeps the invariant. -/
theorem Durable.run (durable : Durable base past manager files) (steps : List (OwnStep ρ)) :
    ∃ kept, Durable base (past ++ manager.history (steps.map OwnStep.toStep))
      (manager.run (steps.map OwnStep.toStep)) kept := by
  induction steps generalizing past manager files with
  | nil =>
      rw [List.map_nil, history, List.append_nil]
      exact ⟨files, durable⟩
  | cons step steps ih =>
      obtain ⟨kept, durableNext⟩ := durable.step step
      rw [List.map_cons, history, ← List.append_assoc]
      exact ih durableNext

end Durable

/-! ## What a run leaves -/

/-- What can be said of the files and records of a store after a run, from outside: the root stands
where it stood, every image that is listed has its file with the bytes it was created from, every
other file below the root was left behind by an upload that failed, and every deletion removed a
file. -/
structure Intact [GalleryTx τ] [GalleryStore σ τ] (base : Place)
    (history : List (Event σ (Faulty LocalBlobs))) (manager : Manager σ (Faulty LocalBlobs)) :
    Prop where
  rooted : manager.blobs.inner.tree.canonical? manager.blobs.inner.rootPath = some base
  backed : ∀ parent, ∀ image ∈ GalleryStore.listImages manager.store parent,
    BlobStore.contains manager.blobs image.storageKey = true ∧
      (∃ bytes, Created history parent image.id bytes) ∧
      ∀ bytes, Created history parent image.id bytes →
        ∃ path, manager.blobs.inner.resolve? image.storageKey = some path ∧
          manager.blobs.inner.tree.read path = .ok bytes
  owned : ∀ below bytes, below ≠ [] → manager.blobs.inner.HasFile (base ++ below) bytes →
    (∃ parent, ∃ image ∈ GalleryStore.listImages manager.store parent, ∃ path,
      manager.blobs.inner.resolve? image.storageKey = some path ∧
        manager.blobs.inner.tree.canonical? path = some (base ++ below)) ∨
      ∃ event ∈ history, event.LeavesBehind (base ++ below) bytes
  removed : ∀ event ∈ history, ∀ outcome, event.answer = .ok (.deleted outcome) →
    outcome.blobRemoved = true

section Intact

variable [GalleryTx τ] [TxView τ] [GalleryStore σ τ] [ParentStore σ] [StoreView σ τ]
  [LawfulStore σ τ]

theorem held_of_mem_listImages {store : σ} {parent : String} {image : ImageRecord}
    (mem : image ∈ GalleryStore.listImages store parent) :
    Held store ⟨parent, image.id, image.storageKey⟩ := by
  rw [LawfulStore.listImages_eq, (arrange_perm _).mem_iff] at mem
  exact mem_holdings_iff.mpr ⟨image, mem, rfl⟩

theorem exists_image_of_held {store : σ} {holding : Holding} (held : Held store holding) :
    ∃ image ∈ GalleryStore.listImages store holding.parent, image.storageKey = holding.key := by
  obtain ⟨image, mem, same⟩ := mem_holdings_iff.mp held
  refine ⟨image, ?_, (congrArg Holding.key same).symm⟩
  rw [LawfulStore.listImages_eq, (arrange_perm _).mem_iff]
  exact mem

theorem Durable.intact {history : List (Event σ (Faulty LocalBlobs))}
    {manager : Manager σ (Faulty LocalBlobs)} (durable : Durable base history manager files) :
    Intact base history manager where
  rooted := durable.holds.canonical?_root
  backed := by
    intro parent image mem
    obtain ⟨keyed, bytes, fileMem, creation⟩ := durable.backed _ (held_of_mem_listImages mem)
    refine ⟨durable.holds.contains_key keyed fileMem, ⟨bytes, creation⟩, ?_⟩
    intro other otherCreation
    obtain ⟨path, content, resolved, same, leads⟩ := durable.holds.resolve_key keyed fileMem
    refine ⟨path, resolved, ?_⟩
    rw [Tree.read, leads, ← durable.recorded.unique _ _ _ _ _ creation otherCreation, ← same]
  owned := by
    intro below bytes some_below there
    have fileMem := (durable.holds.hasFile_iff some_below).mp there
    rcases durable.owned _ fileMem with ⟨holding, held, named⟩ | left
    · obtain ⟨image, mem, sameKey⟩ := exists_image_of_held held
      obtain ⟨keyed, -⟩ := durable.backed holding held
      dsimp only at named
      rw [← named] at fileMem
      obtain ⟨path, content, resolved, -, leads⟩ := durable.holds.resolve_key keyed fileMem
      refine .inl ⟨holding.parent, image, mem, path, sameKey ▸ resolved, ?_⟩
      rw [Tree.canonical?, leads, named]
    · exact .inr left
  removed := durable.removed

end Intact

/-- A run from a store without images and a root without files leaves everything intact. -/
theorem intact_run [GalleryTx τ] [TxView τ] [LawfulTx τ] [GalleryStore σ τ] [ParentStore σ]
    [StoreView σ τ] [LawfulStore σ τ] [Refusing σ ρ] [LawfulRefusing σ τ ρ]
    (manager : Manager σ (Faulty LocalBlobs))
    (empty : ∀ parent, StoreView.images manager.store parent = [])
    (fresh : manager.blobs.inner.Fresh base) (steps : List (OwnStep ρ)) :
    Intact base (manager.history (steps.map OwnStep.toStep))
      (manager.run (steps.map OwnStep.toStep)) := by
  have unheld {holding : Holding} : ¬ Held manager.store holding := by
    rw [Held, empty]
    exact List.not_mem_nil
  have start : Durable base [] manager [] := {
    ordered := fun parent => empty parent ▸ InOrder.empty _ _
    holds := fresh.holds
    recorded := .nil
    backed := fun _ held => absurd held unheld
    unshared := fun _ _ held => absurd held unheld
    owned := fun _ mem => absurd mem List.not_mem_nil
    removed := fun _ mem => absurd mem List.not_mem_nil }
  obtain ⟨kept, durable⟩ := start.run steps
  exact durable.intact

/-- No image ever loses its file, in memory and in a database, in any run from an empty store and an
empty root that nobody else writes to: whatever is called in whatever order, and whichever saves,
reads and calls of the stores fail. -/
theorem intact_of_fresh (options : GalleryOptions) (blobs : Faulty LocalBlobs) (clock : Clock)
    (base : Place) (fresh : blobs.inner.Fresh base) :
    (∀ steps : List (OwnStep Bool),
      Intact base ((inMemory options blobs clock).history (steps.map OwnStep.toStep))
        ((inMemory options blobs clock).run (steps.map OwnStep.toStep))) ∧
    ∀ (refusals : Refusals) (steps : List (OwnStep Refusals)),
      Intact base ((inDatabase refusals options blobs clock).history (steps.map OwnStep.toStep))
        ((inDatabase refusals options blobs clock).run (steps.map OwnStep.toStep)) := by
  constructor
  · intro steps
    exact intact_run (inMemory options blobs clock) (fun _ => rfl) fresh steps
  · intro refusals steps
    exact intact_run (inDatabase refusals options blobs clock) (fun _ => rfl) fresh steps

/-- A directory with nothing in it but a directory for temporary files. -/
def emptyDirectory : Faulty LocalBlobs :=
  { inner :=
      { root := "/gallery"
        chunkSize := 4
        tree := { entries := [(["gallery"], .directory), (["gallery", ".tmp"], .directory)] }
        names := { draws := fun _ => default } } }

theorem fresh_emptyDirectory : emptyDirectory.inner.Fresh ["gallery"] where
  rooted := by
    have names : Path.names ⟨"/gallery", []⟩ = ["gallery"] := by
      simp [Path.names, Path.split, Text.fields]
    change Tree.lead _ _ _ (Path.names ⟨"/gallery", []⟩) = _
    rw [names, Tree.lead_eq_ok_iff]
    constructor
    · change Tree.checkPath "/gallery" = _
      rw [Tree.checkPath, if_neg (by decide), if_neg (by decide), if_neg (by decide)]
    · have plain : Tree.Plain "gallery" := ⟨by decide, by decide, by decide⟩
      have absolute : Path.isAbsolute emptyDirectory.inner.rootPath.base := by
        change Path.isAbsolute "/gallery"
        simp [Path.isAbsolute]
      have there : emptyDirectory.inner.tree.lookup ["gallery"] = some .directory := rfl
      rw [if_pos absolute, Tree.follow_plain plain (by decide) (by simp), List.nil_append, there]
      dsimp only
      rw [Tree.follow]
  empty := by
    intro below entry some_below there
    have entries : emptyDirectory.inner.tree.entries =
      [(["gallery"], .directory), (["gallery", ".tmp"], .directory)] := rfl
    rw [List.singleton_append, Tree.lookup, if_neg (List.cons_ne_nil _ _), entries] at there
    by_cases temporary : below = [".tmp"]
    · subst temporary
      cases there
      exact ⟨rfl, rfl⟩
    · rw [List.find?_cons_of_neg, List.find?_cons_of_neg] at there
      · cases there
      · simpa using Ne.symm temporary
      · simpa using Ne.symm some_below

/-- Two images are uploaded, the first one is deleted, and after that an upload breaks off behind
its first file. -/
def brokenUpload : List (OwnStep Bool) :=
  [ .call (.register "p" "s"),
    .call (.upload "p" [.ofHeld "a.png" none [1, 2, 3, 4, 5], .ofHeld "b.png" none [6]]),
    .call (.delete "p" 1),
    .upkeep (.failSaves (some 1)),
    .call (.upload "p" [.ofHeld "c.png" none [7], .ofHeld "d.png" none [8]]),
    .upkeep .sweep ]

theorem intact_brokenUpload :
    emptyDirectory.inner.Fresh ["gallery"] ∧
      Intact ["gallery"]
        ((inMemory {} emptyDirectory { reading := fun _ => 0 }).history
          (brokenUpload.map OwnStep.toStep))
        ((inMemory {} emptyDirectory { reading := fun _ => 0 }).run
          (brokenUpload.map OwnStep.toStep)) := by
  exact ⟨fresh_emptyDirectory, (intact_of_fresh {} emptyDirectory { reading := fun _ => 0 }
    ["gallery"] fresh_emptyDirectory).1 brokenUpload⟩

end Manager

end ImageGallery
