import Mathlib
import ImageGallery.Blob.Local
import ImageGallery.Proofs.Run

/-!
# Calls that fail

A call that fails changes no record, no registration and no id to come. A deletion that fails
removes no file. An upload is checked before anything is written: the registry holds segments only,
and every file's format is looked at in advance, so saving a file fails for internal reasons only,
and an upload that fails for any other reason leaves the files as they were.
-/

namespace ImageGallery

/-! ## What is registered -/

/-- The ids of all registered parents and of their scopes can name directories. -/
def Registry.Valid (registry : Registry) : Prop :=
  ∀ record ∈ registry.records, Segment.isValid record.id ∧ Segment.isValid record.scopeId

theorem Registry.Valid.of_find? {registry : Registry} (valid : registry.Valid) {parent : String}
    {record : ParentRecord} (found : registry.find? parent = some record) :
    Segment.isValid record.id ∧ Segment.isValid record.scopeId :=
  valid record (List.mem_of_find?_eq_some found)

/-- Only segments are registered. -/
theorem Registry.Valid.register {registry after : Registry} (valid : registry.Valid)
    {parent scope now : String} {record : ParentRecord}
    (registered : registry.register parent scope now = .ok (record, after)) : after.Valid := by
  unfold Registry.register at registered
  cases parentChecked : Segment.check "parent" parent with
  | error refusal =>
      rw [parentChecked] at registered
      cases registered
  | ok =>
      cases scopeChecked : Segment.check "scope" scope with
      | error refusal =>
          rw [parentChecked, scopeChecked] at registered
          cases registered
      | ok =>
          rw [parentChecked, scopeChecked] at registered
          simp only [bind, Except.bind, pure, Except.pure] at registered
          split at registered
          · cases registered
            exact valid
          · cases registered
            intro record mem
            rcases List.mem_append.mp mem with old | new
            · exact valid record old
            · cases List.mem_singleton.mp new
              exact ⟨Segment.check_eq_ok_iff.mp parentChecked,
                Segment.check_eq_ok_iff.mp scopeChecked⟩

namespace Manager

section Valid

variable {σ τ ρ β : Type} [GalleryTx τ] [TxView τ] [LawfulTx τ] [GalleryStore σ τ] [ParentStore σ]
  [StoreView σ τ] [LawfulStore σ τ] [BlobStore β]

/-- Whatever a call does, the registry stays valid. -/
theorem valid_perform {manager : Manager σ β}
    (distinct : ∀ parent, ((StoreView.images manager.store parent).map (·.id)).Nodup)
    (valid : (ParentStore.registry manager.store).Valid) (call : Call) :
    (ParentStore.registry (manager.perform call).2.store).Valid := by
  rcases performed : manager.perform call with ⟨_ | answer, after⟩
  · rw [(store_of_perform_eq_error performed).1]
    exact valid
  · obtain ⟨effect, -⟩ := effect_of_perform_eq_ok distinct performed
    cases effect with
    | registered entered storeEq _ =>
        rw [storeEq, LawfulStore.registry_withRegistry]
        exact valid.register entered
    | stored _ _ stored =>
        rw [stored.published.registry_eq]
        exact valid
    | deleted deleted =>
        rw [deleted.published.registry_eq]
        exact valid
    | covered _ published _ =>
        rw [published.registry_eq]
        exact valid
    | ranked _ published _ =>
        rw [published.registry_eq]
        exact valid
    | listed same =>
        rw [same]
        exact valid

/-- In every run from an empty store the registry stays valid. -/
theorem valid_run [Refusing σ ρ] [LawfulRefusing σ τ ρ] {manager : Manager σ β}
    (ordered : GalleriesInOrder manager.options manager.store)
    (valid : (ParentStore.registry manager.store).Valid) (steps : List (Step ρ β)) :
    (ParentStore.registry (manager.run steps).store).Valid := by
  induction steps generalizing manager with
  | nil => exact valid
  | cons step steps ih =>
      apply ih (inOrder_step ordered step).1
      cases step with
      | call call => exact valid_perform (fun parent => (ordered parent).distinct) valid call
      | refuse refusals =>
          rw [Manager.step, LawfulRefusing.registry_refuse]
          exact valid
      | disturb change => exact valid

end Valid

end Manager

/-! ## Saving what was checked -/

/-- Saving a file of an accepted format below segments fails for internal reasons only. -/
class CheckedSaves (β : Type) [BlobStore β] : Prop where
  internal_of_save {blobs after : β} {scope parent : String} {index : Nat} {upload : Upload}
    {error : GalleryError} (accepted : upload.media.isOk) (scopeValid : Segment.isValid scope)
    (parentValid : Segment.isValid parent)
    (failed : BlobStore.save blobs scope parent index upload = (.error error, after)) :
    ∃ failure, error = .internal failure

instance : CheckedSaves LocalBlobs where
  internal_of_save := by
    intro blobs after scope parent index upload error accepted scopeValid parentValid failed
    change blobs.save scope parent index upload = _ at failed
    cases media : upload.media with
    | error refusal =>
        rw [media] at accepted
        cases accepted
    | ok format =>
        unfold LocalBlobs.save at failed
        rw [media, Segment.check_eq_ok_iff.mpr scopeValid,
          Segment.check_eq_ok_iff.mpr parentValid] at failed
        simp only [bind, Except.bind, pure, Except.pure] at failed
        split at failed
        · cases failed
        · cases failed
          exact ⟨_, rfl⟩

instance {β : Type} [BlobStore β] [CheckedSaves β] : CheckedSaves (Faulty β) where
  internal_of_save := by
    intro blobs after scope parent index upload error accepted scopeValid parentValid failed
    rcases Faulty.save_cases failed with ⟨refused, -⟩ | failed
    · cases refused
      exact ⟨_, rfl⟩
    · exact CheckedSaves.internal_of_save accepted scopeValid parentValid failed

/-! ## What a failed call leaves behind -/

namespace Manager

/-- What a call that fails leaves as it was: the metadata always, the files when the call is a
deletion, or an upload that is refused. -/
structure Unchanged {σ β : Type} (manager after : Manager σ β) (call : Call)
    (error : GalleryError) : Prop where
  /-- The records of all parents, the registry and the next id. -/
  store : after.store = manager.store
  delete : ∀ parent id, call = .delete parent id → after.blobs = manager.blobs
  upload : ∀ parent uploads, call = .upload parent uploads → error.code ≠ "InternalError" →
    after.blobs = manager.blobs

section Failing

variable {σ τ β : Type} [GalleryTx τ] [TxView τ] [LawfulTx τ] [GalleryStore σ τ] [ParentStore σ]
  [StoreView σ τ] [LawfulStore σ τ] [BlobStore β]

/-- An upload that is refused leaves the files as they were. -/
theorem blobs_of_receive_eq_error [CheckedSaves β] {manager after : Manager σ β}
    {parentId : String} {uploads : List Upload} {error : GalleryError}
    (valid : (ParentStore.registry manager.store).Valid)
    (failed : manager.receive parentId uploads = (.error error, after))
    (refused : error.code ≠ "InternalError") : after.blobs = manager.blobs := by
  obtain ⟨-, -, halted⟩ := receive_of_error failed
  generalize after.blobs = left at halted ⊢
  cases halted with
  | early => rfl
  | refused _ _ reason =>
      rw [reason] at refused
      exact absurd rfl refused
  | unsaved registered _ accepted unsaved =>
      obtain ⟨parentValid, scopeValid⟩ := valid.of_find? registered
      obtain ⟨failure, reason⟩ :=
        CheckedSaves.internal_of_save accepted scopeValid parentValid unsaved
      rw [reason] at refused
      exact absurd rfl refused

theorem unchanged_of_perform_eq_error [CheckedSaves β] {manager after : Manager σ β} {call : Call}
    {error : GalleryError} (valid : (ParentStore.registry manager.store).Valid)
    (failed : manager.perform call = (.error error, after)) :
    Unchanged manager after call error where
  store := (store_of_perform_eq_error failed).1
  delete := by
    rintro parent id rfl
    obtain ⟨middle, withdrawn, -, blobsEq, -⟩ := record_eq (answerAs_eq_error failed)
    rw [blobsEq, withdraw_of_error withdrawn]
  upload := by
    rintro parent uploads rfl refused
    obtain ⟨middle, received, -, blobsEq, -⟩ := record_eq (answerAs_eq_error failed)
    rw [blobsEq, blobs_of_receive_eq_error valid received refused]

end Failing

/-- A gallery without images, with its files below a directory that does not exist. -/
def oneParent : Manager MemoryStore (Faulty LocalBlobs) :=
  (inMemory {}
    { inner :=
        { root := "/gallery", chunkSize := 4, tree := {}, names := { draws := fun _ => default } } }
    { reading := fun _ => 0 }).run [.call (.register "p" "s")]

/-- The first file is of an accepted format, the second one is not. -/
def mixedUpload : Call :=
  .upload "p" [.ofHeld "a.png" none [1], .ofHeld "b.txt" none [2]]

end Manager

end ImageGallery
