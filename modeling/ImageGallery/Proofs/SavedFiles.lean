import ImageGallery.Proofs.Effects
import ImageGallery.Proofs.LocalFiles

/-!
# The files of an upload

The files of an upload are saved one after the other, each as a new file below the root. An upload
that fails may stop anywhere, and leaves the files in place that were saved before.
-/

namespace ImageGallery

open Disk

variable {base : Place} {files : List (Place × Bytes)}

/-! ## Saving -/

/-- The files of uploads that were saved under the given keys. -/
def savedFiles (uploads : List Upload) (keys : List String) : List (Place × Bytes) :=
  (uploads.zip keys).map fun pair => (Path.split pair.2, pair.1.content.ahead)

theorem map_fst_savedFiles {uploads : List Upload} {keys : List String}
    (fitting : keys.length = uploads.length) :
    (savedFiles uploads keys).map (·.1) = keys.map Path.split := by
  have second : (uploads.zip keys).map Prod.snd = keys := List.map_snd_zip (Nat.le_of_eq fitting)
  conv_rhs => rw [← second]
  rw [savedFiles, List.map_map, List.map_map]
  rfl

theorem mem_savedFiles {uploads : List Upload} {records : List ImageRecord} {upload : Upload}
    {record : ImageRecord} (mem : (upload, record) ∈ uploads.zip records) :
    (Path.split record.storageKey, upload.content.ahead) ∈
      savedFiles uploads (records.map (·.storageKey)) := by
  rw [savedFiles, List.zip_map_right, List.map_map]
  exact List.mem_map.mpr ⟨_, mem, rfl⟩

theorem exists_key_of_mem_savedFiles {uploads : List Upload} {keys : List String}
    {file : Place × Bytes} (mem : file ∈ savedFiles uploads keys) :
    ∃ key ∈ keys, Path.split key = file.1 := by
  obtain ⟨⟨upload, key⟩, pairMem, rfl⟩ := List.mem_map.mp mem
  exact ⟨key, (List.of_mem_zip pairMem).2, rfl⟩

namespace LocalBlobs

/-- Saving that fails leaves the files as they were. -/
theorem Holds.save_of_error {blobs after : Faulty LocalBlobs} {scope parent : String} {index : Nat}
    {upload : Upload} {error : GalleryError} (holds : blobs.inner.Holds base files)
    (failed : BlobStore.save blobs scope parent index upload = (.error error, after)) :
    after.inner.Holds base files := by
  rcases Faulty.save_cases failed with ⟨-, same⟩ | failed
  · rwa [same]
  · exact holds.save_spec failed

/-- The files of an upload come in one after the other, under keys that stand for paths. -/
theorem Holds.saves {parent : ParentRecord} {index : Nat} {uploads : List Upload}
    {blobs after : Faulty LocalBlobs} {saved : List SavedBlob}
    (holds : blobs.inner.Holds base files)
    (saves : Manager.Saves parent index uploads blobs saved after) :
    after.inner.Holds base
        ((savedFiles uploads (saved.map (·.storageKey))).reverse ++ files) ∧
      ∀ blob ∈ saved, Keyed blob.storageKey := by
  induction saves generalizing files with
  | nil => exact ⟨holds, fun blob mem => absurd mem List.not_mem_nil⟩
  | cons first rest ih =>
      rcases Faulty.save_cases first with ⟨impossible, -⟩ | first
      · cases impossible
      · obtain ⟨keyed, -, held⟩ := holds.save_spec first
        obtain ⟨heldAll, keyedOthers⟩ := ih held
        refine ⟨?_, List.forall_mem_cons.mpr ⟨keyed, keyedOthers⟩⟩
        rw [List.map_cons, savedFiles, List.zip_cons_cons, List.map_cons, List.reverse_cons,
          List.append_assoc]
        exact heldAll

/-- What stands below the root are the files that the store holds. -/
theorem Holds.hasFile_iff {blobs : LocalBlobs} (holds : blobs.Holds base files) {names : Place}
    {bytes : Bytes} (some_names : names ≠ []) :
    blobs.HasFile (base ++ names) bytes ↔ (names, bytes) ∈ files := by
  constructor
  · rintro ⟨content, there, rfl⟩
    exact holds.region.listed names content some_names there
  · intro mem
    exact holds.region.present _ mem

theorem Holds.some_names {blobs : LocalBlobs} (holds : blobs.Holds base files)
    {file : Place × Bytes} (mem : file ∈ files) : file.1 ≠ [] :=
  (holds.region.passable file mem).some_names

/-! ## An empty root -/

/-- The root stands at a place, and there is nothing below it but a directory for temporary
files. -/
structure Fresh (base : Place) (blobs : LocalBlobs) : Prop where
  rooted : blobs.tree.resolve blobs.rootPath = .ok (.entry base .directory)
  empty : ∀ below entry, below ≠ [] → blobs.tree.lookup (base ++ below) = some entry →
    below = [".tmp"] ∧ entry = .directory

/-- A fresh root holds no files. -/
theorem Fresh.holds {blobs : LocalBlobs} (fresh : blobs.Fresh base) : blobs.Holds base [] where
  region := {
    rooted := fresh.rooted
    free := by
      intro below target some_below link
      cases (fresh.empty below _ some_below link).2
    listed := by
      intro below content some_below file
      cases (fresh.empty below _ some_below file).2
    present := fun _ mem => absurd mem List.not_mem_nil
    passable := fun _ mem => absurd mem List.not_mem_nil
    housed := fun _ mem => absurd mem List.not_mem_nil
    distinct := List.nodup_nil }
  named := fun _ mem => absurd mem List.not_mem_nil

end LocalBlobs

/-- Where an upload that failed leaves the files: some may have come in. -/
theorem Manager.Halted.holds {σ : Type} [ParentStore σ] {manager : Manager σ (Faulty LocalBlobs)}
    {parent : String} {error : GalleryError} {blobs : Faulty LocalBlobs}
    (holds : manager.blobs.inner.Holds base files) (halted : manager.Halted parent error blobs) :
    ∃ new : List (Place × Bytes), blobs.inner.Holds base (new ++ files) := by
  cases halted with
  | early => exact ⟨[], holds⟩
  | refused _ saves _ => exact ⟨_, (holds.saves saves).1⟩
  | unsaved _ saves _ failed => exact ⟨_, (holds.saves saves).1.save_of_error failed⟩

end ImageGallery
