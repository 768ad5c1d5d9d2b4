import ImageGallery.Proofs.ClosedTree
import ImageGallery.Proofs.Ledger
import ImageGallery.Proofs.SaveSteps
import ImageGallery.Proofs.StorageKey

/-!
# New names

The name of a stored file stands at the end of its key and of its path, behind the last slash, and
the time in it is later than the times in all names before.
-/

namespace ImageGallery

open Disk

/-! ## Last names -/

namespace Text

/-- What stands behind the last slash of a text, or the whole text without one. -/
def lastName (text : String) : String :=
  String.ofList (text.toList.reverse.takeWhile (· ≠ '/')).reverse

theorem lastName_append {front name : String} (whole : '/' ∉ name.toList)
    (ends : front = "" ∨ front.toList.getLast? = some '/') : lastName (front ++ name) = name := by
  have before : front.toList.reverse.takeWhile (· ≠ '/') = [] := by
    rcases ends with rfl | ends
    · rfl
    · rw [List.getLast?_eq_head?_reverse] at ends
      obtain ⟨rest, chars⟩ := List.head?_eq_some_iff.mp ends
      rw [chars]
      simp
  have within : ∀ char ∈ name.toList.reverse, decide (char ≠ '/') = true := by
    intro char mem
    apply decide_eq_true
    rintro rfl
    exact whole (List.mem_reverse.mp mem)
  rw [lastName, String.toList_append, List.reverse_append, List.takeWhile_append_of_pos within,
    before, List.append_nil, List.reverse_reverse, String.ofList_toList]

/-- What follows a slash is the last name. -/
theorem lastName_slash {front name : String} (whole : '/' ∉ name.toList) :
    lastName (front ++ "/" ++ name) = name := by
  apply lastName_append whole
  right
  simp

end Text

/-- The last name of a path is that of its text. -/
theorem Disk.Path.lastName_display (path : Path) {name : String} (whole : '/' ∉ name.toList) :
    Text.lastName (path.join [name]).display = name := by
  unfold Path.display Path.join
  dsimp only
  rw [List.foldl_append, List.foldl_cons, List.foldl_nil]
  split
  · rename_i ends
    exact Text.lastName_append whole ends.symm
  · exact Text.lastName_slash whole

/-! ## Times -/

/-- The time in the name of a stored file. -/
def Blob.timeIn (filename : String) : Nat :=
  Nat.ofDigitChars 10 (filename.toList.takeWhile (· ≠ '-')) 0

theorem Blob.timeIn_filename {draw : Draw} {index : Nat} {media : MediaType} :
    timeIn (filename draw index media) = draw.micros := by
  rw [timeIn, takeWhile_filename]
  simp [Text.naturalText, Nat.ofDigitChars_ten_toDigits]

/-- A saved file is named like one, and its key and its path end in the name. -/
structure SavedBlob.Named (saved : SavedBlob) : Prop where
  made : ∃ draw index media, saved.filename = Blob.filename draw index media
  key : Text.lastName saved.storageKey = saved.filename
  path : Text.lastName saved.path = saved.filename

/-- The time of a saved file. -/
def SavedBlob.time (saved : SavedBlob) : Nat :=
  Blob.timeIn saved.filename

namespace LocalBlobs

variable {before blobs after : LocalBlobs} {scope parent : String} {index : Nat} {upload : Upload}
  {media : MediaType}

/-- Names are only ever made at later times, and so is that of the file that was saved, if one
was. -/
structure NamesOn (before after : LocalBlobs) (saved? : Option SavedBlob) : Prop where
  advances : before.names.lastMicros ≤ after.names.lastMicros
  named : ∀ saved ∈ saved?, saved.Named
  later : ∀ saved ∈ saved?, before.names.lastMicros < saved.time
  reached : ∀ saved ∈ saved?, saved.time ≤ after.names.lastMicros

theorem NamesOn.unsaved (advances : before.names.lastMicros ≤ after.names.lastMicros) :
    NamesOn before after none where
  advances := advances
  named := by simp
  later := by simp
  reached := by simp

/-- Writing a file takes the next time, unless there is no directory for it. -/
theorem write_namesOn {result : Except Failure SavedBlob}
    (written : blobs.write scope parent index upload media = (result, after)) :
    NamesOn blobs after result.toOption := by
  have later := blobs.names.lastMicros_lt_next
  have advanced : blobs.names.lastMicros ≤ blobs.names.next.2.lastMicros := Nat.le_of_lt later
  rcases write_outcome written with ⟨failure, rfl, -, kept | drawn⟩ |
    ⟨saved, rfl, -, names_eq, filename_eq, key_eq, path_eq, -⟩
  · exact .unsaved (kept ▸ Nat.le_refl _)
  · exact .unsaved (drawn ▸ advanced)
  · have whole : '/' ∉ saved.filename.toList := by
      rw [filename_eq]
      exact Blob.entryName_filename.whole
    have time_eq : saved.time = blobs.names.next.1.micros := by
      rw [SavedBlob.time, filename_eq, Blob.timeIn_filename]
    constructor
    · rwa [names_eq]
    · rintro saved ⟨⟩
      constructor
      · exact ⟨_, index, media, filename_eq⟩
      · rw [key_eq]
        exact Text.lastName_slash whole
      · rw [path_eq, targetPath, ← filename_eq]
        exact (blobs.directoryOf scope parent).lastName_display whole
    · rintro saved ⟨⟩
      rw [time_eq]
      exact later
    · rintro saved ⟨⟩
      rw [time_eq, names_eq]
      exact Nat.le_refl _

/-- Saving a file takes the next time, unless it is refused or there is no directory for it. -/
theorem save_namesOn {result : Except GalleryError SavedBlob}
    (saving : blobs.save scope parent index upload = (result, after)) :
    NamesOn blobs after result.toOption := by
  rcases save_cases saving with
    ⟨-, rfl, error, rfl⟩ | ⟨media, -, -, -, -, written, writing, rfl⟩
  · exact .unsaved (Nat.le_refl _)
  · have named := write_namesOn writing
    cases written with
    | ok saved => exact named
    | error failure => exact named

/-- Removing a file makes no names. -/
theorem names_delete (blobs : LocalBlobs) (key : String) :
    (blobs.delete key).2.names = blobs.names := by
  unfold delete
  split
  · rfl
  · split
    · split <;> rfl
    · rfl

/-- Sweeping makes no names. -/
theorem names_sweep (blobs : LocalBlobs) : blobs.sweep.2.names = blobs.names := by
  unfold sweep
  dsimp only
  split <;> rfl

end LocalBlobs

/-! ## Ledgers in order -/

namespace Ledger

/-- The saved files were named one after the other, none later than the store has come. -/
structure Orderly (blobs : Ledger (Faulty LocalBlobs)) : Prop where
  ascending : blobs.saved.Pairwise fun first second => first.time < second.time
  reached : ∀ saved ∈ blobs.saved, saved.time ≤ blobs.inner.inner.names.lastMicros
  named : ∀ saved ∈ blobs.saved, saved.Named

variable {blobs after : Ledger (Faulty LocalBlobs)} {parent : ParentRecord}

/-- An empty ledger is in order, whatever names were made before. -/
theorem Orderly.empty (inner : Faulty LocalBlobs) : Orderly { inner } where
  ascending := .nil
  reached := by simp
  named := by simp

/-- A save that is entered keeps a ledger in order. -/
theorem Orderly.save (orderly : blobs.Orderly) {scope parent : String} {index : Nat}
    {upload : Upload} {result : Except GalleryError SavedBlob}
    (saving : BlobStore.save blobs scope parent index upload = (result, after)) :
    after.Orderly ∧ after.saved = blobs.saved ++ result.toOption.toList := by
  change blobs.save scope parent index upload = _ at saving
  unfold Ledger.save at saving
  rcases within : BlobStore.save blobs.inner scope parent index upload with ⟨answer, inner⟩
  rw [within] at saving
  cases saving
  refine ⟨?_, rfl⟩
  have namesOn : LocalBlobs.NamesOn blobs.inner.inner inner.inner result.toOption := by
    rcases Faulty.save_cases within with ⟨rfl, same⟩ | within
    · rw [same]
      exact .unsaved (Nat.le_refl _)
    · exact LocalBlobs.save_namesOn within
  constructor
  · rw [List.pairwise_append]
    refine ⟨orderly.ascending, ?_, ?_⟩
    · cases result.toOption <;> simp
    · intro first firstMem second secondMem
      have before := orderly.reached first firstMem
      have later := namesOn.later second (Option.mem_toList.mp secondMem)
      omega
  · intro saved mem
    rcases List.mem_append.mp mem with old | new
    · exact Nat.le_trans (orderly.reached saved old) namesOn.advances
    · exact namesOn.reached saved (Option.mem_toList.mp new)
  · intro saved mem
    rcases List.mem_append.mp mem with old | new
    · exact orderly.named saved old
    · exact namesOn.named saved (Option.mem_toList.mp new)

/-- The files of an upload are entered in their order. -/
theorem Orderly.saves (orderly : blobs.Orderly) {index : Nat} {uploads : List Upload}
    {saved : List SavedBlob} (saves : Manager.Saves parent index uploads blobs saved after) :
    after.Orderly ∧ after.saved = blobs.saved ++ saved := by
  induction saves with
  | nil => exact ⟨orderly, (List.append_nil _).symm⟩
  | cons first rest ih =>
      obtain ⟨next, entered⟩ := orderly.save first
      obtain ⟨last, others⟩ := ih next
      rw [entered] at others
      exact ⟨last, by rw [others, List.append_assoc]; rfl⟩

/-- What an upload that fails leaves is in order, and nothing is struck out. -/
theorem Orderly.halted {σ : Type} [ParentStore σ]
    {manager : Manager σ (Ledger (Faulty LocalBlobs))} {parentId : String} {error : GalleryError}
    (orderly : manager.blobs.Orderly) (halted : manager.Halted parentId error after) :
    after.Orderly ∧ manager.blobs.saved <+: after.saved := by
  cases halted with
  | early => exact ⟨orderly, List.prefix_refl _⟩
  | refused _ saves _ =>
      obtain ⟨kept, entered⟩ := orderly.saves saves
      exact ⟨kept, entered ▸ List.prefix_append _ _⟩
  | unsaved _ saves _ failed =>
      obtain ⟨kept, entered⟩ := orderly.saves saves
      obtain ⟨last, others⟩ := kept.save failed
      rw [others, entered, List.append_assoc]
      exact ⟨last, List.prefix_append _ _⟩

/-- Whatever happens to the files, the ledger stays in order as long as no names are made. -/
theorem Orderly.unnamed (orderly : blobs.Orderly) (saved_eq : after.saved = blobs.saved)
    (names_eq : after.inner.inner.names = blobs.inner.inner.names) : after.Orderly where
  ascending := saved_eq ▸ orderly.ascending
  reached := by
    rw [saved_eq, names_eq]
    exact orderly.reached
  named := saved_eq ▸ orderly.named

theorem Orderly.delete (orderly : blobs.Orderly) (key : String) :
    (BlobStore.delete blobs key).2.Orderly :=
  orderly.unnamed rfl (LocalBlobs.names_delete blobs.inner.inner key)

/-- The names of the saved files are all different. -/
theorem Orderly.nodup_filenames (orderly : blobs.Orderly) :
    (blobs.saved.map (·.filename)).Nodup := by
  rw [List.nodup_iff_pairwise_ne, List.pairwise_map]
  refine orderly.ascending.imp fun {first second} earlier same => ?_
  rw [SavedBlob.time, SavedBlob.time, same] at earlier
  exact Nat.lt_irrefl _ earlier

/-- Nothing was saved twice at a path. -/
theorem Orderly.nodup_paths (orderly : blobs.Orderly) : (blobs.saved.map (·.path)).Nodup := by
  have names : (blobs.saved.map (·.path)).map Text.lastName = blobs.saved.map (·.filename) := by
    rw [List.map_map]
    exact List.map_congr_left fun saved mem => (orderly.named saved mem).path
  apply List.Nodup.of_map Text.lastName
  rw [names]
  exact orderly.nodup_filenames

/-- No temporary file stands at the path of a saved file, in whichever directory it is. -/
theorem Orderly.path_ne_temporary (orderly : blobs.Orderly) {saved : SavedBlob}
    (mem : saved ∈ blobs.saved) (directory : Path) {draw : Blob.Draw}
    (whole : '/' ∉ draw.temporary.toList) :
    saved.path ≠ (directory.join [Blob.temporaryName draw]).display := by
  intro same
  have named := orderly.named saved mem
  obtain ⟨own, index, media, made⟩ := named.made
  have last : Text.lastName saved.path = Blob.temporaryName draw := by
    rw [same]
    apply Path.lastName_display
    simpa [Blob.temporaryName] using whole
  rw [named.path, made] at last
  exact Blob.temporaryName_ne_filename last.symm

end Ledger

end ImageGallery
