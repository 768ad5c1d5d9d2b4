import ImageGallery.Proofs.Completion
import ImageGallery.Proofs.Gallery
import ImageGallery.Proofs.Registration

/-!
# Deletions from end to end

A deletion finds no image, fails and changes nothing, or takes the image out of its gallery. The
survivors keep their display order and are renumbered from zero on, and the first of them takes the
place of a cover. Of the files only the one that the image's key leads to can be gone.
-/

namespace ImageGallery

open Disk

variable {σ τ : Type} {images survivors : List ImageRecord} {target : ImageRecord}

/-! ## The gallery that is left -/

/-- Images with the first of them as the only cover. -/
def coveredByFirst : List ImageRecord → List ImageRecord
  | [] => []
  | first :: others =>
    { first with isCover := true } :: others.map fun image => { image with isCover := false }

/-- The images that are left when an image goes: the first of them takes the place of a cover. -/
def withSuccessor (target : ImageRecord) (survivors : List ImageRecord) : List ImageRecord :=
  if target.isCover then coveredByFirst survivors else survivors

@[simp]
theorem length_withSuccessor : (withSuccessor target survivors).length = survivors.length := by
  rw [withSuccessor]
  split
  · cases survivors <;> simp [coveredByFirst]
  · rfl

/-- The images of a list but one, which is known by its id. -/
theorem filter_id_ne {earlier later : List ImageRecord}
    (distinct : ((earlier ++ target :: later).map (·.id)).Nodup) :
    (earlier ++ target :: later).filter (fun image => image.id ≠ target.id) = earlier ++ later := by
  rw [List.map_append, List.map_cons, List.nodup_middle, List.nodup_cons, ← List.map_append]
    at distinct
  have kept : ∀ image ∈ earlier ++ later, decide (image.id ≠ target.id) = true :=
    fun image mem => decide_eq_true fun same => distinct.1 (same ▸ List.mem_map_of_mem mem)
  obtain ⟨keptEarlier, keptLater⟩ := List.forall_mem_append.mp kept
  rw [List.filter_append, List.filter_cons_of_neg (by simp), List.filter_eq_self.mpr keptEarlier,
    List.filter_eq_self.mpr keptLater]

namespace Manager

theorem withCover_first {first : ImageRecord} {others : List ImageRecord}
    (distinct : ((first :: others).map (·.id)).Nodup) :
    withCover (first :: others) first.id = coveredByFirst (first :: others) := by
  rw [withCover, List.map_cons, coveredByFirst, decide_eq_true rfl]
  congr 1
  refine List.map_congr_left fun image mem => ?_
  have fresh : first.id ∉ others.map (·.id) := (List.nodup_cons.mp distinct).1
  have differ : image.id ≠ first.id := fun same => fresh (same ▸ List.mem_map_of_mem mem)
  rw [decide_eq_false differ]

/-- The promotion, seen in display order. -/
theorem promote_promotedAmong (distinct : (images.map (·.id)).Nodup) (target : ImageRecord) :
    promote (promotedAmong images target) (ImageRecord.arrange images) =
      withSuccessor target (ImageRecord.arrange images) := by
  have shownDistinct := nodup_map_id_arrange distinct
  rw [promotedAmong, withSuccessor]
  split
  · cases leading : ImageRecord.arrange images with
    | nil => rfl
    | cons first others =>
        rw [leading] at shownDistinct
        exact withCover_first shownDistinct
  · rfl

theorem promote_perm {first second : List ImageRecord} (permuted : first.Perm second)
    (promoted : Option Int) : (promote promoted first).Perm (promote promoted second) := by
  cases promoted with
  | none => exact permuted
  | some id => exact permuted.map _

/-- A gallery without an image has the others, renumbered in display order. -/
theorem without_perm (distinct : (images.map (·.id)).Nodup) (target : ImageRecord) :
    (without images target).Perm (renumbered (withSuccessor target
      ((ImageRecord.arrange images).filter fun image => image.id ≠ target.id))) := by
  rw [← arrange_filter distinct]
  have othersDistinct : ((images.filter fun image => image.id ≠ target.id).map (·.id)).Nodup :=
    distinct.sublist (List.filter_sublist.map _)
  unfold without
  dsimp only
  generalize images.filter (fun image => image.id ≠ target.id) = others at othersDistinct ⊢
  rw [← promote_promotedAmong othersDistinct]
  generalize promotedAmong others target = promoted
  have shownDistinct : ((promote promoted (ImageRecord.arrange others)).map (·.id)).Nodup := by
    rw [map_id_promote]
    exact nodup_map_id_arrange othersDistinct
  -- Ranks go by ids, and a promotion keeps these.
  have ranks : ImageRecord.atRankIn (ImageRecord.arrange others) =
      ImageRecord.atRankIn (promote promoted (ImageRecord.arrange others)) := by
    funext image
    rw [ImageRecord.atRankIn, ImageRecord.atRankIn, map_id_promote]
  rw [← map_atRankIn_eq_renumbered shownDistinct, ← ranks]
  exact (promote_perm (arrange_perm others).symm promoted).map _

/-! ## What a deletion does -/

/-- What becomes of the files when a key is removed: the entry that the key leads to may be gone,
and nothing else changes. -/
def RemovesOnly (before after : Faulty LocalBlobs) (key : String) : Prop :=
  after = before ∨ ∃ path place entry, before.inner.resolve? key = some path ∧
    before.inner.tree.locate path = .ok (.entry place entry) ∧ entry ≠ .directory ∧
      after = { before with
        inner := { before.inner with tree := before.inner.tree.erase place } }

/-- A removal that reports no file changes nothing, and no other one changes anything else. -/
theorem delete_removesOnly (blobs : Faulty LocalBlobs) (key : String) :
    RemovesOnly blobs (BlobStore.delete blobs key).2 key ∧
      ((BlobStore.delete blobs key).1 = false → (BlobStore.delete blobs key).2 = blobs) := by
  change RemovesOnly blobs { blobs with inner := (blobs.inner.delete key).2 } key ∧
    ((blobs.inner.delete key).1 = false →
      { blobs with inner := (blobs.inner.delete key).2 } = blobs)
  unfold LocalBlobs.delete
  split
  · exact ⟨.inl rfl, fun _ => rfl⟩
  rename_i path resolved
  split
  · unfold Tree.remove
    cases located : blobs.inner.tree.locate path with
    | error error => exact ⟨.inl rfl, fun _ => rfl⟩
    | ok found =>
        cases found with
        | free place => exact ⟨.inl rfl, fun _ => rfl⟩
        | entry place entry =>
            cases entry with
            | directory => exact ⟨.inl rfl, fun _ => rfl⟩
            | file content =>
                exact ⟨.inr ⟨path, place, _, resolved, located, nofun, rfl⟩, nofun⟩
            | link text =>
                exact ⟨.inr ⟨path, place, _, resolved, located, nofun, rfl⟩, nofun⟩
  · exact ⟨.inl rfl, fun _ => rfl⟩

section Deletion

variable [GalleryTx τ] [GalleryStore σ τ]

/-- What a deletion that succeeds answers and leaves behind, when an image of a gallery on display
goes and others survive. -/
structure LeavesBehind (manager after : Manager σ (Faulty LocalBlobs)) (parentId : String)
    (target : ImageRecord) (survivors : List ImageRecord) (outcome : DeleteOutcome) : Prop where
  deletedId_eq : outcome.deletedId = target.id
  newCoverId_eq : outcome.newCoverId =
    if target.isCover then survivors.head?.map (·.id) else none
  held : (GalleryStore.listImages after.store parentId).Perm
    (renumbered (withSuccessor target survivors))
  /-- Positions of 32 bits keep the survivors in their order. -/
  listed (small : survivors.length ≤ UInt32.size) :
    GalleryStore.listImages after.store parentId = renumbered (withSuccessor target survivors)
  others (other : String) (differ : other ≠ parentId) :
    GalleryStore.listImages after.store other = GalleryStore.listImages manager.store other
  removes : RemovesOnly manager.blobs after.blobs target.storageKey
  keeps (kept : outcome.blobRemoved = false) : after.blobs = manager.blobs

omit [GalleryTx τ] in
/-- Counting something afterwards does not matter. -/
theorem LeavesBehind.tally {manager after : Manager σ (Faulty LocalBlobs)} {parentId : String}
    {target : ImageRecord} {survivors : List ImageRecord} {outcome : DeleteOutcome}
    (leaves : LeavesBehind manager after parentId target survivors outcome) (counter : Counter)
    (amount : Nat) :
    LeavesBehind manager (after.tally counter amount) parentId target survivors outcome :=
  ⟨leaves.deletedId_eq, leaves.newCoverId_eq, leaves.held, leaves.listed, leaves.others,
    leaves.removes, leaves.keeps⟩

variable [ParentStore σ]

/-- What a deletion does. Whether it succeeds on an image of the parent depends on whether the store
works. -/
structure DeletesInFull (works : Prop) (manager : Manager σ (Faulty LocalBlobs))
    (parentId : String) (id : Int) : Prop where
  notFound : (manager.delete parentId id).1 = .error (.imageNotFound id) ↔
    ∀ image ∈ GalleryStore.listImages manager.store parentId, image.id ≠ id
  unchanged {error : GalleryError} (failed : (manager.delete parentId id).1 = .error error) :
    (manager.delete parentId id).2 = manager.tally (.operations .delete false) 1
  succeeds (works : works)
    (member : ∃ image ∈ GalleryStore.listImages manager.store parentId, image.id = id) :
    ∃ outcome, (manager.delete parentId id).1 = .ok outcome
  leaves {outcome : DeleteOutcome} (succeeded : (manager.delete parentId id).1 = .ok outcome) :
    ∃ earlier target later, target.id = id ∧
      GalleryStore.listImages manager.store parentId = earlier ++ target :: later ∧
      LeavesBehind manager (manager.delete parentId id).2 parentId target (earlier ++ later) outcome

/-! ## Which answer is given -/

omit [GalleryStore σ τ] [ParentStore σ] in
theorem ofStore_of_place_eq_error {tx : τ} {plan : List (Int × UInt32)} {error : GalleryError}
    (refused : place tx plan = .error error) : ∃ cause, error = .ofStore cause := by
  induction plan generalizing tx with
  | nil => cases refused
  | cons move plan ih =>
      unfold place at refused
      split at refused
      · exact ih refused
      · cases refused
        exact ⟨_, rfl⟩

omit [GalleryStore σ τ] [ParentStore σ] in
theorem ofStore_of_takeOut_eq_error {tx : τ} {target : ImageRecord} {error : GalleryError}
    (refused : takeOut tx target = .error error) : ∃ cause, error = .ofStore cause := by
  unfold takeOut at refused
  simp only [bind, Except.bind, pure, Except.pure, throw, throwThe, MonadExceptOf.throw] at refused
  split at refused
  · split at refused
    · split at refused
      · rename_i unplaced
        cases refused
        exact ofStore_of_place_eq_error unplaced
      · cases refused
    · cases refused
      exact ⟨_, rfl⟩
  · split at refused
    · rename_i unplaced
      cases refused
      exact ofStore_of_place_eq_error unplaced
    · cases refused

variable [TxView τ] [LawfulTx τ] [StoreView σ τ] [LawfulStore σ τ]
  {manager after : Manager σ (Faulty LocalBlobs)} {parentId : String} {id : Int}
  {outcome : DeleteOutcome}

/-- The answer says that an image is missing exactly if the parent has none with the id. -/
theorem withdraw_eq_imageNotFound_iff :
    (manager.withdraw parentId id).1 = .error (.imageNotFound id) ↔
      ∀ image ∈ GalleryStore.listImages manager.store parentId, image.id ≠ id := by
  simp only [mem_listImages_iff]
  have started := LawfulStore.draft_start manager.store parentId
  unfold withdraw
  dsimp only
  rw [LawfulTx.get?_eq, started]
  split
  · rename_i missing
    simpa using missing
  · rename_i target found
    obtain ⟨mem, named⟩ := mem_of_find?_eq_some found
    refine iff_of_false ?_ fun absent => absent target mem named
    split
    · rename_i refused
      obtain ⟨cause, rfl⟩ := ofStore_of_takeOut_eq_error refused
      exact nofun
    · split
      · rename_i refused
        obtain ⟨-, cause, rfl⟩ := commitWith_of_error refused
        exact nofun
      · exact nofun

omit [LawfulTx τ] in
/-- What is published in the place of a gallery, seen in display order. -/
theorem Deleted.leavesBehind {target : ImageRecord} {earlier later : List ImageRecord}
    (deleted : Deleted manager after parentId target outcome)
    (distinct : ((StoreView.images manager.store parentId).map (·.id)).Nodup)
    (former : GalleryStore.listImages manager.store parentId = earlier ++ target :: later) :
    LeavesBehind manager after parentId target (earlier ++ later) outcome := by
  have shown : ImageRecord.arrange (StoreView.images manager.store parentId) =
      earlier ++ target :: later := by
    rw [← LawfulStore.listImages_eq, former]
  have shownDistinct : ((earlier ++ target :: later).map (·.id)).Nodup := by
    rw [← shown]
    exact nodup_map_id_arrange distinct
  -- Filtering by the id takes the image out where it is displayed.
  have survivors := filter_id_ne shownDistinct
  have permuted := without_perm distinct target
  rw [shown, survivors] at permuted
  have left : GalleryStore.listImages after.store parentId =
      ImageRecord.arrange (without (StoreView.images manager.store parentId) target) := by
    rw [LawfulStore.listImages_eq, deleted.published.images_self]
  have removal := delete_removesOnly manager.blobs target.storageKey
  rw [← deleted.removed] at removal
  constructor
  · exact deleted.deletedId_eq
  · rw [deleted.newCoverId_eq, promotedAmong, arrange_filter distinct, shown, survivors]
  · rw [left]
    exact (arrange_perm _).trans permuted
  · intro small
    rw [left, arrange_eq_rankedBy, rankedBy_eq_of_perm permuted, ← arrange_eq_rankedBy,
      arrange_renumbered]
    · rwa [length_withSuccessor]
    · rw [map_id_without]
      exact distinct.sublist (List.filter_sublist.map _)
  · intro other differ
    rw [LawfulStore.listImages_eq, LawfulStore.listImages_eq,
      deleted.published.images_other other differ]
  · exact removal.1
  · exact removal.2

/-- A deletion in a store that is lawful, and that works if it refuses nothing. -/
theorem deletesInFull_of_distinct [Obliging σ τ] {works : Prop}
    (distinct : ((GalleryStore.listImages manager.store parentId).map (·.id)).Nodup)
    (ready : works → Ready σ (GalleryStore.start manager.store parentId)) :
    DeletesInFull works manager parentId id := by
  rw [nodup_listImages_iff] at distinct
  constructor
  · exact withdraw_eq_imageNotFound_iff
  · intro error failed
    obtain ⟨middle, withdrawn⟩ : ∃ middle,
        manager.withdraw parentId id = (.error error, middle) := ⟨_, Prod.ext failed rfl⟩
    rw [delete, record, withdrawn, withdraw_of_error withdrawn]
    rfl
  · rintro works ⟨image, mem, rfl⟩
    obtain ⟨outcome, after, withdrawn⟩ :=
      exists_withdraw (ready works) (mem_listImages_iff.mp mem)
    exact ⟨outcome, congrArg Prod.fst withdrawn⟩
  · intro outcome succeeded
    obtain ⟨middle, withdrawn⟩ : ∃ middle,
        manager.withdraw parentId id = (.ok outcome, middle) := ⟨_, Prod.ext succeeded rfl⟩
    obtain ⟨target, named, deleted⟩ := withdraw_of_ok distinct withdrawn
    obtain ⟨earlier, later, former⟩ :=
      List.append_of_mem (mem_listImages_iff.mpr deleted.mem)
    refine ⟨earlier, target, later, named, former, ?_⟩
    rw [delete, record, withdrawn]
    exact (deleted.leavesBehind distinct former).tally _ _

end Deletion

/-- In memory, in a database and in a file, a deletion does what is expected of it from every state
of the store, whatever positions and however many covers the images have. -/
theorem deletesInFull_of_everyStore (parentId : String) (id : Int) :
    (∀ manager : Manager MemoryStore (Faulty LocalBlobs),
      ((GalleryStore.listImages manager.store parentId).map (·.id)).Nodup →
        DeletesInFull (manager.store.failCommits = false) manager parentId id) ∧
    (∀ manager : Manager (Fallible Database) (Faulty LocalBlobs),
      ((GalleryStore.listImages manager.store parentId).map (·.id)).Nodup →
        DeletesInFull (∀ call tried, manager.store.refusals call tried = none)
          manager parentId id) ∧
    ∀ manager : Manager FileStore (Faulty LocalBlobs),
      ((GalleryStore.listImages manager.store parentId).map (·.id)).Nodup →
        DeletesInFull (∀ call tried, manager.store.refusals call tried = none)
          manager parentId id :=
  ⟨fun _ distinct => deletesInFull_of_distinct distinct (MemoryStore.ready_start · _),
    fun _ distinct => deletesInFull_of_distinct distinct (Fallible.ready_start · _),
    fun _ distinct => deletesInFull_of_distinct distinct (FileStore.ready_start · _)⟩

/-- The cover goes from a gallery with a gap and two images at one position. -/
theorem deletesInFull_uneven :
    DeletesInFull (MemoryStore.uneven.failCommits = false) (ofStore MemoryStore.uneven) "p" 2 ∧
    DeletesInFull (∀ call tried,
        ({ inner := .uneven } : Fallible Database).refusals call tried = none)
      (ofStore ({ inner := .uneven } : Fallible Database)) "p" 2 ∧
    ∃ store : FileStore, store.database = { inner := .uneven } ∧
      DeletesInFull (∀ call tried, store.refusals call tried = none) (ofStore store) "p" 2 := by
  obtain ⟨store, database, -⟩ := exists_file .uneven
  exact ⟨(deletesInFull_of_everyStore "p" 2).1 (ofStore _) (MemoryStore.holdsUneven.distinct "p"),
    (deletesInFull_of_everyStore "p" 2).2.1 (ofStore _) (Fallible.holdsUneven.distinct "p"),
    store, database,
    (deletesInFull_of_everyStore "p" 2).2.2 (ofStore _)
      ((FileStore.holdsUneven database).distinct "p")⟩

end Manager

end ImageGallery
