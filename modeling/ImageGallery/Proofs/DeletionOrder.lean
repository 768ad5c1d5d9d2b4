import ImageGallery.Proofs.Deleting

/-!
# Deletions in any order

Images of one parent that are deleted one after the other leave the same gallery in every order.
On the way the order matters: a deletion may promote an image that goes later, and each one
renumbers the images that are left. What is left in the end is told by the ids that are gone, since
leaving images out composes, and positions given on the way do not count.
-/

namespace ImageGallery

open Disk

variable {σ τ β : Type} {images : List ImageRecord} {ids : List Int}

/-! ## What several deletions leave -/

/-- The images of a list whose ids are not among some. -/
def withoutIds (ids : List Int) (images : List ImageRecord) : List ImageRecord :=
  images.filter fun image => image.id ∉ ids

/-- The images that are left when images go: the first of them takes the place of a cover. -/
def leftBy (ids : List Int) (images : List ImageRecord) : List ImageRecord :=
  if ∃ image ∈ images, image.isCover = true ∧ image.id ∈ ids then
    coveredByFirst (withoutIds ids images)
  else withoutIds ids images

theorem leftBy_of_gone (gone : ∃ image ∈ images, image.isCover = true ∧ image.id ∈ ids) :
    leftBy ids images = coveredByFirst (withoutIds ids images) :=
  if_pos gone

theorem leftBy_of_kept (kept : ∀ image ∈ images, image.isCover = true → image.id ∉ ids) :
    leftBy ids images = withoutIds ids images :=
  if_neg fun ⟨image, mem, cover, gone⟩ => kept image mem cover gone

theorem withoutIds_append (earlier later : List Int) (images : List ImageRecord) :
    withoutIds later (withoutIds earlier images) = withoutIds (earlier ++ later) images := by
  rw [withoutIds, withoutIds, withoutIds, List.filter_filter]
  apply List.filter_congr
  intro image _
  simp [Bool.and_comm]

/-- Who is left does not depend on the order of the ids. -/
theorem leftBy_eq_of_perm {order : List Int} (permuted : order.Perm ids) :
    leftBy order images = leftBy ids images := by
  simp only [leftBy, withoutIds, permuted.mem_iff]

theorem coveredByFirst_map_uncovered (images : List ImageRecord) :
    coveredByFirst (images.map fun image => { image with isCover := false }) =
      coveredByFirst images := by
  cases images with
  | nil => rfl
  | cons first others => simp [coveredByFirst, Function.comp_def]

/-- A first image that covers and goes hands its place on to the next one that stays. -/
theorem leftBy_coveredByFirst (ids : List Int) (images : List ImageRecord) :
    leftBy ids (coveredByFirst images) = coveredByFirst (withoutIds ids images) := by
  cases images with
  | nil => simp [coveredByFirst, leftBy, withoutIds]
  | cons first others =>
      have rest : withoutIds ids (others.map fun image => { image with isCover := false }) =
          (withoutIds ids others).map fun image => { image with isCover := false } := by
        rw [withoutIds, withoutIds, List.filter_map]
        rfl
      by_cases gone : first.id ∈ ids
      · have others_left : withoutIds ids (first :: others) = withoutIds ids others :=
          List.filter_cons_of_neg (by simpa using gone)
        have covered_left : withoutIds ids (coveredByFirst (first :: others)) =
            withoutIds ids (others.map fun image => { image with isCover := false }) :=
          List.filter_cons_of_neg (by simpa using gone)
        have covered_gone : ∃ image ∈ coveredByFirst (first :: others),
            image.isCover = true ∧ image.id ∈ ids := ⟨_, List.mem_cons_self, rfl, gone⟩
        rw [leftBy_of_gone covered_gone, covered_left, rest, others_left,
          coveredByFirst_map_uncovered]
      · have first_left : withoutIds ids (first :: others) = first :: withoutIds ids others :=
          List.filter_cons_of_pos (by simpa using gone)
        have covered_left : withoutIds ids (coveredByFirst (first :: others)) =
            { first with isCover := true } ::
              withoutIds ids (others.map fun image => { image with isCover := false }) :=
          List.filter_cons_of_pos (by simpa using gone)
        rw [leftBy_of_kept, covered_left, rest, first_left, coveredByFirst]
        intro image mem cover
        rcases List.mem_cons.mp mem with rfl | uncovered
        · exact gone
        · obtain ⟨other, -, rfl⟩ := List.mem_map.mp uncovered
          cases cover

/-- Images can be left out in two goes. -/
theorem leftBy_append (earlier later : List Int) (images : List ImageRecord) :
    leftBy later (leftBy earlier images) = leftBy (earlier ++ later) images := by
  by_cases gone : ∃ image ∈ images, image.isCover = true ∧ image.id ∈ earlier
  · obtain ⟨image, mem, cover, early⟩ := gone
    rw [leftBy_of_gone ⟨image, mem, cover, early⟩, leftBy_coveredByFirst, withoutIds_append,
      leftBy_of_gone ⟨image, mem, cover, List.mem_append_left later early⟩]
  · have kept : ∀ image ∈ images, image.isCover = true → image.id ∉ earlier :=
      fun image mem cover early => gone ⟨image, mem, cover, early⟩
    -- A cover that goes later is still among the images that are left.
    have same : (∃ image ∈ withoutIds earlier images, image.isCover = true ∧ image.id ∈ later) ↔
        ∃ image ∈ images, image.isCover = true ∧ image.id ∈ earlier ++ later := by
      constructor
      · rintro ⟨image, mem, cover, late⟩
        exact ⟨image, List.mem_of_mem_filter mem, cover, List.mem_append_right earlier late⟩
      · rintro ⟨image, mem, cover, either⟩
        have early := kept image mem cover
        exact ⟨image, List.mem_filter.mpr ⟨mem, by simpa using early⟩, cover,
          (List.mem_append.mp either).resolve_left early⟩
    rw [leftBy_of_kept kept, leftBy, leftBy, withoutIds_append]
    simp only [same]

/-- The survivors of one deletion are those that are left without its image. -/
theorem withSuccessor_eq_leftBy {target : ImageRecord} {earlier later : List ImageRecord}
    (distinct : ((earlier ++ target :: later).map (·.id)).Nodup) :
    withSuccessor target (earlier ++ later) = leftBy [target.id] (earlier ++ target :: later) := by
  have survivors : withoutIds [target.id] (earlier ++ target :: later) = earlier ++ later := by
    rw [← filter_id_ne distinct]
    simp [withoutIds]
  have mem : target ∈ earlier ++ target :: later := by simp
  rw [withSuccessor]
  split
  · rename_i cover
    rw [leftBy_of_gone ⟨target, mem, cover, by simp⟩, survivors]
  · rename_i plain
    rw [leftBy_of_kept, survivors]
    intro image imageMem cover same
    cases eq_of_id_eq distinct imageMem mem (List.mem_singleton.mp same)
    exact plain cover

@[simp]
theorem map_id_withSuccessor {target : ImageRecord} {survivors : List ImageRecord} :
    (withSuccessor target survivors).map (·.id) = survivors.map (·.id) := by
  rw [withSuccessor]
  split
  · cases survivors <;> simp [coveredByFirst, Function.comp_def]
  · rfl

/-! ## Positions on the way -/

/-- An image but for its position. -/
def ImageRecord.unplaced (image : ImageRecord) : ImageRecord :=
  { image with sortOrder := 0 }

theorem renumbered_map_unplaced (images : List ImageRecord) :
    renumbered (images.map ImageRecord.unplaced) = renumbered images := by
  apply List.ext_getElem (by simp [renumbered])
  intro index _ _
  simp [renumbered, ImageRecord.unplaced]

theorem map_unplaced_renumbered (images : List ImageRecord) :
    (renumbered images).map ImageRecord.unplaced = images.map ImageRecord.unplaced := by
  apply List.ext_getElem (by simp [renumbered])
  intro index _ _
  simp [renumbered, ImageRecord.unplaced]

theorem coveredByFirst_map_unplaced (images : List ImageRecord) :
    coveredByFirst (images.map ImageRecord.unplaced) =
      (coveredByFirst images).map ImageRecord.unplaced := by
  cases images with
  | nil => rfl
  | cons first others => simp [coveredByFirst, ImageRecord.unplaced, Function.comp_def]

theorem leftBy_map_unplaced (ids : List Int) (images : List ImageRecord) :
    leftBy ids (images.map ImageRecord.unplaced) =
      (leftBy ids images).map ImageRecord.unplaced := by
  have survivors : withoutIds ids (images.map ImageRecord.unplaced) =
      (withoutIds ids images).map ImageRecord.unplaced := by
    rw [withoutIds, withoutIds, List.filter_map]
    rfl
  have same : (∃ image ∈ images.map ImageRecord.unplaced,
      image.isCover = true ∧ image.id ∈ ids) ↔
        ∃ image ∈ images, image.isCover = true ∧ image.id ∈ ids := by
    simp [ImageRecord.unplaced]
  rw [leftBy, leftBy, survivors, coveredByFirst_map_unplaced, apply_ite (List.map _)]
  simp only [same]

/-- Positions that are given on the way do not count. -/
theorem renumbered_leftBy_renumbered (ids : List Int) (images : List ImageRecord) :
    renumbered (leftBy ids (renumbered images)) = renumbered (leftBy ids images) := by
  rw [← renumbered_map_unplaced, ← leftBy_map_unplaced, map_unplaced_renumbered,
    leftBy_map_unplaced, renumbered_map_unplaced]

/-! ## One deletion after the other -/

/-- A property of stores with which their transactions come to their end, and which a commit
keeps. -/
structure Steady [GalleryTx τ] [TxView τ] [GalleryStore σ τ] [Obliging σ τ] (works : σ → Prop) :
    Prop where
  ready {store : σ} (working : works store) (parent : String) :
    Ready σ (GalleryStore.start store parent)
  commit {store : σ} (working : works store) (tx : τ) : works (GalleryStore.commit tx store).2

theorem MemoryStore.steady : Steady fun store : MemoryStore => store.failCommits = false where
  ready working parent := MemoryStore.ready_start working parent
  commit {store} working tx := by
    change (MemoryStore.commit tx store).2.failCommits = false
    unfold MemoryStore.commit
    split
    · exact working
    · exact working

theorem Fallible.steady :
    Steady fun store : Fallible Database => ∀ call tried, store.refusals call tried = none where
  ready working parent := Fallible.ready_start working parent
  commit {store} working tx := by
    simp only [GalleryStore.commit]
    split
    · exact working
    · exact working

theorem FileStore.steady :
    Steady fun store : FileStore => ∀ call tried, store.refusals call tried = none where
  ready working parent := FileStore.ready_start working parent
  commit {store} working tx := by
    change ∀ call tried, (store.commit tx).2.refusals call tried = none
    unfold FileStore.commit
    split
    · exact working
    · exact working

namespace Manager

section Deletions

variable [GalleryTx τ] [GalleryStore σ τ] [ParentStore σ]

/-- Delete images of a parent one after the other. -/
def deleteAll [BlobStore β] (manager : Manager σ β) (parentId : String) :
    List Int → List (Except GalleryError DeleteOutcome) × Manager σ β
  | [] => ([], manager)
  | id :: ids =>
    let (answer, after) := manager.delete parentId id
    let (answers, last) := after.deleteAll parentId ids
    (answer :: answers, last)

/-- What deleting images of a parent in some order does. Of the order only the answers tell: the
gallery that is left is told by the ids alone. -/
structure DeletesTogether (manager : Manager σ (Faulty LocalBlobs)) (parentId : String)
    (ids order : List Int) : Prop where
  /-- All of them are deleted. -/
  succeeds : ∃ outcomes : List DeleteOutcome,
    (manager.deleteAll parentId order).1 = outcomes.map .ok ∧ outcomes.map (·.deletedId) = order
  /-- If no cover goes, the survivors keep their flags. -/
  kept (some : ids ≠ [])
    (small : (GalleryStore.listImages manager.store parentId).length ≤ UInt32.size)
    (kept : ∀ image ∈ GalleryStore.listImages manager.store parentId,
      image.isCover = true → image.id ∉ ids) :
    GalleryStore.listImages (manager.deleteAll parentId order).2.store parentId =
      renumbered (withoutIds ids (GalleryStore.listImages manager.store parentId))
  /-- If a cover goes, the first survivor is the only cover. -/
  promoted (small : (GalleryStore.listImages manager.store parentId).length ≤ UInt32.size)
    (gone : ∃ image ∈ GalleryStore.listImages manager.store parentId,
      image.isCover = true ∧ image.id ∈ ids) :
    GalleryStore.listImages (manager.deleteAll parentId order).2.store parentId =
      renumbered (coveredByFirst
        (withoutIds ids (GalleryStore.listImages manager.store parentId)))
  idle (none : ids = []) : (manager.deleteAll parentId order).2 = manager
  others (other : String) (differ : other ≠ parentId) :
    GalleryStore.listImages (manager.deleteAll parentId order).2.store other =
      GalleryStore.listImages manager.store other

variable [TxView τ] [Obliging σ τ] {works : σ → Prop}

omit [ParentStore σ] in
theorem works_commitWith (steady : Steady works) {manager : Manager σ β}
    (working : works manager.store) {α : Type} (tx : τ) (value : α) :
    works (manager.commitWith tx value).2.store := by
  have kept := steady.commit working tx
  unfold commitWith
  split
  · rename_i store published
    rwa [published] at kept
  · rename_i store refused
    rwa [refused] at kept

omit [ParentStore σ] in
/-- A store that works goes on working after a deletion. -/
theorem works_delete [BlobStore β] (steady : Steady works) {manager : Manager σ β}
    (working : works manager.store) (parentId : String) (id : Int) :
    works (manager.delete parentId id).2.store := by
  change works (manager.withdraw parentId id).2.store
  unfold withdraw
  dsimp only
  split
  · exact working
  · split
    · exact working
    · rename_i tx _
      have kept := works_commitWith steady working tx ()
      split
      · rename_i middle committed
        rwa [committed] at kept
      · rename_i middle committed
        rw [committed] at kept
        dsimp only
        split
        · exact kept
        · exact kept

variable [LawfulTx τ] [StoreView σ τ] [LawfulStore σ τ]
  {manager : Manager σ (Faulty LocalBlobs)} {parentId : String} {id : Int}

/-- One deletion of several: the image goes, the store goes on working, and the others are left with
their ids. -/
structure DeletesOne (works : σ → Prop) (manager after : Manager σ (Faulty LocalBlobs))
    (parentId : String) (id : Int) (outcome : DeleteOutcome) : Prop where
  deleted : manager.delete parentId id = (.ok outcome, after)
  deletedId_eq : outcome.deletedId = id
  works : works after.store
  ids : ((GalleryStore.listImages after.store parentId).map (·.id)).Perm
    ((withoutIds [id] (GalleryStore.listImages manager.store parentId)).map (·.id))
  listed (small : (GalleryStore.listImages manager.store parentId).length ≤ UInt32.size) :
    GalleryStore.listImages after.store parentId =
      renumbered (leftBy [id] (GalleryStore.listImages manager.store parentId))
  others (other : String) (differ : other ≠ parentId) :
    GalleryStore.listImages after.store other = GalleryStore.listImages manager.store other

theorem exists_deletesOne (steady : Steady works) (working : works manager.store)
    (distinct : ((GalleryStore.listImages manager.store parentId).map (·.id)).Nodup)
    (member : id ∈ (GalleryStore.listImages manager.store parentId).map (·.id)) :
    ∃ outcome after, DeletesOne works manager after parentId id outcome := by
  have full : DeletesInFull (works manager.store) manager parentId id :=
    deletesInFull_of_distinct distinct (steady.ready · parentId)
  obtain ⟨outcome, succeeded⟩ := full.succeeds working (List.mem_map.mp member)
  obtain ⟨earlier, target, later, rfl, former, leaves⟩ := full.leaves succeeded
  rw [former] at distinct
  have survivors : withoutIds [target.id] (earlier ++ target :: later) = earlier ++ later := by
    rw [← filter_id_ne distinct]
    simp [withoutIds]
  refine ⟨outcome, (manager.delete parentId target.id).2, Prod.ext succeeded rfl,
    leaves.deletedId_eq, works_delete steady working parentId target.id, ?_, ?_, leaves.others⟩
  · have ids := leaves.held.map (·.id)
    rwa [map_id_renumbered, map_id_withSuccessor, ← survivors, ← former] at ids
  · intro small
    rw [former] at small ⊢
    rw [← withSuccessor_eq_leftBy distinct]
    refine leaves.listed (Nat.le_trans ?_ small)
    simp

/-- Several deletions, one after the other. -/
structure DeletesEach (manager : Manager σ (Faulty LocalBlobs)) (parentId : String)
    (ids : List Int) : Prop where
  succeeds : ∃ outcomes : List DeleteOutcome,
    (manager.deleteAll parentId ids).1 = outcomes.map .ok ∧ outcomes.map (·.deletedId) = ids
  listed (some : ids ≠ [])
    (small : (GalleryStore.listImages manager.store parentId).length ≤ UInt32.size) :
    GalleryStore.listImages (manager.deleteAll parentId ids).2.store parentId =
      renumbered (leftBy ids (GalleryStore.listImages manager.store parentId))
  others (other : String) (differ : other ≠ parentId) :
    GalleryStore.listImages (manager.deleteAll parentId ids).2.store other =
      GalleryStore.listImages manager.store other

/-- Different images of the parent are deleted one after the other. -/
theorem deletesEach_of_steady (steady : Steady works) {ids : List Int}
    (working : works manager.store)
    (distinct : ((GalleryStore.listImages manager.store parentId).map (·.id)).Nodup)
    (members : ∀ id ∈ ids, id ∈ (GalleryStore.listImages manager.store parentId).map (·.id))
    (once : ids.Nodup) : DeletesEach manager parentId ids := by
  induction ids generalizing manager with
  | nil => exact ⟨⟨[], rfl, rfl⟩, fun some => absurd rfl some, fun _ _ => rfl⟩
  | cons id ids ih =>
      obtain ⟨here, there⟩ := List.forall_mem_cons.mp members
      obtain ⟨fresh, onceThere⟩ := List.nodup_cons.mp once
      obtain ⟨outcome, after, one⟩ := exists_deletesOne steady working distinct here
      have shorter : ((withoutIds [id] (GalleryStore.listImages manager.store parentId)).map
          (·.id)).Sublist ((GalleryStore.listImages manager.store parentId).map (·.id)) :=
        List.filter_sublist.map _
      have left : ∀ other ∈ ids,
          other ∈ (GalleryStore.listImages after.store parentId).map (·.id) := by
        intro other mem
        obtain ⟨image, imageMem, named⟩ := List.mem_map.mp (there other mem)
        have differ : image.id ≠ id := fun same => fresh (by rwa [← same, named])
        rw [one.ids.mem_iff, ← named]
        exact List.mem_map_of_mem (List.mem_filter.mpr ⟨imageMem, by simpa using differ⟩)
      have rest := ih one.works (one.ids.nodup_iff.mpr (distinct.sublist shorter)) left onceThere
      obtain ⟨outcomes, answers, named⟩ := rest.succeeds
      have all : manager.deleteAll parentId (id :: ids) =
          (.ok outcome :: (after.deleteAll parentId ids).1, (after.deleteAll parentId ids).2) := by
        rw [deleteAll, one.deleted]
      constructor
      · refine ⟨outcome :: outcomes, ?_, ?_⟩
        · rw [all, answers, List.map_cons]
        · rw [List.map_cons, one.deletedId_eq, named]
      · intro _ small
        rw [all]
        by_cases last : ids = []
        · subst last
          exact one.listed small
        · have smaller : (GalleryStore.listImages after.store parentId).length ≤ UInt32.size := by
            have lengths := one.ids.length_eq.trans_le shorter.length_le
            rw [List.length_map, List.length_map] at lengths
            exact Nat.le_trans lengths small
          rw [rest.listed last smaller, one.listed small, renumbered_leftBy_renumbered,
            leftBy_append, List.singleton_append]
      · intro other differ
        rw [all, rest.others other differ, one.others other differ]

/-- Different images of the parent are deleted in whichever order. -/
theorem deletesTogether_of_steady (steady : Steady works) {ids order : List Int}
    (permuted : order.Perm ids) (working : works manager.store)
    (distinct : ((GalleryStore.listImages manager.store parentId).map (·.id)).Nodup)
    (members : ∀ id ∈ ids, id ∈ (GalleryStore.listImages manager.store parentId).map (·.id))
    (once : ids.Nodup) : DeletesTogether manager parentId ids order := by
  have each : DeletesEach manager parentId order :=
    deletesEach_of_steady steady working distinct
      (fun id mem => members id (permuted.mem_iff.mp mem)) (permuted.nodup_iff.mpr once)
  constructor
  · exact each.succeeds
  · intro some small kept
    have asked : order ≠ [] := fun nothing => some (nothing ▸ permuted).symm.eq_nil
    rw [each.listed asked small, leftBy_eq_of_perm permuted, leftBy_of_kept kept]
  · intro small gone
    have asked : order ≠ [] := by
      rintro rfl
      obtain ⟨image, -, -, mem⟩ := gone
      exact absurd (permuted.mem_iff.mpr mem) List.not_mem_nil
    rw [each.listed asked small, leftBy_eq_of_perm permuted, leftBy_of_gone gone]
  · rintro rfl
    rw [permuted.eq_nil]
    rfl
  · exact each.others

end Deletions

/-- In memory, in a database and in a file that refuse nothing, deletions of different images of a
parent commute, whatever positions and however many covers the images have. -/
theorem deletesTogether_of_everyStore (parentId : String) (ids order : List Int)
    (permuted : order.Perm ids) (once : ids.Nodup) :
    (∀ manager : Manager MemoryStore (Faulty LocalBlobs),
      manager.store.failCommits = false →
        ((GalleryStore.listImages manager.store parentId).map (·.id)).Nodup →
          (∀ id ∈ ids, id ∈ (GalleryStore.listImages manager.store parentId).map (·.id)) →
            DeletesTogether manager parentId ids order) ∧
    (∀ manager : Manager (Fallible Database) (Faulty LocalBlobs),
      (∀ call tried, manager.store.refusals call tried = none) →
        ((GalleryStore.listImages manager.store parentId).map (·.id)).Nodup →
          (∀ id ∈ ids, id ∈ (GalleryStore.listImages manager.store parentId).map (·.id)) →
            DeletesTogether manager parentId ids order) ∧
    ∀ manager : Manager FileStore (Faulty LocalBlobs),
      (∀ call tried, manager.store.refusals call tried = none) →
        ((GalleryStore.listImages manager.store parentId).map (·.id)).Nodup →
          (∀ id ∈ ids, id ∈ (GalleryStore.listImages manager.store parentId).map (·.id)) →
            DeletesTogether manager parentId ids order :=
  ⟨fun _ working distinct members =>
      deletesTogether_of_steady MemoryStore.steady permuted working distinct members once,
    fun _ working distinct members =>
      deletesTogether_of_steady Fallible.steady permuted working distinct members once,
    fun _ working distinct members =>
      deletesTogether_of_steady FileStore.steady permuted working distinct members once⟩

theorem mem_listImages_of_holdsUneven [GalleryTx τ] [TxView τ] [GalleryStore σ τ] [ParentStore σ]
    [StoreView σ τ] [LawfulStore σ τ] {store : σ} (holds : HoldsUneven store) :
    ∀ id ∈ ([2, 4] : List Int), id ∈ (GalleryStore.listImages store "p").map (·.id) := by
  intro id mem
  rw [LawfulStore.listImages_eq, ((arrange_perm _).map _).mem_iff, holds.images_eq]
  revert id
  decide

/-- The image that follows the cover of a gallery goes, and then the cover. -/
theorem deletesTogether_uneven :
    DeletesTogether (ofStore MemoryStore.uneven) "p" [2, 4] [4, 2] ∧
    DeletesTogether (ofStore ({ inner := .uneven } : Fallible Database)) "p" [2, 4] [4, 2] ∧
    ∃ store : FileStore, store.database = { inner := .uneven } ∧
      DeletesTogether (ofStore store) "p" [2, 4] [4, 2] := by
  obtain ⟨store, database, works⟩ := exists_file .uneven
  have permuted : ([4, 2] : List Int).Perm [2, 4] := .swap 2 4 []
  have once : ([2, 4] : List Int).Nodup := by decide
  refine ⟨?_, ?_, store, database, ?_⟩
  · exact (deletesTogether_of_everyStore "p" [2, 4] [4, 2] permuted once).1 (ofStore _) rfl
      (MemoryStore.holdsUneven.distinct "p")
      (mem_listImages_of_holdsUneven MemoryStore.holdsUneven)
  · exact (deletesTogether_of_everyStore "p" [2, 4] [4, 2] permuted once).2.1 (ofStore _)
      (fun _ _ => rfl) (Fallible.holdsUneven.distinct "p")
      (mem_listImages_of_holdsUneven Fallible.holdsUneven)
  · exact (deletesTogether_of_everyStore "p" [2, 4] [4, 2] permuted once).2.2 (ofStore _) works
      ((FileStore.holdsUneven database).distinct "p")
      (mem_listImages_of_holdsUneven (FileStore.holdsUneven database))

end Manager

end ImageGallery
