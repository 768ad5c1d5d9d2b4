import ImageGallery.Proofs.Completion
import ImageGallery.Proofs.Gallery

/-!
# What refusals depend on

A store may refuse calls, but it does not look at its images when it does so: two transactions that
are refused the same calls from some point on, and that change images with the same ids, come to
the same ends. So whether the cover can be chosen does not depend on the positions of images, nor
whether they can be reordered on their covers.
-/

namespace ImageGallery

variable {σ τ β α : Type}

/-- A store whose refusals do not depend on what it holds: they are the same for transactions that
are level, and transactions stay level when they change images of the same ids. -/
class Impartial (σ : Type) (τ : outParam Type) [GalleryTx τ] [TxView τ] [GalleryStore σ τ] where
  Level : τ → τ → Prop
  /-- Stores whose transactions are level when they are started. -/
  LevelStores : σ → σ → Prop
  level_refl (store : σ) : LevelStores store store
  level_start {first second : σ} (level : LevelStores first second) (parent : String) :
    Level (GalleryStore.start first parent) (GalleryStore.start second parent)
  level_commit (store : σ) (tx : τ) : LevelStores (GalleryStore.commit tx store).2 store
  setSortOrder_congr {first second : τ} (level : Level first second) {id : Int} (order : UInt32)
    (firstMem : ∃ image ∈ (TxView.draft first).images, image.id = id)
    (secondMem : ∃ image ∈ (TxView.draft second).images, image.id = id) :
    (GalleryTx.setSortOrder first id order).1.toBool =
        (GalleryTx.setSortOrder second id order).1.toBool ∧
      Level (GalleryTx.setSortOrder first id order).2 (GalleryTx.setSortOrder second id order).2
  assignExclusiveCover_congr {first second : τ} (level : Level first second) {id : Int}
    (firstMem : ∃ image ∈ (TxView.draft first).images, image.id = id)
    (secondMem : ∃ image ∈ (TxView.draft second).images, image.id = id) :
    (GalleryTx.assignExclusiveCover first id).1.toBool =
        (GalleryTx.assignExclusiveCover second id).1.toBool ∧
      Level (GalleryTx.assignExclusiveCover first id).2
        (GalleryTx.assignExclusiveCover second id).2
  commit_congr {first second : τ} (level : Level first second) (store other : σ) :
    (GalleryStore.commit first store).1.toBool = (GalleryStore.commit second other).1.toBool

export Impartial (Level LevelStores)

/-! ## The stores -/

section Predictable

variable [GalleryTx τ] [TxView τ] [PredictableTx τ] {first second : τ} {id : Int}

/-- Nothing is refused for the images that are there. -/
theorem PredictableTx.toBool_setSortOrder (order : UInt32)
    (member : ∃ image ∈ (TxView.draft first).images, image.id = id) :
    (GalleryTx.setSortOrder first id order).1.toBool = true := by
  obtain ⟨next, moved⟩ := PredictableTx.exists_setSortOrder order member
  rw [moved]
  rfl

theorem PredictableTx.toBool_assignExclusiveCover
    (member : ∃ image ∈ (TxView.draft first).images, image.id = id) :
    (GalleryTx.assignExclusiveCover first id).1.toBool = true := by
  obtain ⟨next, assigned⟩ := PredictableTx.exists_assignExclusiveCover member
  rw [assigned]
  rfl

end Predictable

instance : Impartial MemoryStore MemoryTx where
  Level first second := first.failCommit = second.failCommit
  LevelStores first second := first.failCommits = second.failCommits
  level_refl _ := rfl
  level_start level _ := level
  level_commit store tx := by
    change (MemoryStore.commit tx store).2.failCommits = _
    unfold MemoryStore.commit
    split <;> rfl
  setSortOrder_congr {first second} level {id} order firstMem secondMem := by
    rw [PredictableTx.toBool_setSortOrder order firstMem,
      PredictableTx.toBool_setSortOrder order secondMem]
    exact ⟨rfl, (MemoryStore.failCommit_update first id _).trans
      (level.trans (MemoryStore.failCommit_update second id _).symm)⟩
  assignExclusiveCover_congr {first second} level {id} firstMem secondMem := by
    rw [PredictableTx.toBool_assignExclusiveCover firstMem,
      PredictableTx.toBool_assignExclusiveCover secondMem]
    exact ⟨rfl, (MemoryStore.failCommit_assignExclusiveCover first id).trans
      (level.trans (MemoryStore.failCommit_assignExclusiveCover second id).symm)⟩
  commit_congr {first second} level store other := by
    change (MemoryStore.commit first store).1.toBool = (MemoryStore.commit second other).1.toBool
    unfold MemoryStore.commit
    rw [show first.failCommit = second.failCommit from level]
    split <;> rfl

instance : Impartial Database DatabaseTx where
  Level _ _ := True
  LevelStores _ _ := True
  level_refl _ := trivial
  level_start _ _ := trivial
  level_commit _ _ := trivial
  setSortOrder_congr {_ _} _ {_} order firstMem secondMem := by
    rw [PredictableTx.toBool_setSortOrder order firstMem,
      PredictableTx.toBool_setSortOrder order secondMem]
    exact ⟨rfl, trivial⟩
  assignExclusiveCover_congr {_ _} _ {_} firstMem secondMem := by
    rw [PredictableTx.toBool_assignExclusiveCover firstMem,
      PredictableTx.toBool_assignExclusiveCover secondMem]
    exact ⟨rfl, trivial⟩
  commit_congr _ _ _ := rfl

namespace FallibleTx

/-- Transactions that are refused the same from now on, with what they are around in a relation. -/
structure Abreast (level : τ → τ → Prop) (first second : FallibleTx τ) : Prop where
  inner : level first.inner second.inner
  refusals_eq : first.refusals = second.refusals
  tried_eq : first.tried = second.tried

variable {level : τ → τ → Prop} {first second : FallibleTx τ}

/-- Attempts are refused together, or else have the outcomes of what they are around. -/
theorem Abreast.attempt (abreast : Abreast level first second) (call : TxCall)
    {firstResult secondResult : Except StoreError α × τ}
    (inside : firstResult.1.toBool = secondResult.1.toBool ∧
      level firstResult.2 secondResult.2) :
    (first.attempt call firstResult).1.toBool = (second.attempt call secondResult).1.toBool ∧
      Abreast level (first.attempt call firstResult).2 (second.attempt call secondResult).2 := by
  obtain ⟨inner, refusals, tried⟩ := abreast
  unfold FallibleTx.attempt
  rw [refusals, tried]
  split
  · exact ⟨rfl, inner, rfl, rfl⟩
  · exact ⟨inside.1, inside.2, rfl, rfl⟩

end FallibleTx

instance [GalleryTx τ] [TxView τ] [GalleryStore σ τ] [Impartial σ τ] :
    Impartial (Fallible σ) (FallibleTx τ) where
  Level := FallibleTx.Abreast (Level σ)
  LevelStores first second :=
    LevelStores first.inner second.inner ∧ first.refusals = second.refusals
  level_refl store := ⟨Impartial.level_refl store.inner, rfl⟩
  level_start level parent := ⟨Impartial.level_start level.1 parent, level.2, rfl⟩
  level_commit store tx := by
    simp only [GalleryStore.commit]
    split
    · exact ⟨Impartial.level_refl store.inner, rfl⟩
    · exact ⟨Impartial.level_commit store.inner tx.inner, rfl⟩
  setSortOrder_congr {first second} level {id} order firstMem secondMem :=
    level.attempt .setSortOrder
      (Impartial.setSortOrder_congr level.inner order firstMem secondMem)
  assignExclusiveCover_congr {first second} level {id} firstMem secondMem :=
    level.attempt .assignExclusiveCover
      (Impartial.assignExclusiveCover_congr level.inner firstMem secondMem)
  commit_congr {first second} level store other := by
    simp only [GalleryStore.commit]
    rw [level.refusals_eq, level.tried_eq]
    split
    · rfl
    · exact Impartial.commit_congr level.inner store.inner other.inner

theorem FileStore.toBool_commit (store : FileStore) (tx : FallibleTx DatabaseTx) :
    (store.commit tx).1.toBool = (GalleryStore.commit tx store.database).1.toBool := by
  unfold FileStore.commit
  rcases GalleryStore.commit tx store.database with ⟨_ | _, database⟩ <;> rfl

instance : Impartial FileStore (FallibleTx DatabaseTx) where
  Level := Level (Fallible Database)
  LevelStores first second := first.refusals = second.refusals
  level_refl _ := rfl
  level_start {first second} level parent := by
    have inner : LevelStores first.database second.database := ⟨trivial, level⟩
    exact Impartial.level_start inner parent
  level_commit store tx := by
    change (store.commit tx).2.refusals = _
    unfold FileStore.commit
    split <;> rfl
  setSortOrder_congr := Impartial.setSortOrder_congr
  assignExclusiveCover_congr := Impartial.assignExclusiveCover_congr
  commit_congr {first second} level store other := by
    have inner := Impartial.commit_congr level store.database other.database
    change (store.commit first).1.toBool = (other.commit second).1.toBool
    rw [store.toBool_commit, other.toBool_commit, inner]

/-! ## Operations -/

namespace Manager

section Plans

variable [GalleryTx τ] [TxView τ] [LawfulTx τ] [GalleryStore σ τ] [Impartial σ τ]

/-- A plan that names images of both galleries is carried out in both or in none. -/
theorem place_congr {first second : τ} (level : Level σ first second) {plan : List (Int × UInt32)}
    (firstNamed : ∀ move ∈ plan, move.1 ∈ (TxView.draft first).images.map (·.id))
    (secondNamed : ∀ move ∈ plan, move.1 ∈ (TxView.draft second).images.map (·.id)) :
    (∃ next last, place first plan = .ok next ∧ place second plan = .ok last ∧
        Level σ next last) ∨
      ∃ error other, place first plan = .error error ∧ place second plan = .error other := by
  induction plan generalizing first second with
  | nil => exact .inl ⟨first, second, rfl, rfl, level⟩
  | cons move plan ih =>
      obtain ⟨firstHere, firstOthers⟩ := List.forall_mem_cons.mp firstNamed
      obtain ⟨secondHere, secondOthers⟩ := List.forall_mem_cons.mp secondNamed
      obtain ⟨together, levelNext⟩ := Impartial.setSortOrder_congr level move.2
        (List.mem_map.mp firstHere) (List.mem_map.mp secondHere)
      rw [place, place]
      rcases moved : GalleryTx.setSortOrder first move.1 move.2 with ⟨error | _, next⟩ <;>
        rcases movedToo : GalleryTx.setSortOrder second move.1 move.2 with ⟨other | _, last⟩ <;>
        rw [moved, movedToo] at together levelNext
      · exact .inr ⟨_, _, rfl, rfl⟩
      · cases together
      · cases together
      · exact ih levelNext (map_id_of_setSortOrder moved ▸ firstOthers)
          (map_id_of_setSortOrder movedToo ▸ secondOthers)

omit [GalleryTx τ] [TxView τ] [LawfulTx τ] [Impartial σ τ] in
theorem toBool_commitWith (manager : Manager σ β) (tx : τ) (value : α) :
    (manager.commitWith tx value).1.toBool = (GalleryStore.commit tx manager.store).1.toBool := by
  unfold commitWith
  rcases GalleryStore.commit tx manager.store with ⟨_ | _, after⟩ <;> rfl

end Plans

section Operations

variable [GalleryTx τ] [TxView τ] [LawfulTx τ] [GalleryStore σ τ] [ParentStore σ] [StoreView σ τ]
  [LawfulStore σ τ]

omit [GalleryStore σ τ] [ParentStore σ] [StoreView σ τ] [LawfulStore σ τ] in
theorem isSome_get? (tx : τ) (id : Int) :
    (GalleryTx.get? tx id).isSome = decide (id ∈ (TxView.draft tx).images.map (·.id)) := by
  rw [LawfulTx.get?_eq, List.isSome_find?, Bool.eq_iff_iff, List.any_eq_true, decide_eq_true_iff,
    List.mem_map]
  simp only [decide_eq_true_eq]

/-- The cover can be chosen if the image is there and neither of the two calls is refused. -/
theorem toBool_flag (manager : Manager σ β) (parentId : String) (id : Int) :
    (manager.flag parentId id).1.toBool =
      (decide (id ∈ (StoreView.images manager.store parentId).map (·.id)) &&
        (GalleryTx.assignExclusiveCover
          (GalleryStore.start manager.store parentId) id).1.toBool &&
        (GalleryStore.commit (GalleryTx.assignExclusiveCover
          (GalleryStore.start manager.store parentId) id).2 manager.store).1.toBool) := by
  have known := isSome_get? (GalleryStore.start manager.store parentId) id
  rw [LawfulStore.draft_start] at known
  rw [← known]
  unfold flag
  dsimp only
  split
  · rename_i missing
    rw [missing]
    rfl
  · rename_i found
    rw [found] at known ⊢
    split
    · rename_i refused
      rw [refused]
      rfl
    · rename_i next assigned
      have again := isSome_get? next id
      rw [LawfulTx.assignExclusiveCover_of_ok assigned, LawfulStore.draft_start, Draft.cover,
        ← withCover, map_id_withCover] at again
      rw [← known] at again
      split
      · rename_i missing
        rw [missing] at again
        cases again
      · rw [toBool_commitWith, assigned]
        rfl

/-- A payload that is accepted is carried out if none of the calls for its plan is refused. -/
theorem toBool_rearrange {items : List ReorderItem} {positions : Positions}
    (accepted : Positions.ofItems items = .ok positions) (manager : Manager σ β)
    (parentId : String) :
    (manager.rearrange parentId items).1.toBool =
      match place (GalleryStore.start manager.store parentId)
          (planRanks (ImageRecord.arrange (StoreView.images manager.store parentId))
            (wanted positions)) with
      | .error _ => false
      | .ok tx => (GalleryStore.commit tx manager.store).1.toBool := by
  have listed : GalleryTx.list (GalleryStore.start manager.store parentId) =
      ImageRecord.arrange (StoreView.images manager.store parentId) := by
    rw [LawfulTx.list_eq, LawfulStore.draft_start]
  unfold rearrange
  rw [accepted]
  dsimp only
  rw [listed]
  split
  · rename_i refused
    rw [show place _ (planRanks _ (wanted positions)) = _ from refused]
    rfl
  · rename_i done
    rw [show place _ (planRanks _ (wanted positions)) = _ from done]
    exact toBool_commitWith manager _ _

variable [Impartial σ τ] {first second : Manager σ β} {parentId : String}

/-- Whether the cover can be chosen depends on the ids of the images only. -/
theorem toBool_flag_congr (level : LevelStores first.store second.store)
    (ids : (StoreView.images first.store parentId).map (·.id) =
      (StoreView.images second.store parentId).map (·.id)) (id : Int) :
    (first.flag parentId id).1.toBool = (second.flag parentId id).1.toBool := by
  rw [toBool_flag, toBool_flag, ids]
  by_cases member : id ∈ (StoreView.images second.store parentId).map (·.id)
  · have firstMem := List.mem_map.mp (ids ▸ member)
    have secondMem := List.mem_map.mp member
    have started (manager : Manager σ β) := LawfulStore.draft_start manager.store parentId
    obtain ⟨together, levelNext⟩ := Impartial.assignExclusiveCover_congr
      (Impartial.level_start level parentId) (by rw [started]; exact firstMem)
      (by rw [started]; exact secondMem)
    rw [together, Impartial.commit_congr levelNext]
  · rw [decide_eq_false member]
    rfl

/-- Whether a gallery can be reordered depends on the ids of its images and on the plan. -/
theorem toBool_rearrange_congr (level : LevelStores first.store second.store)
    (ids : (StoreView.images first.store parentId).map (·.id) =
      (StoreView.images second.store parentId).map (·.id)) {items : List ReorderItem}
    (plans : ∀ positions,
      planRanks (ImageRecord.arrange (StoreView.images first.store parentId))
          (wanted positions) =
        planRanks (ImageRecord.arrange (StoreView.images second.store parentId))
          (wanted positions)) :
    (first.rearrange parentId items).1.toBool = (second.rearrange parentId items).1.toBool := by
  rcases accepted : Positions.ofItems items with error | positions
  · rw [rearrange, rearrange, accepted]
  · have named : ∀ move ∈ planRanks (ImageRecord.arrange (StoreView.images second.store parentId))
        (wanted positions), move.1 ∈ (StoreView.images second.store parentId).map (·.id) :=
      fun move planned =>
        ((arrange_perm _).map _).mem_iff.mp (fst_mem_of_mem_planRanks planned)
    have placed := place_congr (Impartial.level_start level parentId)
      (by rw [LawfulStore.draft_start]; exact ids ▸ named)
      (by rw [LawfulStore.draft_start]; exact named)
    rw [toBool_rearrange accepted, toBool_rearrange accepted, plans]
    obtain ⟨next, last, done, doneToo, levelNext⟩ | ⟨error, other, failed, failedToo⟩ := placed
    · rw [done, doneToo]
      exact Impartial.commit_congr levelNext first.store second.store
    · rw [failed, failedToo]

end Operations

end Manager

end ImageGallery
