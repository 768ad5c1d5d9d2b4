import ImageGallery.Proofs.Stores

/-!
# Which calls succeed

The laws of a store say what its calls do when they succeed. For the store in memory and the
database, a transaction's draft also tells which calls succeed and how the others fail. This is not
so of a store that may refuse calls.

Three things are left open, since stores differ in them: a second cover, which a database refuses
and memory does not; the cover for an image that is not there, which leaves a database without
covers; and the next position when an image stands at the last one there is.
-/

namespace ImageGallery

/-- An answer that a number does not fit 32 bits. Some stores say which number. -/
def StoreError.Overflow (error : StoreError) (number : Nat) : Prop :=
  UInt32.size ≤ number ∧ (error = .tooMany ∨ error = .outOfRange number)

/-- The draft of a transaction tells which calls succeed. -/
class PredictableTx (τ : Type) [GalleryTx τ] [TxView τ] : Prop extends LawfulTx τ where
  exists_count {tx : τ} (small : (TxView.draft tx).images.length < UInt32.size) :
    ∃ count, GalleryTx.count tx = .ok count
  count_of_large {tx : τ} (large : UInt32.size ≤ (TxView.draft tx).images.length) :
    ∃ error, GalleryTx.count tx = .error error ∧
      error.Overflow (TxView.draft tx).images.length
  exists_nextOrder {tx : τ}
    (small : ∀ image ∈ (TxView.draft tx).images, image.sortOrder.toNat + 1 < UInt32.size) :
    ∃ order, GalleryTx.nextOrder tx = .ok order
  exists_insert {tx : τ} {image : NewImage}
    (single : image.isCover = true → GalleryTx.hasCover tx = false) :
    ∃ record next, GalleryTx.insert tx image = (.ok record, next)
  exists_setSortOrder {tx : τ} {id : Int} (order : UInt32)
    (member : ∃ image ∈ (TxView.draft tx).images, image.id = id) :
    ∃ next, GalleryTx.setSortOrder tx id order = (.ok (), next)
  setSortOrder_of_foreign {tx : τ} {id : Int} (order : UInt32)
    (foreign : ¬∃ image ∈ (TxView.draft tx).images, image.id = id) :
    GalleryTx.setSortOrder tx id order = (.error (.notMember id (TxView.draft tx).parent), tx)
  exists_assignExclusiveCover {tx : τ} {id : Int}
    (member : ∃ image ∈ (TxView.draft tx).images, image.id = id) :
    ∃ next, GalleryTx.assignExclusiveCover tx id = (.ok (), next)

/-- The states of a store in which it refuses no commit, and holds no gallery without images. -/
class Willing (σ : Type) (τ : outParam Type) where
  WillingStore : σ → Prop
  /-- The transaction was started on such a store. -/
  WillingTx : τ → Prop

export Willing (WillingStore WillingTx)

/-- A willing store stays willing, publishes what is committed, and knows the parents that have
images. -/
class PredictableStore (σ : Type) (τ : outParam Type) [GalleryTx τ] [TxView τ] [GalleryStore σ τ]
    [ParentStore σ] [StoreView σ τ] [Willing σ τ] : Prop extends LawfulStore σ τ where
  willing_start {store : σ} (parent : String) (willing : WillingStore store) :
    WillingTx σ (GalleryStore.start store parent)
  willing_insert {tx : τ} (image : NewImage) (willing : WillingTx σ tx) :
    WillingTx σ (GalleryTx.insert tx image).2
  willing_setSortOrder {tx : τ} (id : Int) (order : UInt32) (willing : WillingTx σ tx) :
    WillingTx σ (GalleryTx.setSortOrder tx id order).2
  willing_assignExclusiveCover {tx : τ} (id : Int) (willing : WillingTx σ tx) :
    WillingTx σ (GalleryTx.assignExclusiveCover tx id).2
  willing_delete {tx : τ} (id : Int) (willing : WillingTx σ tx) :
    WillingTx σ (GalleryTx.delete tx id)
  exists_commit {store : σ} {tx : τ} (willingStore : WillingStore store)
    (willingTx : WillingTx σ tx) :
    ∃ after, GalleryStore.commit tx store = (.ok (), after) ∧ WillingStore after
  willing_withRegistry {store : σ} (registry : Registry) (willing : WillingStore store) :
    WillingStore (ParentStore.withRegistry store registry)
  exists_galleryParentIds {store : σ} (willing : WillingStore store) :
    ∃ ids, GalleryStore.galleryParentIds store = sortedIds ids ∧
      ∀ parent, parent ∈ ids ↔ StoreView.images store parent ≠ []

/-! ## In memory -/

namespace MemoryTx

theorem holds_iff {tx : MemoryTx} {id : Int} :
    tx.holds id = true ↔ ∃ image ∈ tx.staged, image.id = id := by
  simp [holds]

instance : PredictableTx MemoryTx where
  exists_count small := ⟨_, if_pos small⟩
  count_of_large large := ⟨.tooMany, if_neg (Nat.not_lt.mpr large), large, .inl rfl⟩
  exists_nextOrder _ := ⟨_, rfl⟩
  exists_insert _ := ⟨_, _, rfl⟩
  exists_setSortOrder _ member := ⟨_, if_pos (holds_iff.mpr member)⟩
  setSortOrder_of_foreign _ foreign := if_neg fun held => foreign (holds_iff.mp held)
  exists_assignExclusiveCover member := ⟨_, if_pos (holds_iff.mpr member)⟩

end MemoryTx

namespace MemoryStore

instance : Willing MemoryStore MemoryTx where
  WillingStore store := store.failCommits = false ∧ ∀ entry ∈ store.galleries, entry.2 ≠ []
  WillingTx tx := tx.failCommit = false

theorem failCommit_update (tx : MemoryTx) (id : Int) (change : ImageRecord → ImageRecord) :
    (tx.update id change).2.failCommit = tx.failCommit := by
  unfold MemoryTx.update
  split <;> rfl

theorem failCommit_assignExclusiveCover (tx : MemoryTx) (id : Int) :
    (tx.assignExclusiveCover id).2.failCommit = tx.failCommit := by
  unfold MemoryTx.assignExclusiveCover
  split <;> rfl

/-- A parent is listed if it has images: no gallery without images is kept. -/
theorem mem_map_fst_galleries {store : MemoryStore} {parent : String}
    (kept : ∀ entry ∈ store.galleries, entry.2 ≠ []) :
    parent ∈ store.galleries.map (·.1) ↔ store.gallery parent ≠ [] := by
  unfold gallery
  cases found : store.galleries.find? fun entry => entry.1 = parent with
  | none =>
      have unnamed := List.find?_eq_none.mp found
      simp only [decide_eq_true_eq] at unnamed
      refine iff_of_false (fun mem => ?_) (fun filled => filled rfl)
      obtain ⟨entry, mem, named⟩ := List.mem_map.mp mem
      exact unnamed entry mem named
  | some entry =>
      have mem := List.mem_of_find?_eq_some found
      have named : entry.1 = parent := by simpa using List.find?_some found
      exact iff_of_true (List.mem_map.mpr ⟨entry, mem, named⟩) (kept entry mem)

/-- Publishing keeps no gallery without images. -/
theorem ne_nil_of_mem_publish {store : MemoryStore} {parent : String} {images : List ImageRecord}
    (kept : ∀ entry ∈ store.galleries, entry.2 ≠ []) :
    ∀ entry ∈ (store.publish parent images).galleries, entry.2 ≠ [] := by
  intro entry mem
  unfold publish at mem
  dsimp only at mem
  split at mem
  · exact kept entry (List.mem_of_mem_filter mem)
  · rename_i filled
    rcases List.mem_cons.mp mem with rfl | mem
    · simpa using filled
    · exact kept entry (List.mem_of_mem_filter mem)

instance : PredictableStore MemoryStore MemoryTx where
  willing_start _ willing := willing.1
  willing_insert _ willing := willing
  willing_setSortOrder id _ willing := (failCommit_update _ id _).trans willing
  willing_assignExclusiveCover id willing := (failCommit_assignExclusiveCover _ id).trans willing
  willing_delete _ willing := willing
  exists_commit {store tx} willingStore willingTx := by
    refine ⟨_, if_neg (by rw [willingTx]; exact Bool.false_ne_true), willingStore.1, ?_⟩
    exact ne_nil_of_mem_publish willingStore.2
  willing_withRegistry _ willing := willing
  exists_galleryParentIds {store} willing := ⟨_, rfl, fun _ => mem_map_fst_galleries willing.2⟩

end MemoryStore

/-! ## In a database -/

namespace Database

theorem exists_answer {value : Nat} (small : value < UInt32.size) :
    ∃ number, answer value = .ok number :=
  ⟨_, if_pos small⟩

theorem answer_of_large {value : Nat} (large : UInt32.size ≤ value) :
    answer value = .error (.outOfRange value) :=
  if_neg (Nat.not_lt.mpr large)

end Database

namespace DatabaseTx

theorem touch_of_member {tx : DatabaseTx} {id : Int} (change : ImageRecord → ImageRecord)
    (member : ∃ image ∈ tx.rows, image.id = id) : ∃ next, tx.touch id change = (.ok (), next) := by
  refine ⟨_, if_pos ?_⟩
  simpa using member

/-- The position after small ones fits 32 bits. -/
theorem foldl_nextOrder_lt {images : List ImageRecord} {greatest : Nat}
    (start : greatest < UInt32.size)
    (small : ∀ image ∈ images, image.sortOrder.toNat + 1 < UInt32.size) :
    images.foldl (fun greatest image => max greatest (image.sortOrder.toNat + 1)) greatest <
      UInt32.size := by
  induction images generalizing greatest with
  | nil => exact start
  | cons image images ih =>
      rw [List.forall_mem_cons] at small
      exact ih (Nat.max_lt.mpr ⟨start, small.1⟩) small.2

instance : PredictableTx DatabaseTx where
  exists_count small := Database.exists_answer small
  count_of_large large := ⟨_, Database.answer_of_large large, large, .inr rfl⟩
  exists_nextOrder small := Database.exists_answer (foldl_nextOrder_lt (by decide) small)
  exists_insert {tx image} single := by
    refine ⟨_, _, if_neg ?_⟩
    intro ⟨isCover, covered⟩
    have coverless := single isCover
    change tx.rows.any (·.isCover) = false at coverless
    rw [coverless] at covered
    cases covered
  exists_setSortOrder _ member := touch_of_member _ member
  setSortOrder_of_foreign {tx id} _ foreign := by
    change ¬∃ image ∈ tx.rows, image.id = id at foreign
    refine if_neg ?_
    simpa using foreign
  exists_assignExclusiveCover {tx id} member := by
    refine touch_of_member _ ?_
    obtain ⟨image, mem, rfl⟩ := member
    have rows := Database.rowsOf_update tx.working tx.parent
      (fun image => image.parentId = tx.parent) (fun image => { image with isCover := false })
      fun _ => rfl
    refine ⟨_, rows ▸ List.mem_map_of_mem mem, ?_⟩
    split <;> rfl

end DatabaseTx

namespace Database

instance : Willing Database DatabaseTx where
  WillingStore _ := True
  WillingTx _ := True

instance : PredictableStore Database DatabaseTx where
  willing_start _ _ := trivial
  willing_insert _ _ := trivial
  willing_setSortOrder _ _ _ := trivial
  willing_assignExclusiveCover _ _ := trivial
  willing_delete _ _ := trivial
  exists_commit _ _ := ⟨_, rfl, trivial⟩
  willing_withRegistry _ _ := trivial
  exists_galleryParentIds {database} _ := by
    refine ⟨_, rfl, fun parent => ?_⟩
    change _ ↔ database.rowsOf parent ≠ []
    simp [rowsOf]

end Database

end ImageGallery
