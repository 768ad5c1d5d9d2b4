import ImageGallery.Proofs.Effects
import ImageGallery.Proofs.FileStore
import ImageGallery.Proofs.Predictable

/-!
# Operations that come to their end

The laws of a store say what an operation did if it succeeded. When nothing is refused without a
reason it does succeed: every statement of its transaction names an image that is there, no second
cover is inserted, and the commit publishes.
-/

namespace ImageGallery

variable {σ τ β α : Type}

/-- A store that refuses a ready transaction nothing without a reason. -/
class Obliging (σ : Type) (τ : outParam Type) [GalleryTx τ] [TxView τ] [GalleryStore σ τ] where
  Ready : τ → Prop
  ready_insert {tx : τ} (image : NewImage) (ready : Ready tx) : Ready (GalleryTx.insert tx image).2
  ready_setSortOrder {tx : τ} (id : Int) (order : UInt32) (ready : Ready tx) :
    Ready (GalleryTx.setSortOrder tx id order).2
  ready_assignExclusiveCover {tx : τ} (id : Int) (ready : Ready tx) :
    Ready (GalleryTx.assignExclusiveCover tx id).2
  ready_delete {tx : τ} (id : Int) (ready : Ready tx) : Ready (GalleryTx.delete tx id)
  exists_count {tx : τ} (ready : Ready tx)
    (small : (TxView.draft tx).images.length < UInt32.size) :
    ∃ count, GalleryTx.count tx = .ok count
  count_of_large {tx : τ} (ready : Ready tx)
    (large : UInt32.size ≤ (TxView.draft tx).images.length) :
    ∃ error, GalleryTx.count tx = .error error ∧ error.Overflow (TxView.draft tx).images.length
  exists_nextOrder {tx : τ} (ready : Ready tx)
    (small : ∀ image ∈ (TxView.draft tx).images, image.sortOrder.toNat + 1 < UInt32.size) :
    ∃ order, GalleryTx.nextOrder tx = .ok order
  exists_insert {tx : τ} {image : NewImage} (ready : Ready tx)
    (single : image.isCover = true → GalleryTx.hasCover tx = false) :
    ∃ record next, GalleryTx.insert tx image = (.ok record, next)
  exists_setSortOrder {tx : τ} {id : Int} (order : UInt32) (ready : Ready tx)
    (member : ∃ image ∈ (TxView.draft tx).images, image.id = id) :
    ∃ next, GalleryTx.setSortOrder tx id order = (.ok (), next)
  exists_assignExclusiveCover {tx : τ} {id : Int} (ready : Ready tx)
    (member : ∃ image ∈ (TxView.draft tx).images, image.id = id) :
    ∃ next, GalleryTx.assignExclusiveCover tx id = (.ok (), next)
  exists_publish {tx : τ} (ready : Ready tx) (store : σ) :
    ∃ after, GalleryStore.commit tx store = (.ok (), after)

export Obliging (Ready)

/-- A store whose transactions are predictable is obliging to those that it publishes. -/
@[reducible]
def Obliging.ofPredictable [GalleryTx τ] [TxView τ] [GalleryStore σ τ] [ParentStore σ]
    [StoreView σ τ] [Willing σ τ] [PredictableTx τ] [PredictableStore σ τ]
    (publish : ∀ {tx : τ}, WillingTx σ tx → ∀ store : σ,
      ∃ after, GalleryStore.commit tx store = (.ok (), after)) : Obliging σ τ where
  Ready := WillingTx σ
  ready_insert := PredictableStore.willing_insert
  ready_setSortOrder := PredictableStore.willing_setSortOrder
  ready_assignExclusiveCover := PredictableStore.willing_assignExclusiveCover
  ready_delete := PredictableStore.willing_delete
  exists_count _ := PredictableTx.exists_count
  count_of_large _ := PredictableTx.count_of_large
  exists_nextOrder _ := PredictableTx.exists_nextOrder
  exists_insert _ := PredictableTx.exists_insert
  exists_setSortOrder order _ := PredictableTx.exists_setSortOrder order
  exists_assignExclusiveCover _ := PredictableTx.exists_assignExclusiveCover
  exists_publish := publish

instance : Obliging MemoryStore MemoryTx :=
  .ofPredictable fun willing _ => ⟨_, if_neg (by rw [willing]; exact Bool.false_ne_true)⟩

instance : Obliging Database DatabaseTx :=
  .ofPredictable fun _ _ => ⟨_, rfl⟩

namespace FallibleTx

/-- No call of the transaction is refused. -/
def Calm (tx : FallibleTx τ) : Prop :=
  ∀ call tried, tx.refusals call tried = none

theorem Calm.attempt {tx : FallibleTx τ} (calm : tx.Calm) (call : TxCall)
    (result : Except StoreError α × τ) :
    tx.attempt call result = (result.1, { tx with inner := result.2, tried := tx.tried + 1 }) := by
  rw [FallibleTx.attempt, calm]

theorem Calm.ask {tx : FallibleTx τ} (calm : tx.Calm) (call : TxCall)
    (answer : Except StoreError α) : tx.ask call answer = answer := by
  rw [FallibleTx.ask, calm]

theorem Calm.after {tx : FallibleTx τ} (calm : tx.Calm) (call : TxCall)
    (result : Except StoreError α × τ) : (tx.attempt call result).2.Calm := by
  rw [calm.attempt]
  exact calm

end FallibleTx

instance [GalleryTx τ] [TxView τ] [GalleryStore σ τ] [Obliging σ τ] :
    Obliging (Fallible σ) (FallibleTx τ) where
  Ready tx := tx.Calm ∧ Ready σ tx.inner
  ready_insert {tx} image ready := by
    change _ ∧ Ready σ (tx.attempt .insert (GalleryTx.insert tx.inner image)).2.inner
    rw [ready.1.attempt]
    exact ⟨ready.1.after _ _, Obliging.ready_insert image ready.2⟩
  ready_setSortOrder {tx} id order ready := by
    change _ ∧ Ready σ (tx.attempt .setSortOrder
      (GalleryTx.setSortOrder tx.inner id order)).2.inner
    rw [ready.1.attempt]
    exact ⟨ready.1.after _ _, Obliging.ready_setSortOrder id order ready.2⟩
  ready_assignExclusiveCover {tx} id ready := by
    change _ ∧ Ready σ (tx.attempt .assignExclusiveCover
      (GalleryTx.assignExclusiveCover tx.inner id)).2.inner
    rw [ready.1.attempt]
    exact ⟨ready.1.after _ _, Obliging.ready_assignExclusiveCover id ready.2⟩
  ready_delete {tx} id ready := ⟨ready.1, Obliging.ready_delete id ready.2⟩
  exists_count ready small := by
    simp only [GalleryTx.count, ready.1.ask]
    exact Obliging.exists_count ready.2 small
  count_of_large ready large := by
    simp only [GalleryTx.count, ready.1.ask]
    exact Obliging.count_of_large ready.2 large
  exists_nextOrder ready small := by
    simp only [GalleryTx.nextOrder, ready.1.ask]
    exact Obliging.exists_nextOrder ready.2 small
  exists_insert ready single := by
    obtain ⟨record, next, inserted⟩ := Obliging.exists_insert ready.2 single
    simp only [GalleryTx.insert, ready.1.attempt, inserted]
    exact ⟨record, _, rfl⟩
  exists_setSortOrder order ready member := by
    obtain ⟨next, moved⟩ := Obliging.exists_setSortOrder order ready.2 member
    simp only [GalleryTx.setSortOrder, ready.1.attempt, moved]
    exact ⟨_, rfl⟩
  exists_assignExclusiveCover ready member := by
    obtain ⟨next, assigned⟩ := Obliging.exists_assignExclusiveCover ready.2 member
    simp only [GalleryTx.assignExclusiveCover, ready.1.attempt, assigned]
    exact ⟨_, rfl⟩
  exists_publish {tx} ready store := by
    obtain ⟨after, published⟩ := Obliging.exists_publish ready.2 store.inner
    refine ⟨{ store with inner := after }, ?_⟩
    simp only [GalleryStore.commit, ready.1 .commit, published]

instance : Obliging FileStore (FallibleTx DatabaseTx) where
  Ready := Ready (Fallible Database)
  ready_insert := Obliging.ready_insert
  ready_setSortOrder := Obliging.ready_setSortOrder
  ready_assignExclusiveCover := Obliging.ready_assignExclusiveCover
  ready_delete := Obliging.ready_delete
  exists_count := Obliging.exists_count
  count_of_large := Obliging.count_of_large
  exists_nextOrder := Obliging.exists_nextOrder
  exists_insert := Obliging.exists_insert
  exists_setSortOrder := Obliging.exists_setSortOrder
  exists_assignExclusiveCover := Obliging.exists_assignExclusiveCover
  exists_publish {tx} ready store := by
    obtain ⟨after, published⟩ :=
      Obliging.exists_publish (σ := Fallible Database) ready store.database
    refine ⟨store.write after.inner, ?_⟩
    change store.commit tx = _
    rw [FileStore.commit, published]

theorem MemoryStore.ready_start {store : MemoryStore} (works : store.failCommits = false)
    (parent : String) : Ready MemoryStore (GalleryStore.start store parent) :=
  works

theorem Fallible.ready_start {store : Fallible Database}
    (works : ∀ call tried, store.refusals call tried = none) (parent : String) :
    Ready (Fallible Database) (GalleryStore.start store parent) :=
  ⟨works, trivial⟩

theorem FileStore.ready_start {store : FileStore}
    (works : ∀ call tried, store.refusals call tried = none) (parent : String) :
    Ready FileStore (GalleryStore.start store parent) :=
  Fallible.ready_start works parent

/-! ## Plans -/

/-- A plan names images of the list that it is made for. -/
theorem fst_mem_of_mem_planRanks {images : List ImageRecord} {effective : ImageRecord → Nat}
    {move : Int × UInt32} (mem : move ∈ planRanks images effective) :
    move.1 ∈ images.map (·.id) :=
  ((rankedBy_perm effective images).map _).mem_iff.mp
    ((map_fst_changedRanks_sublist 0 _).subset (List.mem_map_of_mem mem))

namespace Manager

variable [GalleryTx τ] [TxView τ] [GalleryStore σ τ] [Obliging σ τ]

theorem exists_commitWith {tx : τ} (ready : Ready σ tx) (manager : Manager σ β) (value : α) :
    ∃ after, manager.commitWith tx value = (.ok value, after) := by
  obtain ⟨store, published⟩ := Obliging.exists_publish ready manager.store
  exact ⟨_, by rw [commitWith, published]⟩

/-! ## Uploading -/

section Uploading

variable [BlobStore β] {options : GalleryOptions} {parent : ParentRecord} {order : UInt32}

/-- Files that can all be saved get their records, if the first is no second cover. -/
theorem exists_writeBatch {index : Nat} {cover : Bool} {uploads : List Upload}
    {batch : Batch τ β} {saved : List SavedBlob} {after : β}
    (saves : Saves parent index uploads batch.blobs saved after)
    (single : cover = true → GalleryTx.hasCover batch.tx = false)
    (ready : Ready σ batch.tx) :
    ∃ records last,
      writeBatch options parent order index cover uploads batch = (.ok records, last) ∧
      last.blobs = after ∧ Ready σ last.tx := by
  induction uploads generalizing index cover batch saved with
  | nil =>
      cases saves
      exact ⟨[], batch, rfl, rfl, ready⟩
  | cons upload uploads ih =>
      cases saves with
      | @cons _ _ _ blob others _ middle _ first rest =>
          let image : NewImage :=
            { url := options.imageUrl parent.id blob.filename
              storageKey := blob.storageKey
              isCover := cover
              sortOrder := order + index.toUInt32
              createdAt := batch.clock.now.1 }
          obtain ⟨record, next, inserted⟩ :
              ∃ record next, GalleryTx.insert batch.tx image = (.ok record, next) :=
            Obliging.exists_insert ready single
          have kept := Obliging.ready_insert image ready
          rw [inserted] at kept
          obtain ⟨records, last, written, blobs, readyLast⟩ :=
            @ih (index + 1) false ⟨next, middle, batch.clock.now.2⟩ others rest
              (fun impossible => absurd impossible Bool.false_ne_true) kept
          refine ⟨record :: records, last, ?_, blobs, readyLast⟩
          rw [writeBatch, first]
          dsimp only
          rw [inserted]
          dsimp only
          rw [written]

/-- Files of accepted formats that can all be saved are appended. -/
theorem exists_append {manager : Manager σ β} {tx : τ} {uploads : List Upload}
    {saved : List SavedBlob} {after : β} (ready : Ready σ tx)
    (checked : checkMedia uploads = .ok ()) (ordered : GalleryTx.nextOrder tx = .ok order)
    (saves : Saves parent 0 uploads manager.blobs saved after) :
    ∃ records last, manager.append parent tx uploads = (.ok records, last) := by
  obtain ⟨records, last, written, -, readyLast⟩ : ∃ records last,
      writeBatch manager.options parent order 0 (!GalleryTx.hasCover tx) uploads
        ⟨tx, manager.blobs, manager.clock⟩ = (.ok records, last) ∧
      last.blobs = after ∧ Ready σ last.tx :=
    exists_writeBatch saves (by simp) ready
  obtain ⟨published, committed⟩ := exists_commitWith readyLast
    { manager with blobs := last.blobs, clock := last.clock } records
  refine ⟨records, published.tally .imagesUploaded records.length, ?_⟩
  rw [append, checked]
  dsimp only
  rw [lift_eq_ok_iff.mpr ordered]
  dsimp only
  rw [written]
  dsimp only
  rw [committed]

end Uploading

variable [LawfulTx τ]

/-! ## Changing positions -/

omit [GalleryStore σ τ] [Obliging σ τ] in
theorem map_id_of_setSortOrder {tx next : τ} {id : Int} {order : UInt32}
    (moved : GalleryTx.setSortOrder tx id order = (.ok (), next)) :
    (TxView.draft next).images.map (·.id) = (TxView.draft tx).images.map (·.id) := by
  rw [LawfulTx.setSortOrder_of_ok moved, Draft.move, List.map_map]
  refine List.map_congr_left fun image _ => ?_
  rw [Function.comp_apply]
  split <;> rfl

omit [GalleryStore σ τ] [Obliging σ τ] in
/-- A plan that names images of the transaction's gallery is carried out, if the transaction stays in
a state in which they can be moved. -/
theorem exists_place_of {good : τ → Prop}
    (moves : ∀ {tx : τ} {id : Int} (order : UInt32), good tx →
      (∃ image ∈ (TxView.draft tx).images, image.id = id) →
      ∃ next, GalleryTx.setSortOrder tx id order = (.ok (), next) ∧ good next)
    {tx : τ} (fine : good tx) {plan : List (Int × UInt32)}
    (named : ∀ move ∈ plan, move.1 ∈ (TxView.draft tx).images.map (·.id)) :
    ∃ next, place tx plan = .ok next ∧ good next := by
  induction plan generalizing tx with
  | nil => exact ⟨tx, rfl, fine⟩
  | cons move plan ih =>
      rcases move with ⟨id, rank⟩
      obtain ⟨here, others⟩ := List.forall_mem_cons.mp named
      obtain ⟨image, mem, same⟩ := List.mem_map.mp here
      obtain ⟨next, moved, fineNext⟩ := moves rank fine ⟨image, mem, same⟩
      obtain ⟨last, placed, fineLast⟩ := ih fineNext (map_id_of_setSortOrder moved ▸ others)
      exact ⟨last, by rw [place, moved]; exact placed, fineLast⟩

/-- A ready transaction stays ready. -/
theorem exists_place {tx : τ} (ready : Ready σ tx) {plan : List (Int × UInt32)}
    (named : ∀ move ∈ plan, move.1 ∈ (TxView.draft tx).images.map (·.id)) :
    ∃ next, place tx plan = .ok next ∧ Ready σ next := by
  refine exists_place_of (fun {tx id} rank ready member => ?_) ready named
  obtain ⟨next, moved⟩ := Obliging.exists_setSortOrder rank ready member
  have kept := Obliging.ready_setSortOrder id rank ready
  rw [moved] at kept
  exact ⟨next, moved, kept⟩

/-! ## Reordering -/

theorem exists_rearrange {manager : Manager σ β} {parentId : String} {items : List ReorderItem}
    {positions : Positions} (ready : Ready σ (GalleryStore.start manager.store parentId))
    (accepted : Positions.ofItems items = .ok positions) :
    ∃ count after, manager.rearrange parentId items = (.ok count, after) := by
  let tx := GalleryStore.start manager.store parentId
  have ids := (arrange_perm (TxView.draft tx).images).map (·.id)
  rw [← LawfulTx.list_eq] at ids
  obtain ⟨next, placed, readyNext⟩ : ∃ next,
      place tx (planRanks (GalleryTx.list tx) (wanted positions)) = .ok next ∧ Ready σ next :=
    exists_place ready fun move planned => ids.mem_iff.mp (fst_mem_of_mem_planRanks planned)
  obtain ⟨after, committed⟩ := exists_commitWith readyNext manager (GalleryTx.list tx).length
  refine ⟨(GalleryTx.list tx).length, after, ?_⟩
  rw [rearrange, accepted]
  dsimp only
  split
  · rename_i refused
    cases placed.symm.trans refused
  · rename_i done
    cases placed.symm.trans done
    exact committed

/-! ## Deleting -/

/-- An image can be taken out of a transaction's gallery. -/
theorem exists_takeOut {tx : τ} (ready : Ready σ tx) (target : ImageRecord) :
    ∃ promoted next, takeOut tx target = .ok (promoted, next) ∧ Ready σ next := by
  have removed := Obliging.ready_delete target.id ready
  have listed := LawfulTx.list_eq (GalleryTx.delete tx target.id)
  have ids := (arrange_perm (TxView.draft (GalleryTx.delete tx target.id)).images).map (·.id)
  rw [← listed] at ids
  unfold takeOut
  simp only [bind, Except.bind, pure, Except.pure]
  split
  · rename_i first others _ leading
    have firstMem : first.id ∈ (GalleryTx.list (GalleryTx.delete tx target.id)).map (·.id) := by
      rw [leading]
      exact List.mem_cons_self
    obtain ⟨image, mem, same⟩ := List.mem_map.mp (ids.mem_iff.mp firstMem)
    obtain ⟨middle, assigned⟩ := Obliging.exists_assignExclusiveCover removed ⟨image, mem, same⟩
    have kept := Obliging.ready_assignExclusiveCover first.id removed
    rw [assigned] at kept ⊢
    have sameIds : (TxView.draft middle).images.map (·.id) =
        (TxView.draft (GalleryTx.delete tx target.id)).images.map (·.id) := by
      rw [LawfulTx.assignExclusiveCover_of_ok assigned, Draft.cover, List.map_map]
      rfl
    obtain ⟨next, placed, readyNext⟩ := exists_place kept fun move planned =>
      sameIds ▸ ids.mem_iff.mp (fst_mem_of_mem_planRanks planned)
    dsimp only
    rw [placed]
    exact ⟨_, next, rfl, readyNext⟩
  · obtain ⟨next, placed, readyNext⟩ := exists_place removed fun move planned =>
      ids.mem_iff.mp (fst_mem_of_mem_planRanks planned)
    rw [placed]
    exact ⟨_, next, rfl, readyNext⟩

variable [ParentStore σ] [StoreView σ τ] [LawfulStore σ τ]

/-- An image that belongs to the parent is deleted. -/
theorem exists_withdraw [BlobStore β] {manager : Manager σ β} {parentId : String}
    {target : ImageRecord} (ready : Ready σ (GalleryStore.start manager.store parentId))
    (mem : target ∈ StoreView.images manager.store parentId) :
    ∃ outcome after, manager.withdraw parentId target.id = (.ok outcome, after) := by
  have started := LawfulStore.draft_start manager.store parentId
  unfold withdraw
  dsimp only
  split
  · rename_i missing
    rw [LawfulTx.get?_eq, started, List.find?_eq_none] at missing
    exact absurd (decide_eq_true rfl) (missing target mem)
  · rename_i found _
    obtain ⟨promoted, next, taken, readyNext⟩ := exists_takeOut ready found
    obtain ⟨after, committed⟩ := exists_commitWith readyNext manager ()
    rw [taken]
    dsimp only
    rw [committed]
    exact ⟨_, _, rfl⟩

end Manager

end ImageGallery
