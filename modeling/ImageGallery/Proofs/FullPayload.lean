import Mathlib.Data.Finset.Sort
import ImageGallery.Proofs.DeletionOrder
import ImageGallery.Proofs.Rearranging

/-!
# Payloads that name every image

A payload that names every image of a gallery decides about the order alone. Galleries of the same
ids are displayed in the same order afterwards, whatever the order was before and whatever else the
payloads hold: by the positions in the last items that name the ids, and by the ids themselves
where these are equal.
-/

namespace ImageGallery

variable {σ τ ρ β : Type} {ids : Finset Int} {position : Int → Nat} {items : List ReorderItem}

/-! ## Ids in the order of positions -/

/-- Whether an id comes before another one: by position, and ids of one position by themselves. -/
def idsBefore (position : Int → Nat) (first second : Int) : Bool :=
  position first < position second || (position first = position second && first ≤ second)

/-- Ids in the order of their positions. -/
def idsBy (position : Int → Nat) (ids : Finset Int) : List Int :=
  ids.sort.mergeSort (idsBefore position)

theorem idsBefore_iff {first second : Int} : idsBefore position first second = true ↔
    position first < position second ∨ position first = position second ∧ first ≤ second := by
  simp [idsBefore]

theorem idsBefore_total (first second : Int) :
    idsBefore position first second || idsBefore position second first := by
  rw [Bool.or_eq_true, idsBefore_iff, idsBefore_iff]
  omega

theorem idsBefore_trans (first second third : Int) (before : idsBefore position first second)
    (after : idsBefore position second third) : idsBefore position first third := by
  rw [idsBefore_iff] at before after ⊢
  omega

theorem mem_idsBy {id : Int} : id ∈ idsBy position ids ↔ id ∈ ids := by
  rw [idsBy, List.mem_mergeSort, Finset.mem_sort]

theorem nodup_idsBy : (idsBy position ids).Nodup :=
  (List.mergeSort_perm _ _).nodup_iff.mpr (Finset.sort_nodup _ _)

theorem pairwise_idsBy :
    (idsBy position ids).Pairwise fun first second => idsBefore position first second :=
  List.pairwise_mergeSort idsBefore_trans idsBefore_total _

/-- There is one order of the ids by their positions. -/
theorem eq_idsBy {sequence : List Int} (distinct : sequence.Nodup)
    (mem_iff : ∀ id, id ∈ sequence ↔ id ∈ ids)
    (ordered : sequence.Pairwise fun first second => idsBefore position first second) :
    sequence = idsBy position ids := by
  have permuted : sequence.Perm (idsBy position ids) := by
    apply (List.perm_ext_iff_of_nodup distinct nodup_idsBy).mpr
    intro id
    rw [mem_iff, mem_idsBy]
  refine permuted.eq_of_pairwise ?_ ordered pairwise_idsBy
  intro first second _ _ before after
  rw [idsBefore_iff] at before after
  omega

/-! ## Full payloads -/

/-- The last item of a payload that names an id asks for the given position, for each of the ids.
Negative positions count as zero. -/
def AsksFor (items : List ReorderItem) (position : Int → Nat) (ids : Finset Int) : Prop :=
  ∀ id ∈ ids, ∃ order, lastOrder? items id = some order ∧ order.toNat = position id

/-- The images of a gallery have these ids, each once, and positions of 32 bits are enough for
them. -/
structure Shows (ids : Finset Int) (images : List ImageRecord) : Prop where
  distinct : (images.map (·.id)).Nodup
  mem_iff : ∀ id, id ∈ images.map (·.id) ↔ id ∈ ids
  small : images.length ≤ UInt32.size

theorem Shows.card_eq {images : List ImageRecord} (shown : Shows ids images) :
    ids.card = images.length := by
  have listed : (images.map (·.id)).toFinset = ids := by
    ext id
    rw [List.mem_toFinset, shown.mem_iff]
  rw [← listed, List.toFinset_card_of_nodup shown.distinct, List.length_map]

theorem effectiveOrder_of_asksFor (asked : AsksFor items position ids) {image : ImageRecord}
    (named : image.id ∈ ids) : effectiveOrder items image = position image.id := by
  obtain ⟨order, last, order_eq⟩ := asked image.id named
  rw [effectiveOrder, last, ← order_eq]
  exact (max_comm _ _).trans (Int.toNat_eq_max order).symm

/-- Images that are ranked for a full payload stand in the order of the positions that it asks
for. -/
theorem map_id_of_rankedFor {images ranked : List ImageRecord} (shown : Shows ids images)
    (permuted : ranked.Perm images) (asked : AsksFor items position ids)
    (rankedFor : RankedFor items ranked) : ranked.map (·.id) = idsBy position ids := by
  have same : ∀ id, id ∈ ranked.map (·.id) ↔ id ∈ ids := fun id =>
    (permuted.map _).mem_iff.trans (shown.mem_iff id)
  apply eq_idsBy ((permuted.map _).nodup_iff.mpr shown.distinct) same
  rw [List.pairwise_map]
  refine rankedFor.imp_of_mem fun {first second} firstMem secondMem before => ?_
  rw [effectiveOrder_of_asksFor asked ((same _).mp (List.mem_map_of_mem firstMem)),
    effectiveOrder_of_asksFor asked ((same _).mp (List.mem_map_of_mem secondMem))] at before
  rw [idsBefore_iff]
  omega

namespace Manager

section Stores

variable [GalleryTx τ] [GalleryStore σ τ] [ParentStore σ] [StoreView σ τ] [BlobStore β]
  [Refusing σ ρ]

/-- What a payload that asks for positions of these ids does to a gallery of the same ids, whatever
order its images are in. -/
structure OrderDecided (works : Prop) (manager : Manager σ β) (parentId : String)
    (items : List ReorderItem) (position : Int → Nat) (ids : Finset Int) : Prop where
  succeeds (works : works)
    (shown : Shows ids (GalleryStore.listImages manager.store parentId))
    (accepted : ∃ positions, Positions.ofItems items = .ok positions) :
    (manager.reorder parentId items).1 = .ok ids.card
  displayed (shown : Shows ids (GalleryStore.listImages manager.store parentId)) {count : Nat}
    (succeeded : (manager.reorder parentId items).1 = .ok count) :
    (GalleryStore.listImages (manager.reorder parentId items).2.store parentId).map (·.id) =
      idsBy position ids
  /-- A gallery that any run leads to, when all galleries were empty before it, is one of some
  ids. -/
  reached (empty : ∀ parent, StoreView.images manager.store parent = [])
    (steps : List (Step ρ β)) :
    ∃ ids, Shows ids (GalleryStore.listImages (manager.run steps).store parentId)

variable [TxView τ] [LawfulTx τ] [LawfulStore σ τ] {manager : Manager σ β} {parentId : String}

/-- Every gallery in a run from empty galleries is one of some ids. -/
theorem exists_shows_of_run [LawfulRefusing σ τ ρ]
    (empty : ∀ parent, StoreView.images manager.store parent = []) (steps : List (Step ρ β)) :
    ∃ ids, Shows ids (GalleryStore.listImages (manager.run steps).store parentId) := by
  have kept := (inOrder_of_empty manager empty steps).1 parentId
  refine ⟨_, nodup_listImages_iff.mpr kept.distinct, fun id => List.mem_toFinset.symm, ?_⟩
  rw [LawfulStore.listImages_eq, (arrange_perm _).length_eq]
  exact Nat.le_trans kept.fits (Nat.le_of_lt (UInt32.toNat_lt_size _))

/-- In a lawful store a full payload decides about the order. -/
theorem orderDecided_of_asked [Obliging σ τ] [LawfulRefusing σ τ ρ] {works : Prop}
    (asked : AsksFor items position ids)
    (ready : works → Ready σ (GalleryStore.start manager.store parentId)) :
    OrderDecided works manager parentId items position ids := by
  constructor
  · intro works shown accepted
    have full : ReordersInFull _ manager parentId items :=
      reordersInFull_of_distinct shown.distinct ready
    obtain ⟨count, succeeded⟩ := full.succeeds works accepted
    rw [succeeded, (full.reordered succeeded).1, shown.card_eq]
  · intro shown count succeeded
    obtain ⟨-, ranked, reordered⟩ :=
      (reordersInFull_of_distinct shown.distinct ready).reordered succeeded
    rw [reordered.listed (reordered.perm.length_eq ▸ shown.small), map_id_renumbered]
    exact map_id_of_rankedFor shown reordered.perm asked reordered.rankedFor
  · exact exists_shows_of_run

end Stores

variable [BlobStore β]

/-- In memory, in a database and in a file, galleries of the same ids are displayed in the same
order after payloads that ask for the same positions of these ids: whatever the order was before,
and whatever else the payloads hold. -/
theorem orderDecided_of_everyStore (asked : AsksFor items position ids) (parentId : String) :
    (∀ manager : Manager MemoryStore β,
      OrderDecided (manager.store.failCommits = false) manager parentId items position ids) ∧
    (∀ manager : Manager (Fallible Database) β,
      OrderDecided (∀ call tried, manager.store.refusals call tried = none) manager parentId items
        position ids) ∧
    ∀ manager : Manager FileStore β,
      OrderDecided (∀ call tried, manager.store.refusals call tried = none) manager parentId items
        position ids :=
  ⟨fun _ => orderDecided_of_asked asked (MemoryStore.ready_start · _),
    fun _ => orderDecided_of_asked asked (Fallible.ready_start · _),
    fun _ => orderDecided_of_asked asked (FileStore.ready_start · _)⟩

/-- All three ids are named, one of them twice and one with a negative position, and so is an id of
no image. -/
def fullPayload : List ReorderItem :=
  [ { id := some (.integer 1), order := some (.integer 7) },
    { id := some (.text " 2 "), order := some (.integer (-3)) },
    { id := some (.integer 9), order := some (.integer 0) },
    { id := some (.integer 4), order := some (.integer 5) },
    { id := some (.integer 1), order := some (.integer 5) } ]

/-- The positions that it asks for. -/
def fullPositions (id : Int) : Nat :=
  if id = 2 then 0 else 5

theorem asksFor_fullPayload : AsksFor fullPayload fullPositions {1, 2, 4} := by
  have last : lastOrder? fullPayload 1 = some 5 ∧ lastOrder? fullPayload 2 = some (-3) ∧
      lastOrder? fullPayload 4 = some 5 := by
    decide +kernel
  intro id mem
  simp only [Finset.mem_insert, Finset.mem_singleton] at mem
  rcases mem with rfl | rfl | rfl
  · exact ⟨5, last.1, rfl⟩
  · exact ⟨-3, last.2.1, rfl⟩
  · exact ⟨5, last.2.2, rfl⟩

theorem shows_of_holdsUneven [GalleryTx τ] [TxView τ] [GalleryStore σ τ] [ParentStore σ]
    [StoreView σ τ] [LawfulStore σ τ] {store : σ} (holds : HoldsUneven store) :
    Shows {1, 2, 4} (GalleryStore.listImages store "p") := by
  have permuted : (GalleryStore.listImages store "p").Perm (Database.uneven.rowsOf "p") := by
    rw [LawfulStore.listImages_eq, holds.images_eq]
    exact arrange_perm _
  refine ⟨holds.distinct "p", fun id => ?_, ?_⟩
  · have rows : (Database.uneven.rowsOf "p").map (·.id) = [1, 2, 4] := by decide +kernel
    rw [(permuted.map _).mem_iff, rows]
    simp
  · rw [permuted.length_eq]
    decide +kernel

/-- The three images of an uneven gallery, in each kind of store. -/
theorem orderDecided_fullPayload :
    ((ofStore MemoryStore.uneven).reorder "p" fullPayload).1 = .ok 3 ∧
    OrderDecided (MemoryStore.uneven.failCommits = false) (ofStore MemoryStore.uneven) "p"
      fullPayload fullPositions {1, 2, 4} ∧
    OrderDecided (∀ call tried,
        ({ inner := .uneven } : Fallible Database).refusals call tried = none)
      (ofStore ({ inner := .uneven } : Fallible Database)) "p" fullPayload fullPositions
      {1, 2, 4} ∧
    ∃ store : FileStore, store.database = { inner := .uneven } ∧
      OrderDecided (∀ call tried, store.refusals call tried = none) (ofStore store) "p"
        fullPayload fullPositions {1, 2, 4} := by
  obtain ⟨store, database, -⟩ := exists_file .uneven
  have decided := (orderDecided_of_everyStore asksFor_fullPayload "p").1 (ofStore .uneven)
  have accepted : ∃ positions, Positions.ofItems fullPayload = .ok positions :=
    ⟨_, rfl⟩
  exact ⟨decided.succeeds rfl (shows_of_holdsUneven MemoryStore.holdsUneven) accepted, decided,
    (orderDecided_of_everyStore asksFor_fullPayload "p").2.1 (ofStore _), store, database,
    (orderDecided_of_everyStore asksFor_fullPayload "p").2.2 (ofStore _)⟩

end Manager

end ImageGallery
