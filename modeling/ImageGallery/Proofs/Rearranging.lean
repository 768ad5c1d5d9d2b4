import ImageGallery.Proofs.Completion
import ImageGallery.Proofs.Registration

/-!
# Reorderings from end to end

A payload asks for positions, and the last item that names an image decides. The images of a
gallery are ranked by these positions, or by their own where the payload names none, and images of
one position by their ids. A reordering displays them in this order from the position zero on, and
changes nothing else.
-/

namespace ImageGallery

variable {σ τ β : Type} {images : List ImageRecord} {items : List ReorderItem}

/-! ## What a payload asks for -/

/-- The position that an item asks for an id. -/
def ReorderItem.orderFor? (item : ReorderItem) (id : Int) : Option Int :=
  if item.id.bind LooseInt.coerce? = some id then item.order.bind LooseInt.coerce? else none

/-- The position in the last item of a payload that names an id. -/
def lastOrder? (items : List ReorderItem) (id : Int) : Option Int :=
  (items.filterMap (·.orderFor? id)).getLast?

/-- The position that decides about an image's rank: the one that a payload asks for, or else its
own. Negative positions count as zero. -/
def effectiveOrder (items : List ReorderItem) (image : ImageRecord) : Int :=
  match lastOrder? items image.id with
  | some order => max 0 order
  | none => image.sortOrder.toNat

/-- Images in the order of their ranks. -/
def RankedFor (items : List ReorderItem) (images : List ImageRecord) : Prop :=
  images.Pairwise fun first second =>
    effectiveOrder items first < effectiveOrder items second ∨
      effectiveOrder items first = effectiveOrder items second ∧ first.id < second.id

theorem lastOrder?_cons (item : ReorderItem) (items : List ReorderItem) (id : Int) :
    lastOrder? (item :: items) id = (lastOrder? items id).or (item.orderFor? id) := by
  rw [lastOrder?, lastOrder?, List.filterMap_cons]
  cases item.orderFor? id with
  | none => rw [Option.or_none]
  | some order =>
      dsimp only
      rw [List.getLast?_cons]
      cases (items.filterMap (·.orderFor? id)).getLast? <;> rfl

/-- The position that counts is the one in the last item that names the id. -/
theorem find?_of_collect {start positions : Positions} {index : Nat}
    (collected : start.collect index items = .ok positions) (id : Int) :
    positions.find? id = ((lastOrder? items id).map Int.toNat).or (start.find? id) := by
  -- The items to come override what was collected before them.
  induction items generalizing start index with
  | nil =>
      cases collected
      rfl
  | cons item items ih =>
      unfold Positions.collect at collected
      split at collected
      · cases collected
      · rename_i named named_eq
        split at collected
        · cases collected
        · rename_i order order_eq
          rw [ih collected, lastOrder?_cons, ReorderItem.orderFor?, named_eq, order_eq]
          by_cases same : named = id
          · subst same
            rw [if_pos rfl, Positions.find?_insert_self]
            cases lastOrder? items named <;> rfl
          · rw [if_neg (same ∘ Option.some.inj), Option.or_none,
              Positions.find?_insert_of_ne _ _ (Ne.symm same)]

theorem find?_of_ofItems {positions : Positions}
    (accepted : Positions.ofItems items = .ok positions) (id : Int) :
    positions.find? id = (lastOrder? items id).map Int.toNat := by
  unfold Positions.ofItems at accepted
  split at accepted
  · cases accepted
  · rw [find?_of_collect accepted, Positions.find?_empty, Option.or_none]

/-- What an accepted payload wants is what counts for the ranks. -/
theorem Manager.wanted_eq_effectiveOrder {positions : Positions}
    (accepted : Positions.ofItems items = .ok positions) (image : ImageRecord) :
    (wanted positions image : Int) = effectiveOrder items image := by
  rw [wanted, find?_of_ofItems accepted, effectiveOrder]
  cases lastOrder? items image.id with
  | none => rfl
  | some order => exact (Int.toNat_eq_max order).trans (max_comm _ _)

/-! ## Ranks -/

/-- Ranks depend on the positions that are wanted for the images, and on nothing else. -/
theorem rankedBy_congr {first second : ImageRecord → Nat}
    (agree : ∀ image ∈ images, first image = second image) :
    rankedBy first images = rankedBy second images := by
  have sorted := List.map_mergeSort (f := id) (r := ranksBefore first) (s := ranksBefore second)
    (l := images) fun left leftMem right rightMem => by
      rw [ranksBefore, agree left leftMem, agree right rightMem]
      rfl
  rwa [List.map_id, List.map_id] at sorted

namespace Manager

/-- The ranking that is carried out is the one that the payload asks for. -/
theorem rankedFor_rankedBy_wanted (distinct : (images.map (·.id)).Nodup) {positions : Positions}
    (accepted : Positions.ofItems items = .ok positions) :
    RankedFor items (rankedBy (wanted positions) images) := by
  have ids := List.pairwise_map.mp (nodup_map_id_rankedBy distinct (wanted positions))
  refine ((pairwise_rankedBy _ _).and ids).imp ?_
  intro first second both
  obtain ⟨before, differ⟩ := both
  rw [ranksBefore_iff] at before
  rw [← wanted_eq_effectiveOrder accepted, ← wanted_eq_effectiveOrder accepted]
  omega

/-- Images that a payload does not name stay in display order. -/
theorem filter_rankedBy_wanted (distinct : (images.map (·.id)).Nodup) {positions : Positions}
    (accepted : Positions.ofItems items = .ok positions) :
    (rankedBy (wanted positions) images).filter (fun image => (lastOrder? items image.id).isNone) =
      (ImageRecord.arrange images).filter fun image => (lastOrder? items image.id).isNone := by
  -- An image that is not named is wanted where it is.
  have own {image : ImageRecord} (unnamed : (lastOrder? items image.id).isNone) :
      wanted positions image = image.sortOrder.toNat := by
    rw [wanted, find?_of_ofItems accepted, Option.isNone_iff_eq_none.mp unnamed]
    rfl
  have shown := pairwise_rankedBy (fun image => image.sortOrder.toNat) images
  rw [← arrange_eq_rankedBy] at shown
  refine eq_of_perm_of_ranked ?_ ?_ ?_ (shown.sublist List.filter_sublist)
  · exact ((rankedBy_perm _ _).trans (arrange_perm _).symm).filter _
  · have ids := nodup_map_id_rankedBy distinct (wanted positions)
    exact ids.sublist (List.filter_sublist.map _)
  · have ranked := (pairwise_rankedBy (wanted positions) images).sublist
      (List.filter_sublist (p := fun image => (lastOrder? items image.id).isNone))
    refine ranked.imp_of_mem fun {first second} firstMem secondMem before => ?_
    rw [ranksBefore_iff] at before ⊢
    rwa [own (List.mem_filter.mp firstMem).2, own (List.mem_filter.mp secondMem).2] at before

/-! ## What a reordering does -/

section Reordering

variable [GalleryTx τ] [GalleryStore σ τ]

/-- What a reordering that succeeds leaves behind: the images of the gallery on display, ranked for
the payload and renumbered. -/
structure Reordered (manager after : Manager σ β) (parentId : String) (items : List ReorderItem)
    (ranked : List ImageRecord) : Prop where
  perm : ranked.Perm (GalleryStore.listImages manager.store parentId)
  rankedFor : RankedFor items ranked
  /-- Images that the payload does not name stay in display order. -/
  unnamed : (ranked.filter fun image => (lastOrder? items image.id).isNone) =
    (GalleryStore.listImages manager.store parentId).filter
      fun image => (lastOrder? items image.id).isNone
  held : (GalleryStore.listImages after.store parentId).Perm (renumbered ranked)
  /-- Positions of 32 bits keep the images in the order of their ranks. -/
  listed (small : ranked.length ≤ UInt32.size) :
    GalleryStore.listImages after.store parentId = renumbered ranked
  others (other : String) (differ : other ≠ parentId) :
    GalleryStore.listImages after.store other = GalleryStore.listImages manager.store other
  blobs_eq : after.blobs = manager.blobs

omit [GalleryTx τ] in
/-- Counting something afterwards does not matter. -/
theorem Reordered.tally {manager after : Manager σ β} {parentId : String}
    {ranked : List ImageRecord} (reordered : Reordered manager after parentId items ranked)
    (counter : Counter) (amount : Nat) :
    Reordered manager (after.tally counter amount) parentId items ranked :=
  ⟨reordered.perm, reordered.rankedFor, reordered.unnamed, reordered.held, reordered.listed,
    reordered.others, reordered.blobs_eq⟩

/-- What a reordering does. Whether it succeeds with an accepted payload depends on whether the
store works. -/
structure ReordersInFull [ParentStore σ] (works : Prop) (manager : Manager σ β) (parentId : String)
    (items : List ReorderItem) : Prop where
  succeeds (works : works) (accepted : ∃ positions, Positions.ofItems items = .ok positions) :
    ∃ count, (manager.reorder parentId items).1 = .ok count
  reordered {count : Nat} (succeeded : (manager.reorder parentId items).1 = .ok count) :
    count = (GalleryStore.listImages manager.store parentId).length ∧
      ∃ ranked, Reordered manager (manager.reorder parentId items).2 parentId items ranked
  /-- What a payload asks for other ids than those of the images has no effect. -/
  foreign {other : List ReorderItem}
    (accepted : ∃ positions, Positions.ofItems items = .ok positions)
    (otherAccepted : ∃ positions, Positions.ofItems other = .ok positions)
    (agree : ∀ image ∈ GalleryStore.listImages manager.store parentId,
      lastOrder? other image.id = lastOrder? items image.id) :
    manager.reorder parentId other = manager.reorder parentId items

variable [ParentStore σ] [TxView τ] [LawfulTx τ] [StoreView σ τ] [LawfulStore σ τ]
  {manager after : Manager σ β} {parentId : String}

theorem reordered_of_rearrange {count : Nat}
    (distinct : ((StoreView.images manager.store parentId).map (·.id)).Nodup)
    (rearranged : manager.rearrange parentId items = (.ok count, after)) :
    count = (GalleryStore.listImages manager.store parentId).length ∧
      ∃ ranked, Reordered manager after parentId items ranked := by
  obtain ⟨positions, accepted, counted, published, afterEq⟩ := rearrange_of_ok distinct rearranged
  have listed := LawfulStore.listImages_eq manager.store parentId
  have settled : GalleryStore.listImages after.store parentId =
      ImageRecord.arrange (settle (wanted positions)
        (StoreView.images manager.store parentId)) := by
    rw [LawfulStore.listImages_eq, published.images_self]
  refine ⟨by rw [counted, listed, (arrange_perm _).length_eq],
    rankedBy (wanted positions) (StoreView.images manager.store parentId), ?_⟩
  constructor
  · rw [listed]
    exact (rankedBy_perm _ _).trans (arrange_perm _).symm
  · exact rankedFor_rankedBy_wanted distinct accepted
  · rw [listed]
    exact filter_rankedBy_wanted distinct accepted
  · rw [settled]
    exact (arrange_perm _).trans (settle_perm distinct)
  · intro small
    rw [(rankedBy_perm _ _).length_eq] at small
    rw [settled, arrange_settle_eq_renumbered distinct small]
  · intro other differ
    rw [LawfulStore.listImages_eq, LawfulStore.listImages_eq,
      published.images_other other differ]
  · rw [afterEq]

/-- Payloads that ask the same for the images of a gallery do the same to it. -/
theorem rearrange_congr {other : List ReorderItem}
    (accepted : ∃ positions, Positions.ofItems items = .ok positions)
    (otherAccepted : ∃ positions, Positions.ofItems other = .ok positions)
    (agree : ∀ image ∈ GalleryStore.listImages manager.store parentId,
      lastOrder? other image.id = lastOrder? items image.id) :
    manager.rearrange parentId other = manager.rearrange parentId items := by
  obtain ⟨positions, accepted⟩ := accepted
  obtain ⟨others, otherAccepted⟩ := otherAccepted
  have listed : GalleryTx.list (GalleryStore.start manager.store parentId) =
      GalleryStore.listImages manager.store parentId := by
    rw [LawfulTx.list_eq, LawfulStore.draft_start, LawfulStore.listImages_eq]
  -- The plan is all that a payload decides about.
  have plans : planRanks (GalleryTx.list (GalleryStore.start manager.store parentId))
        (wanted others) =
      planRanks (GalleryTx.list (GalleryStore.start manager.store parentId))
        (wanted positions) := by
    rw [listed, planRanks, planRanks]
    refine congrArg _ (rankedBy_congr fun image mem => ?_)
    rw [wanted, wanted, find?_of_ofItems accepted, find?_of_ofItems otherAccepted, agree image mem]
  unfold wanted at plans
  rw [rearrange, rearrange, accepted, otherAccepted]
  dsimp only
  rw [plans]

/-- A reordering in a store that is lawful, and that works if it refuses nothing. -/
theorem reordersInFull_of_distinct [Obliging σ τ] {works : Prop}
    (distinct : ((GalleryStore.listImages manager.store parentId).map (·.id)).Nodup)
    (ready : works → Ready σ (GalleryStore.start manager.store parentId)) :
    ReordersInFull works manager parentId items := by
  rw [nodup_listImages_iff] at distinct
  constructor
  · rintro works ⟨positions, accepted⟩
    obtain ⟨count, after, rearranged⟩ := exists_rearrange (ready works) accepted
    exact ⟨count, congrArg Prod.fst rearranged⟩
  · intro count succeeded
    obtain ⟨middle, rearranged⟩ : ∃ middle,
        manager.rearrange parentId items = (.ok count, middle) := ⟨_, Prod.ext succeeded rfl⟩
    obtain ⟨counted, ranked, reordered⟩ := reordered_of_rearrange distinct rearranged
    refine ⟨counted, ranked, ?_⟩
    rw [reorder, record, rearranged]
    exact reordered.tally _ _
  · intro other accepted otherAccepted agree
    rw [reorder, reorder, rearrange_congr accepted otherAccepted agree]

end Reordering

/-- In memory, in a database and in a file, a reordering does what is expected of it from every
state of the store, whatever positions the images have and whatever the payload asks for. -/
theorem reordersInFull_of_everyStore (parentId : String) (items : List ReorderItem) :
    (∀ manager : Manager MemoryStore β,
      ((GalleryStore.listImages manager.store parentId).map (·.id)).Nodup →
        ReordersInFull (manager.store.failCommits = false) manager parentId items) ∧
    (∀ manager : Manager (Fallible Database) β,
      ((GalleryStore.listImages manager.store parentId).map (·.id)).Nodup →
        ReordersInFull (∀ call tried, manager.store.refusals call tried = none)
          manager parentId items) ∧
    ∀ manager : Manager FileStore β,
      ((GalleryStore.listImages manager.store parentId).map (·.id)).Nodup →
        ReordersInFull (∀ call tried, manager.store.refusals call tried = none)
          manager parentId items :=
  ⟨fun _ distinct => reordersInFull_of_distinct distinct (MemoryStore.ready_start · _),
    fun _ distinct => reordersInFull_of_distinct distinct (Fallible.ready_start · _),
    fun _ distinct => reordersInFull_of_distinct distinct (FileStore.ready_start · _)⟩

/-- One image is named twice, one by a text and with a negative position, and one id is no
image's. -/
def mixedPayload : List ReorderItem :=
  [ { id := some (.integer 1), order := some (.integer 7) },
    { id := some (.text " 2 "), order := some (.integer (-3)) },
    { id := some (.integer 9), order := some (.integer 0) },
    { id := some (.integer 1), order := some (.integer 5) } ]

example : (unevenImages.map (effectiveOrder mixedPayload)) = [5, 0, 0, 0] := by
  decide +kernel

theorem reordersInFull_mixedPayload :
    ReordersInFull (MemoryStore.uneven.failCommits = false) (ofStore MemoryStore.uneven) "p"
      mixedPayload ∧
    ReordersInFull (∀ call tried,
        ({ inner := .uneven } : Fallible Database).refusals call tried = none)
      (ofStore ({ inner := .uneven } : Fallible Database)) "p" mixedPayload ∧
    ∃ store : FileStore, store.database = { inner := .uneven } ∧
      ReordersInFull (∀ call tried, store.refusals call tried = none) (ofStore store) "p"
        mixedPayload := by
  obtain ⟨store, database, -⟩ := exists_file .uneven
  exact ⟨(reordersInFull_of_everyStore "p" mixedPayload).1 (ofStore _)
      (MemoryStore.holdsUneven.distinct "p"),
    (reordersInFull_of_everyStore "p" mixedPayload).2.1 (ofStore _)
      (Fallible.holdsUneven.distinct "p"),
    store, database,
    (reordersInFull_of_everyStore "p" mixedPayload).2.2 (ofStore _)
      ((FileStore.holdsUneven database).distinct "p")⟩

end Manager

end ImageGallery
