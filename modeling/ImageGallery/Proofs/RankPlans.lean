import ImageGallery.Proofs.Completion
import ImageGallery.Proofs.Identifiers

/-!
# Plans are exact

A plan lists the images whose position is not their rank, each once and in ascending rank. Carrying
it out in whatever order leaves the ranks as positions, and no moves that do so leave an image of
the plan out. It depends on the set of the images alone, and there is nothing left to plan once it
is carried out, in a list of images as in a transaction of any store.
-/

namespace ImageGallery

variable {effective : ImageRecord → Nat} {images ranked others : List ImageRecord}
  {plan moves : List (Int × UInt32)}

/-! ## Rankings -/

/-- Images in the order of their wanted positions, those of one position in the order of their
ids. -/
structure Ranking (effective : ImageRecord → Nat) (images ranked : List ImageRecord) : Prop where
  perm : ranked.Perm images
  ascending : ranked.Pairwise fun first second =>
    effective first < effective second ∨
      effective first = effective second ∧ first.id < second.id

theorem ranking_rankedBy (distinct : (images.map (·.id)).Nodup) (effective : ImageRecord → Nat) :
    Ranking effective images (rankedBy effective images) where
  perm := rankedBy_perm effective images
  ascending := by
    have ids := List.pairwise_map.mp (nodup_map_id_rankedBy distinct effective)
    refine (pairwise_rankedBy effective images).imp₂ ?_ ids
    intro first second before differ
    rw [ranksBefore_iff] at before
    omega

/-- There is one ranking. -/
theorem Ranking.eq_rankedBy (ranking : Ranking effective images ranked)
    (distinct : (images.map (·.id)).Nodup) : ranked = rankedBy effective images := by
  refine eq_of_perm_of_ranked (ranking.perm.trans (rankedBy_perm effective images).symm)
    ((ranking.perm.map _).nodup_iff.mpr distinct) (ranking.ascending.imp ?_)
    (pairwise_rankedBy effective images)
  intro first second before
  rw [ranksBefore_iff]
  omega

/-! ## Entries of a plan -/

/-- The entry of a plan for an image at its rank, if it has to move. -/
def changeAt (image : ImageRecord) (rank : Nat) : Option (Int × UInt32) :=
  if image.sortOrder = rank.toUInt32 then none else some (image.id, rank.toUInt32)

/-- A plan goes through the images with their ranks once. -/
theorem changedRanks_eq_filterMap (rank : Nat) (ranked : List ImageRecord) :
    changedRanks rank ranked =
      (ranked.zipIdx rank).filterMap fun entry => changeAt entry.1 entry.2 := by
  induction ranked generalizing rank with
  | nil => rfl
  | cons image ranked ih =>
      rw [changedRanks, List.zipIdx_cons, ih]
      by_cases placed : image.sortOrder = rank.toUInt32
      · have stays : changeAt image rank = none := if_pos placed
        rw [if_pos placed, List.filterMap_cons, stays]
      · have moves : changeAt image rank = some (image.id, rank.toUInt32) := if_neg placed
        rw [if_neg placed, List.filterMap_cons, moves]

theorem changeAt_eq_some_iff {image : ImageRecord} {rank : Nat} (small : rank < UInt32.size)
    {move : Int × UInt32} : changeAt image rank = some move ↔
      move.2.toNat = rank ∧ image.id = move.1 ∧ image.sortOrder ≠ move.2 := by
  have exact : rank.toUInt32.toNat = rank := UInt32.toNat_ofNat_of_lt' small
  have same : move.2 = rank.toUInt32 ↔ move.2.toNat = rank := by
    rw [← UInt32.toNat_inj, exact]
  rcases move with ⟨id, order⟩
  rw [← same]
  by_cases placed : image.sortOrder = rank.toUInt32
  · rw [changeAt, if_pos placed]
    refine iff_of_false nofun fun ⟨there, _, moved⟩ => moved ?_
    rw [placed, there]
  · rw [changeAt, if_neg placed, Option.some.injEq, Prod.mk.injEq]
    constructor
    · rintro ⟨rfl, rfl⟩
      exact ⟨rfl, rfl, placed⟩
    · rintro ⟨rfl, rfl, -⟩
      exact ⟨rfl, rfl⟩

theorem mem_changedRanks_iff (small : ranked.length ≤ UInt32.size) {move : Int × UInt32} :
    move ∈ changedRanks 0 ranked ↔ ∃ image, ranked[move.2.toNat]? = some image ∧
      image.id = move.1 ∧ image.sortOrder ≠ move.2 := by
  rw [changedRanks_eq_filterMap, List.mem_filterMap]
  constructor
  · rintro ⟨⟨image, rank⟩, mem, change⟩
    rw [List.mk_mem_zipIdx_iff_getElem?] at mem
    obtain ⟨below, -⟩ := List.getElem?_eq_some_iff.mp mem
    obtain ⟨rfl, named, moved⟩ := (changeAt_eq_some_iff (by omega)).mp change
    exact ⟨image, mem, named, moved⟩
  · rintro ⟨image, there, named, moved⟩
    refine ⟨(image, move.2.toNat), List.mk_mem_zipIdx_iff_getElem?.mpr there, ?_⟩
    exact (changeAt_eq_some_iff move.2.toNat_lt_size).mpr ⟨rfl, named, moved⟩

/-- The ranks of a plan ascend. -/
theorem pairwise_changedRanks (small : ranked.length ≤ UInt32.size) :
    (changedRanks 0 ranked).Pairwise fun first second => first.2 < second.2 := by
  have ascending : (ranked.zipIdx.map Prod.snd).Pairwise (· < ·) := by
    rw [List.zipIdx_map_snd, ← List.range_eq_range']
    exact List.pairwise_lt_range
  rw [changedRanks_eq_filterMap, List.pairwise_filterMap]
  refine (List.pairwise_map.mp ascending).imp_of_mem ?_
  rintro ⟨image, rank⟩ ⟨other, next⟩ mem otherMem less move change otherMove otherChange
  have below := (List.getElem?_eq_some_iff.mp (List.mk_mem_zipIdx_iff_getElem?.mp mem)).1
  have otherBelow := (List.getElem?_eq_some_iff.mp (List.mk_mem_zipIdx_iff_getElem?.mp otherMem)).1
  have moveRank := ((changeAt_eq_some_iff (by omega)).mp change).1
  have otherRank := ((changeAt_eq_some_iff (by omega)).mp otherChange).1
  rw [UInt32.lt_iff_toNat_lt]
  omega

theorem getElem?_renumbered (images : List ImageRecord) (rank : Nat) :
    (renumbered images)[rank]? =
      images[rank]?.map fun image => { image with sortOrder := rank.toUInt32 } :=
  List.getElem?_mapIdx

/-- Nothing has to change in a renumbered list. -/
theorem changedRanks_renumbered (images : List ImageRecord) :
    changedRanks 0 (renumbered images) = [] := by
  rw [changedRanks_eq_filterMap, List.filterMap_eq_nil_iff]
  rintro ⟨image, rank⟩ mem
  rw [List.mk_mem_zipIdx_iff_getElem?, getElem?_renumbered, Option.map_eq_some_iff] at mem
  obtain ⟨_, -, rfl⟩ := mem
  exact if_pos rfl

/-- There is nothing to plan for images that are at their ranks on display. -/
theorem planRanks_of_arrange (arranged : ImageRecord.arrange images = renumbered ranked) :
    planRanks images (fun image => image.sortOrder.toNat) = [] := by
  rw [planRanks, ← arrange_eq_rankedBy, arranged, changedRanks_renumbered]

/-! ## Carrying a plan out in any order -/

/-- Moves of different images can be made in any order. -/
theorem ImageRecord.placed_perm (permuted : moves.Perm plan) (distinct : (plan.map (·.1)).Nodup)
    (image : ImageRecord) : image.placed moves = image.placed plan := by
  refine permuted.foldl_eq' ?_ image
  intro move mem other otherMem image
  by_cases same : move.1 = other.1
  · rw [List.inj_on_of_nodup_map distinct (permuted.subset mem) (permuted.subset otherMem) same]
  · by_cases named : image.id = move.1
    · have foreign : image.id ≠ other.1 := named ▸ same
      simp only [if_pos named, if_neg foreign]
    · simp only [if_neg named]
      split <;> rfl

section Plans

variable (distinct : (images.map (·.id)).Nodup)

include distinct

theorem nodup_map_fst_planRanks : ((planRanks images effective).map (·.1)).Nodup :=
  (nodup_map_id_rankedBy distinct effective).sublist (map_fst_changedRanks_sublist 0 _)

/-- Carrying a plan out in any order settles the images. -/
theorem map_placed_of_perm_planRanks (permuted : moves.Perm (planRanks images effective)) :
    images.map (ImageRecord.placed moves) = settle effective images := by
  apply List.map_congr_left
  intro image mem
  rw [ImageRecord.placed_perm permuted (nodup_map_fst_planRanks distinct)]
  exact placed_planRanks distinct mem rfl rfl

/-- A plan for the same images is the same plan. -/
theorem planRanks_eq_of_mem_iff (otherDistinct : (others.map (·.id)).Nodup)
    (same : ∀ image, image ∈ others ↔ image ∈ images) :
    planRanks others effective = planRanks images effective := by
  have permuted := (List.perm_ext_iff_of_nodup otherDistinct.of_map distinct.of_map).mpr same
  rw [planRanks, planRanks, rankedBy_eq_of_perm permuted otherDistinct]

/-- No moves to the ranks leave an image out that is not at its rank. -/
theorem map_fst_planRanks_subset (small : images.length ≤ UInt32.size)
    (reached : ImageRecord.arrange (images.map (ImageRecord.placed moves)) =
      renumbered (rankedBy effective images)) :
    (planRanks images effective).map (·.1) ⊆ moves.map (·.1) := by
  have permuted := rankedBy_perm effective images
  intro id planned
  obtain ⟨move, mem, rfl⟩ := List.mem_map.mp planned
  obtain ⟨image, there, named, misplaced⟩ :=
    (mem_changedRanks_iff (permuted.length_eq ▸ small)).mp mem
  by_contra left
  rw [← named] at left
  -- An image that is not moved is found as it is among the results, and at its rank as well.
  have kept : image ∈ renumbered (rankedBy effective images) := by
    rw [← reached, (arrange_perm _).mem_iff, ← ImageRecord.placed_of_not_mem left]
    exact List.mem_map_of_mem (permuted.subset (List.mem_of_getElem? there))
  have ranked : { image with sortOrder := move.2 } ∈ renumbered (rankedBy effective images) := by
    apply List.mem_of_getElem?
    rw [getElem?_renumbered, there, Option.map_some, Nat.toUInt32, UInt32.ofNat_toNat]
  have ids : ((renumbered (rankedBy effective images)).map (·.id)).Nodup := by
    rw [map_id_renumbered]
    exact nodup_map_id_rankedBy distinct effective
  exact misplaced (congrArg (·.sortOrder) (eq_of_id_eq ids kept ranked rfl))

end Plans

/-! ## Exact plans -/

/-- What a plan for images of a ranking is. -/
structure ExactPlan (effective : ImageRecord → Nat) (images ranked : List ImageRecord)
    (plan : List (Int × UInt32)) : Prop where
  /-- No image is moved twice. -/
  distinct : (plan.map (·.1)).Nodup
  /-- The images that are not at their rank are moved there. -/
  mem_iff (move : Int × UInt32) : move ∈ plan ↔
    ∃ image, ranked[move.2.toNat]? = some image ∧ image.id = move.1 ∧ image.sortOrder ≠ move.2
  ascending : plan.Pairwise fun first second => first.2 < second.2
  /-- The moves can be made in any order. -/
  reaches {moves : List (Int × UInt32)} (permuted : moves.Perm plan) :
    ImageRecord.arrange (images.map (ImageRecord.placed moves)) = renumbered ranked
  /-- Nothing is left to do afterwards. -/
  again {moves : List (Int × UInt32)} (permuted : moves.Perm plan) :
    planRanks (images.map (ImageRecord.placed moves)) (fun image => image.sortOrder.toNat) = []
  /-- Fewer moves do not do. -/
  minimal {moves : List (Int × UInt32)}
    (reached : ImageRecord.arrange (images.map (ImageRecord.placed moves)) = renumbered ranked) :
    plan.map (·.1) ⊆ moves.map (·.1) ∧ plan.length ≤ moves.length
  /-- The order that the images are given in does not matter. -/
  unordered {others : List ImageRecord} (distinct : (others.map (·.id)).Nodup)
    (same : ∀ image, image ∈ others ↔ image ∈ images) : planRanks others effective = plan

theorem exactPlan_planRanks (distinct : (images.map (·.id)).Nodup)
    (small : images.length ≤ UInt32.size) (effective : ImageRecord → Nat) :
    ExactPlan effective images (rankedBy effective images) (planRanks images effective) := by
  have rankedSmall : (rankedBy effective images).length ≤ UInt32.size :=
    (rankedBy_perm effective images).length_eq ▸ small
  have named : ((planRanks images effective).map (·.1)).Nodup := nodup_map_fst_planRanks distinct
  have reaches {moves : List (Int × UInt32)} (permuted : moves.Perm (planRanks images effective)) :
      ImageRecord.arrange (images.map (ImageRecord.placed moves)) =
        renumbered (rankedBy effective images) := by
    rw [map_placed_of_perm_planRanks distinct permuted, arrange_settle_eq_renumbered distinct small]
  constructor
  case distinct => exact named
  case mem_iff => exact fun _ => mem_changedRanks_iff rankedSmall
  case ascending => exact pairwise_changedRanks rankedSmall
  case reaches => exact reaches
  case again => exact fun permuted => planRanks_of_arrange (reaches permuted)
  case minimal =>
    intro moves reached
    have covered := map_fst_planRanks_subset distinct small reached
    refine ⟨covered, ?_⟩
    simpa using (List.subperm_of_subset named covered).length_le
  case unordered => exact fun otherDistinct => planRanks_eq_of_mem_iff distinct otherDistinct

/-! ## Plans in transactions -/

section Transactions

variable {τ : Type} [GalleryTx τ]

/-- What carrying out a plan in a transaction does. Whether it succeeds depends on whether the
transaction works. -/
structure CarriesOut (works : Prop) (tx : τ) (ranked : List ImageRecord)
    (plan : List (Int × UInt32)) : Prop where
  succeeds {moves : List (Int × UInt32)} (works : works) (permuted : moves.Perm plan) :
    ∃ next, Manager.place tx moves = .ok next
  listed {moves : List (Int × UInt32)} {next : τ} (permuted : moves.Perm plan)
    (placed : Manager.place tx moves = .ok next) : GalleryTx.list next = renumbered ranked
  again {moves : List (Int × UInt32)} {next : τ} (permuted : moves.Perm plan)
    (placed : Manager.place tx moves = .ok next) :
    planRanks (GalleryTx.list next) (fun image => image.sortOrder.toNat) = []

variable [TxView τ]

/-- A plan is carried out in a transaction that stays good for moves of images that are there. -/
theorem carriesOut_planRanks [LawfulTx τ] {good : τ → Prop}
    (moves : ∀ {tx : τ} {id : Int} (order : UInt32), good tx →
      (∃ image ∈ (TxView.draft tx).images, image.id = id) →
      ∃ next, GalleryTx.setSortOrder tx id order = (.ok (), next) ∧ good next)
    {works : Prop} {tx : τ} (fine : works → good tx) (distinct : (images.map (·.id)).Nodup)
    (small : images.length ≤ UInt32.size) (held : (GalleryTx.list tx).Perm images) :
    CarriesOut works tx (rankedBy effective images) (planRanks images effective) := by
  have drafted : (TxView.draft tx).images.Perm images := by
    rw [LawfulTx.list_eq] at held
    exact (arrange_perm _).symm.trans held
  have draftDistinct := (drafted.map (·.id)).nodup_iff.mpr distinct
  have exactly := exactPlan_planRanks draftDistinct (drafted.length_eq ▸ small) effective
  rw [planRanks_eq_of_mem_iff draftDistinct distinct fun image => drafted.symm.mem_iff,
    rankedBy_eq_of_perm drafted.symm distinct]
  have listed {made : List (Int × UInt32)} {next : τ}
      (permuted : made.Perm (planRanks (TxView.draft tx).images effective))
      (placed : Manager.place tx made = .ok next) :
      GalleryTx.list next = renumbered (rankedBy effective (TxView.draft tx).images) := by
    rw [LawfulTx.list_eq, Manager.draft_of_place placed]
    exact exactly.reaches permuted
  constructor
  case succeeds =>
    intro made working permuted
    have named : ∀ move ∈ made, move.1 ∈ (TxView.draft tx).images.map (·.id) :=
      fun move mem => fst_mem_of_mem_planRanks (permuted.subset mem)
    obtain ⟨next, placed, -⟩ := Manager.exists_place_of moves (fine working) named
    exact ⟨next, placed⟩
  case listed => exact listed
  case again =>
    intro made next permuted placed
    apply planRanks_of_arrange
    rw [listed permuted placed, arrange_renumbered]
    rw [(rankedBy_perm _ _).length_eq, drafted.length_eq]
    exact small

/-- A transaction that tells which calls succeed carries plans out. -/
theorem carriesOut_of_predictable [PredictableTx τ] (tx : τ) (distinct : (images.map (·.id)).Nodup)
    (small : images.length ≤ UInt32.size) (held : (GalleryTx.list tx).Perm images) :
    CarriesOut True tx (rankedBy effective images) (planRanks images effective) := by
  have moves : ∀ {tx : τ} {id : Int} (order : UInt32), True →
      (∃ image ∈ (TxView.draft tx).images, image.id = id) →
      ∃ next, GalleryTx.setSortOrder tx id order = (.ok (), next) ∧ True := by
    intro tx id order _ member
    obtain ⟨next, moved⟩ := PredictableTx.exists_setSortOrder order member
    exact ⟨next, moved, trivial⟩
  exact carriesOut_planRanks moves id distinct small held

/-- So does one that may refuse calls, if it refuses none. -/
theorem carriesOut_of_calm [PredictableTx τ] (tx : FallibleTx τ)
    (distinct : (images.map (·.id)).Nodup) (small : images.length ≤ UInt32.size)
    (held : (GalleryTx.list tx).Perm images) :
    CarriesOut tx.Calm tx (rankedBy effective images) (planRanks images effective) := by
  refine carriesOut_planRanks ?_ id distinct small held
  intro tx id order calm member
  obtain ⟨next, moved⟩ : ∃ next, GalleryTx.setSortOrder tx.inner id order = (.ok (), next) :=
    PredictableTx.exists_setSortOrder order member
  refine ⟨_, ?_, calm.after .setSortOrder (GalleryTx.setSortOrder tx.inner id order)⟩
  change tx.attempt .setSortOrder (GalleryTx.setSortOrder tx.inner id order) = _
  rw [calm.attempt, moved]

end Transactions

/-- Plans are exact: for images with different ids that have a rank each, whatever the wanted
positions are, and in a transaction of every store. -/
theorem plansExactly_inEveryStore (distinct : (images.map (·.id)).Nodup)
    (small : images.length ≤ UInt32.size) (effective : ImageRecord → Nat) :
    (∃ ranked, Ranking effective images ranked) ∧
    ∀ ranked, Ranking effective images ranked →
      ExactPlan effective images ranked (planRanks images effective) ∧
      (∀ tx : MemoryTx, (GalleryTx.list tx).Perm images →
        CarriesOut True tx ranked (planRanks images effective)) ∧
      (∀ tx : DatabaseTx, (GalleryTx.list tx).Perm images →
        CarriesOut True tx ranked (planRanks images effective)) ∧
      ∀ tx : FallibleTx DatabaseTx, (GalleryTx.list tx).Perm images →
        CarriesOut tx.Calm tx ranked (planRanks images effective) := by
  refine ⟨⟨_, ranking_rankedBy distinct effective⟩, fun ranked ranking => ?_⟩
  rw [ranking.eq_rankedBy distinct]
  exact ⟨exactPlan_planRanks distinct small effective,
    fun tx => carriesOut_of_predictable tx distinct small,
    fun tx => carriesOut_of_predictable tx distinct small,
    fun tx => carriesOut_of_calm tx distinct small⟩

/-- The images of an uneven gallery in display order. -/
def unevenRanked : List ImageRecord :=
  [unevenImages[3], unevenImages[0], unevenImages[1]]

/-- The first image of an uneven gallery is at its rank. The two others stand at one position and
are moved from there, in one order or the other. -/
theorem plansExactly_uneven :
    planRanks (Database.uneven.rowsOf "p") (fun image => image.sortOrder.toNat) =
      [(1, 1), (2, 2)] ∧
    ExactPlan (fun image => image.sortOrder.toNat) (Database.uneven.rowsOf "p") unevenRanked
      [(1, 1), (2, 2)] ∧
    ∃ next, Manager.place (GalleryStore.start Database.uneven "p") [(2, 2), (1, 1)] = .ok next ∧
      GalleryTx.list next = renumbered unevenRanked := by
  have ranking : Ranking (fun image => image.sortOrder.toNat) (Database.uneven.rowsOf "p")
      unevenRanked :=
    ⟨by decide +kernel, by decide +kernel⟩
  have distinct : ((Database.uneven.rowsOf "p").map (·.id)).Nodup := by decide +kernel
  have small : (Database.uneven.rowsOf "p").length ≤ UInt32.size := by decide +kernel
  have planned : planRanks (Database.uneven.rowsOf "p") (fun image => image.sortOrder.toNat) =
      [(1, 1), (2, 2)] := by
    rw [planRanks, ← ranking.eq_rankedBy distinct]
    decide +kernel
  obtain ⟨exactly, -, inDatabase, -⟩ :=
    (plansExactly_inEveryStore distinct small fun image => image.sortOrder.toNat).2 _ ranking
  rw [planned] at exactly inDatabase
  have carried := inDatabase (GalleryStore.start Database.uneven "p") (arrange_perm _)
  obtain ⟨next, placed⟩ := carried.succeeds trivial (.swap _ _ _)
  exact ⟨planned, exactly, next, placed, carried.listed (.swap _ _ _) placed⟩

end ImageGallery
