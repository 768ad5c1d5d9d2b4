import Mathlib.Data.List.Nodup
import Mathlib.Data.List.Perm.Basic
import ImageGallery.Order.Ranks

/-!
# Display order and ranks

Ranking by a wanted position and then by id is a linear order on images with distinct ids, so a
set of images has one ranking, whatever list it is given as. Display order is the ranking by the
images' own positions. Carrying out a plan gives every image its rank as position, and nothing
else of an image changes.
-/

namespace ImageGallery

variable {effective : ImageRecord → Nat} {images ranked : List ImageRecord}

/-! ## Ranking order -/

theorem ranksBefore_iff {first second : ImageRecord} :
    ranksBefore effective first second = true ↔
      effective first < effective second ∨
        effective first = effective second ∧ first.id ≤ second.id := by
  simp [ranksBefore]

theorem ranksBefore_total (first second : ImageRecord) :
    (ranksBefore effective first second || ranksBefore effective second first) = true := by
  rw [Bool.or_eq_true, ranksBefore_iff, ranksBefore_iff]
  omega

theorem ranksBefore_trans (first second third : ImageRecord)
    (left : ranksBefore effective first second = true)
    (right : ranksBefore effective second third = true) :
    ranksBefore effective first third = true := by
  rw [ranksBefore_iff] at *
  omega

/-- Images that rank before each other have one id. -/
theorem id_eq_of_ranksBefore {first second : ImageRecord}
    (left : ranksBefore effective first second = true)
    (right : ranksBefore effective second first = true) : first.id = second.id := by
  rw [ranksBefore_iff] at *
  omega

/-- Display order is the ranking by the images' own positions. -/
theorem precedes_eq_ranksBefore :
    ImageRecord.precedes = ranksBefore fun image => image.sortOrder.toNat := by
  funext first second
  simp only [ImageRecord.precedes, ranksBefore, UInt32.lt_iff_toNat_lt, ← UInt32.toNat_inj]

theorem arrange_eq_rankedBy (images : List ImageRecord) :
    ImageRecord.arrange images = rankedBy (fun image => image.sortOrder.toNat) images := by
  rw [ImageRecord.arrange, rankedBy, precedes_eq_ranksBefore]

theorem rankedBy_perm (effective : ImageRecord → Nat) (images : List ImageRecord) :
    (rankedBy effective images).Perm images :=
  List.mergeSort_perm _ _

theorem arrange_perm (images : List ImageRecord) : (ImageRecord.arrange images).Perm images :=
  List.mergeSort_perm _ _

/-- Images that differ in their ids still do when they are ranked. -/
theorem nodup_map_id_rankedBy (distinct : (images.map (·.id)).Nodup)
    (effective : ImageRecord → Nat) : ((rankedBy effective images).map (·.id)).Nodup :=
  ((rankedBy_perm effective images).map _).nodup_iff.mpr distinct

theorem nodup_map_id_arrange (distinct : (images.map (·.id)).Nodup) :
    ((ImageRecord.arrange images).map (·.id)).Nodup :=
  ((arrange_perm images).map _).nodup_iff.mpr distinct

theorem pairwise_rankedBy (effective : ImageRecord → Nat) (images : List ImageRecord) :
    (rankedBy effective images).Pairwise fun first second => ranksBefore effective first second :=
  List.pairwise_mergeSort ranksBefore_trans ranksBefore_total images

/-- Ranking leaves a list alone exactly when it is in ranking order. -/
theorem rankedBy_eq_self_iff :
    rankedBy effective images = images ↔
      images.Pairwise fun first second => ranksBefore effective first second := by
  constructor
  · intro same
    rw [← same]
    exact pairwise_rankedBy effective images
  · exact List.mergeSort_of_pairwise

/-- Two images of a list with distinct ids that have one id are one image. -/
theorem eq_of_id_eq (distinct : (images.map (·.id)).Nodup) {first second : ImageRecord}
    (firstMem : first ∈ images) (secondMem : second ∈ images) (same : first.id = second.id) :
    first = second :=
  List.inj_on_of_nodup_map distinct firstMem secondMem same

/-- Lists of the same images with distinct ids that are both in ranking order are equal. -/
theorem eq_of_perm_of_ranked {first second : List ImageRecord} (permuted : first.Perm second)
    (distinct : (first.map (·.id)).Nodup)
    (firstRanked : first.Pairwise fun left right => ranksBefore effective left right)
    (secondRanked : second.Pairwise fun left right => ranksBefore effective left right) :
    first = second := by
  refine permuted.eq_of_pairwise ?_ firstRanked secondRanked
  intro left right leftMem rightMem before after
  exact eq_of_id_eq distinct leftMem (permuted.mem_iff.mpr rightMem)
    (id_eq_of_ranksBefore before after)

/-- A set of images has one ranking. -/
theorem rankedBy_eq_of_perm {first second : List ImageRecord} (permuted : first.Perm second)
    (distinct : (first.map (·.id)).Nodup) :
    rankedBy effective first = rankedBy effective second := by
  refine eq_of_perm_of_ranked ?_ ?_ (pairwise_rankedBy _ _) (pairwise_rankedBy _ _)
  · exact (rankedBy_perm _ _).trans (permuted.trans (rankedBy_perm _ _).symm)
  · exact nodup_map_id_rankedBy distinct _

/-- Ranking is stable: one more image goes in front of the first one that it ranks before. -/
theorem exists_rankedBy_cons (effective : ImageRecord → Nat) (image : ImageRecord)
    (images : List ImageRecord) : ∃ front rest,
    rankedBy effective (image :: images) = front ++ image :: rest ∧
      rankedBy effective images = front ++ rest ∧
      (∀ other ∈ front, ranksBefore effective image other = false) ∧
      ∀ other ∈ rest, ranksBefore effective image other = true := by
  obtain ⟨front, rest, whole, parts, ahead⟩ := List.mergeSort_cons
    (@ranksBefore_trans effective) ranksBefore_total image images
  have sorted := pairwise_rankedBy effective (image :: images)
  rw [rankedBy, whole, List.pairwise_append] at sorted
  refine ⟨front, rest, whole, parts, ?_, fun other => List.rel_of_pairwise_cons sorted.2.1⟩
  simpa using ahead

/-- Images in ranking order that all others rank before stay behind them. -/
theorem rankedBy_append {records : List ImageRecord}
    (behind : ∀ image ∈ images, ∀ record ∈ records, ranksBefore effective image record = true)
    (ranked : records.Pairwise fun first second => ranksBefore effective first second) :
    rankedBy effective (images ++ records) = rankedBy effective images ++ records := by
  induction images with
  | nil =>
      rw [List.nil_append, rankedBy_eq_self_iff.mpr ranked, rankedBy, List.mergeSort_nil,
        List.nil_append]
  | cons image images ih =>
      obtain ⟨here, there⟩ := List.forall_mem_cons.mp behind
      obtain ⟨front, rest, whole, parts, ahead, follows⟩ :=
        exists_rankedBy_cons effective image (images ++ records)
      obtain ⟨oldFront, oldRest, oldWhole, oldParts, oldAhead, oldFollows⟩ :=
        exists_rankedBy_cons effective image images
      have behindImage : ∀ other ∈ oldRest ++ records, ranksBefore effective image other = true :=
        List.forall_mem_append.mpr ⟨oldFollows, here⟩
      rw [ih there, oldParts, List.append_assoc] at parts
      -- The images in front are those that the image does not rank before.
      have split {front rest : List ImageRecord}
          (ahead : ∀ other ∈ front, ranksBefore effective image other = false)
          (follows : ∀ other ∈ rest, ranksBefore effective image other = true) :
          (front ++ rest).filter (fun other => !ranksBefore effective image other) = front := by
        rw [List.filter_append, List.filter_eq_self.mpr (by simpa using ahead),
          List.filter_eq_nil_iff.mpr (by simpa using follows), List.append_nil]
      obtain rfl : front = oldFront := by
        rw [← split ahead follows, ← parts, split oldAhead behindImage]
      obtain rfl : rest = oldRest ++ records := (List.append_cancel_left parts).symm
      rw [List.cons_append, whole, oldWhole, List.append_assoc, List.cons_append]

/-- Ranking does not depend on the display order that images are in. -/
theorem rankedBy_arrange (distinct : (images.map (·.id)).Nodup) :
    rankedBy effective (ImageRecord.arrange images) = rankedBy effective images :=
  (rankedBy_eq_of_perm (arrange_perm images).symm distinct).symm

/-- What is left of a gallery keeps its display order. -/
theorem arrange_filter (distinct : (images.map (·.id)).Nodup) (keeps : ImageRecord → Bool) :
    ImageRecord.arrange (images.filter keeps) = (ImageRecord.arrange images).filter keeps := by
  have shown := pairwise_rankedBy (fun image => image.sortOrder.toNat) images
  have left := pairwise_rankedBy (fun image => image.sortOrder.toNat) (images.filter keeps)
  rw [← arrange_eq_rankedBy] at shown left
  refine eq_of_perm_of_ranked ?_ ?_ left (shown.sublist List.filter_sublist)
  · exact (arrange_perm _).trans ((arrange_perm images).filter keeps).symm
  · exact nodup_map_id_arrange (distinct.sublist (List.filter_sublist.map _))

/-! ## Carrying out a plan -/

/-- A plan names images of the list that it is made for, in the order of the list. -/
theorem map_fst_changedRanks_sublist (rank : Nat) (ranked : List ImageRecord) :
    ((changedRanks rank ranked).map (·.1)).Sublist (ranked.map (·.id)) := by
  induction ranked generalizing rank with
  | nil => exact .slnil
  | cons image ranked ih =>
      unfold changedRanks
      split
      · exact (ih _).cons image.id
      · exact (ih _).cons_cons image.id

namespace ImageRecord

/-- An image after the moves of a plan, one after the other. -/
def placed (plan : List (Int × UInt32)) (image : ImageRecord) : ImageRecord :=
  plan.foldl
    (fun image move => if image.id = move.1 then { image with sortOrder := move.2 } else image)
    image

/-- The image with its rank in a list as its position. -/
def atRankIn (ranked : List ImageRecord) (image : ImageRecord) : ImageRecord :=
  { image with sortOrder := ((ranked.map (·.id)).idxOf image.id).toUInt32 }

@[simp]
theorem placed_nil (image : ImageRecord) : placed [] image = image :=
  rfl

@[simp]
theorem placed_cons (move : Int × UInt32) (plan : List (Int × UInt32)) (image : ImageRecord) :
    placed (move :: plan) image =
      placed plan (if image.id = move.1 then { image with sortOrder := move.2 } else image) :=
  rfl

@[simp]
theorem id_atRankIn (ranked : List ImageRecord) (image : ImageRecord) :
    (image.atRankIn ranked).id = image.id :=
  rfl

@[simp]
theorem isCover_atRankIn (ranked : List ImageRecord) (image : ImageRecord) :
    (image.atRankIn ranked).isCover = image.isCover :=
  rfl

@[simp]
theorem id_placed (plan : List (Int × UInt32)) (image : ImageRecord) :
    (image.placed plan).id = image.id := by
  induction plan generalizing image with
  | nil => rfl
  | cons move plan ih =>
      rw [placed_cons, ih]
      split <;> rfl

/-- Moves that do not name an image leave it alone. -/
theorem placed_of_not_mem {image : ImageRecord} {plan : List (Int × UInt32)}
    (foreign : image.id ∉ plan.map (·.1)) : placed plan image = image := by
  induction plan with
  | nil => rfl
  | cons move plan ih =>
      rw [List.map_cons, List.mem_cons, not_or] at foreign
      rw [placed_cons, if_neg foreign.1, ih foreign.2]

/-- A plan that names no image of an id leaves that image alone. -/
theorem placed_changedRanks_of_not_mem {image : ImageRecord} (rank : Nat)
    (foreign : image.id ∉ ranked.map (·.id)) : placed (changedRanks rank ranked) image = image :=
  placed_of_not_mem fun named => foreign ((map_fst_changedRanks_sublist rank ranked).subset named)

/-- A plan gives each image its rank. The image may have changed since the plan was made, but not
its id and its position. -/
theorem placed_changedRanks {image planned : ImageRecord} (rank : Nat)
    (distinct : (ranked.map (·.id)).Nodup) (mem : planned ∈ ranked)
    (sameId : image.id = planned.id) (sameOrder : image.sortOrder = planned.sortOrder) :
    placed (changedRanks rank ranked) image =
      { image with sortOrder := (rank + (ranked.map (·.id)).idxOf image.id).toUInt32 } := by
  induction ranked generalizing rank with
  | nil => simp at mem
  | cons head rest ih =>
      rw [List.map_cons, List.nodup_cons] at distinct
      by_cases first : planned = head
      · subst first
        have foreign : image.id ∉ rest.map (·.id) := sameId ▸ distinct.1
        have leading : ((planned :: rest).map (·.id)).idxOf image.id = 0 := by
          rw [List.map_cons, sameId, List.idxOf_cons_self]
        rw [leading, Nat.add_zero]
        unfold changedRanks
        split
        · rename_i unchanged
          rw [placed_changedRanks_of_not_mem _ foreign, ← unchanged, ← sameOrder]
        · rw [placed_cons, if_pos sameId]
          exact placed_changedRanks_of_not_mem _ foreign
      · have restMem : planned ∈ rest := (List.mem_cons.mp mem).resolve_left first
        have differ : head.id ≠ image.id := by
          intro same
          apply distinct.1
          rw [same, sameId]
          exact List.mem_map_of_mem restMem
        have later : rank + ((head :: rest).map (·.id)).idxOf image.id =
            rank + 1 + (rest.map (·.id)).idxOf image.id := by
          rw [List.map_cons, List.idxOf_cons_ne _ differ]
          omega
        rw [later]
        unfold changedRanks
        split
        · exact ih _ distinct.2 restMem
        · rw [placed_cons, if_neg differ.symm]
          exact ih _ distinct.2 restMem

end ImageRecord

/-! ## Ranks as positions -/

/-- Images with their ranks as positions, in the order that they are given in. -/
def settle (effective : ImageRecord → Nat) (images : List ImageRecord) : List ImageRecord :=
  images.map fun image => image.atRankIn (rankedBy effective images)

/-- Carrying a plan out ranks an image that may have changed since the plan was made, but not its id
and its position. -/
theorem placed_planRanks (distinct : (images.map (·.id)).Nodup) {image planned : ImageRecord}
    (mem : planned ∈ images) (sameId : image.id = planned.id)
    (sameOrder : image.sortOrder = planned.sortOrder) :
    image.placed (planRanks images effective) = image.atRankIn (rankedBy effective images) := by
  have placed := ImageRecord.placed_changedRanks 0 (nodup_map_id_rankedBy distinct effective)
    ((rankedBy_perm effective images).mem_iff.mpr mem) sameId sameOrder
  rw [planRanks, placed, Nat.zero_add]
  rfl

/-- Carrying a plan for a displayed gallery out settles the gallery. -/
theorem map_placed_planRanks_arrange (distinct : (images.map (·.id)).Nodup) :
    images.map (ImageRecord.placed (planRanks (ImageRecord.arrange images) effective)) =
      settle effective images := by
  apply List.map_congr_left
  intro image mem
  rw [← rankedBy_arrange distinct]
  exact placed_planRanks (nodup_map_id_arrange distinct) ((arrange_perm images).mem_iff.mpr mem)
    rfl rfl

/-- Whether the positions of images are `0, 1, …`, each once. -/
def Dense (images : List ImageRecord) : Prop :=
  (images.map fun image => image.sortOrder.toNat).Perm (List.range images.length)

@[simp]
theorem length_settle : (settle effective images).length = images.length := by
  simp [settle]

@[simp]
theorem map_id_settle : (settle effective images).map (·.id) = images.map (·.id) := by
  simp [settle, Function.comp_def]

/-- The ranks along a list of distinct images are `0, 1, …`. -/
theorem map_idxOf_self {ids : List Int} (distinct : ids.Nodup) :
    ids.map ids.idxOf = List.range ids.length := by
  apply List.ext_getElem (by simp)
  intro index _ bound
  rw [List.getElem_map, List.getElem_range]
  exact distinct.idxOf_getElem _ _

/-- The positions of images at their ranks in a list of the same images. -/
theorem map_sortOrder_atRankIn (small : ranked.length ≤ UInt32.size)
    (permuted : (images.map (·.id)).Perm (ranked.map (·.id))) :
    (images.map fun image => (image.atRankIn ranked).sortOrder.toNat) =
      (images.map (·.id)).map (ranked.map (·.id)).idxOf := by
  rw [List.map_map]
  apply List.map_congr_left
  intro image mem
  have listed : image.id ∈ ranked.map (·.id) := permuted.mem_iff.mp (List.mem_map_of_mem mem)
  have bound := List.idxOf_lt_length_of_mem listed
  rw [List.length_map] at bound
  have fits : (ranked.map (·.id)).idxOf image.id % 2 ^ 32 = (ranked.map (·.id)).idxOf image.id :=
    Nat.mod_eq_of_lt (Nat.lt_of_lt_of_le bound small)
  simpa [ImageRecord.atRankIn, Nat.toUInt32] using fits

theorem dense_atRankIn (distinct : (ranked.map (·.id)).Nodup)
    (small : ranked.length ≤ UInt32.size)
    (permuted : (images.map (·.id)).Perm (ranked.map (·.id))) :
    Dense (images.map fun image => image.atRankIn ranked) := by
  have sameLength : images.length = (ranked.map (·.id)).length := by
    simpa using permuted.length_eq
  rw [Dense, List.map_map, List.length_map, sameLength]
  exact (List.Perm.of_eq (map_sortOrder_atRankIn small permuted)).trans
    ((permuted.map _).trans (List.Perm.of_eq (map_idxOf_self distinct)))

theorem dense_settle (distinct : (images.map (·.id)).Nodup) (small : images.length ≤ UInt32.size) :
    Dense (settle effective images) := by
  have permuted := rankedBy_perm effective images
  refine dense_atRankIn (nodup_map_id_rankedBy distinct effective) ?_ (permuted.map _).symm
  rwa [permuted.length_eq]

/-- In display order no position is followed by a smaller one. -/
theorem pairwise_sortOrder_arrange (images : List ImageRecord) :
    ((ImageRecord.arrange images).map fun image => image.sortOrder.toNat).Pairwise (· ≤ ·) := by
  rw [arrange_eq_rankedBy, List.pairwise_map]
  apply (pairwise_rankedBy _ _).imp
  intro first second before
  rw [ranksBefore_iff] at before
  omega

/-- Dense positions in display order are `0, 1, …` one after the other, and no other positions
are. -/
theorem map_sortOrder_arrange_iff :
    (ImageRecord.arrange images).map (fun image => image.sortOrder.toNat) =
        List.range images.length ↔ Dense images := by
  have permuted := (arrange_perm images).map fun image => image.sortOrder.toNat
  constructor
  · intro counted
    exact permuted.symm.trans (List.Perm.of_eq counted)
  · intro dense
    have shown := pairwise_sortOrder_arrange images
    have counted : (List.range images.length).Pairwise (· ≤ ·) :=
      List.pairwise_lt_range.imp fun less => Nat.le_of_lt less
    refine (permuted.trans dense).eq_of_pairwise ?_ shown counted
    intro first second _ _ left right
    exact Nat.le_antisymm left right

/-- Settled images are displayed in ranking order. -/
theorem arrange_settle (distinct : (images.map (·.id)).Nodup)
    (small : images.length ≤ UInt32.size) :
    ImageRecord.arrange (settle effective images) =
      (rankedBy effective images).map fun image =>
        image.atRankIn (rankedBy effective images) := by
  have permuted := rankedBy_perm effective images
  have rankedDistinct := nodup_map_id_rankedBy distinct effective
  have rankedSmall : (rankedBy effective images).length ≤ UInt32.size := by
    rwa [permuted.length_eq]
  have ranks := map_sortOrder_atRankIn rankedSmall (List.Perm.refl _)
  rw [map_idxOf_self rankedDistinct] at ranks
  have ranked : ((rankedBy effective images).map fun image =>
      image.atRankIn (rankedBy effective images)).Pairwise fun first second =>
        ranksBefore (fun image => image.sortOrder.toNat) first second := by
    have ascending : ((rankedBy effective images).map fun image =>
        (image.atRankIn (rankedBy effective images)).sortOrder.toNat).Pairwise (· < ·) := by
      rw [ranks]
      exact List.pairwise_lt_range
    rw [List.pairwise_map]
    apply (List.pairwise_map.mp ascending).imp
    intro first second less
    exact ranksBefore_iff.mpr (Or.inl less)
  rw [arrange_eq_rankedBy]
  refine eq_of_perm_of_ranked ?_ ?_ (pairwise_rankedBy _ _) ranked
  · exact (rankedBy_perm _ _).trans (permuted.symm.map _)
  · exact nodup_map_id_rankedBy (by rwa [map_id_settle]) _

/-! ## Renumbered galleries -/

/-- Images with the positions `0, 1, …` in the order of a list. -/
def renumbered (images : List ImageRecord) : List ImageRecord :=
  images.mapIdx fun rank image => { image with sortOrder := rank.toUInt32 }

@[simp]
theorem map_id_renumbered (images : List ImageRecord) :
    (renumbered images).map (·.id) = images.map (·.id) := by
  apply List.ext_getElem (by simp [renumbered])
  intro index _ _
  simp [renumbered]

/-- Ranks along a list renumber it. -/
theorem map_atRankIn_eq_renumbered (distinct : (images.map (·.id)).Nodup) :
    images.map (fun image => image.atRankIn images) = renumbered images := by
  apply List.ext_getElem (by simp [renumbered])
  intro index _ bound
  rw [renumbered, List.length_mapIdx] at bound
  have rank : (images.map (·.id)).idxOf images[index].id = index := by
    have found := distinct.idxOf_getElem index (by simpa using bound)
    rwa [List.getElem_map] at found
  simp only [renumbered, List.getElem_map, List.getElem_mapIdx, ImageRecord.atRankIn, rank]

/-- A renumbered list is on display in its order. -/
theorem arrange_renumbered (small : images.length ≤ UInt32.size) :
    ImageRecord.arrange (renumbered images) = renumbered images := by
  rw [arrange_eq_rankedBy, rankedBy_eq_self_iff, List.pairwise_iff_getElem]
  intro first second firstBound secondBound before
  rw [renumbered, List.length_mapIdx] at firstBound secondBound
  simp only [renumbered, List.getElem_mapIdx]
  refine ranksBefore_iff.mpr (.inl ?_)
  simp only [Nat.toUInt32]
  rw [UInt32.toNat_ofNat_of_lt' (by omega), UInt32.toNat_ofNat_of_lt' (by omega)]
  exact before

/-- Settled images are displayed in ranking order, renumbered. -/
theorem arrange_settle_eq_renumbered (distinct : (images.map (·.id)).Nodup)
    (small : images.length ≤ UInt32.size) :
    ImageRecord.arrange (settle effective images) = renumbered (rankedBy effective images) := by
  rw [arrange_settle distinct small,
    map_atRankIn_eq_renumbered (nodup_map_id_rankedBy distinct effective)]

theorem settle_perm (distinct : (images.map (·.id)).Nodup) :
    (settle effective images).Perm (renumbered (rankedBy effective images)) := by
  rw [settle, ← map_atRankIn_eq_renumbered (nodup_map_id_rankedBy distinct effective)]
  exact (rankedBy_perm effective images).symm.map _

end ImageGallery
