import Mathlib.Data.List.Count
import ImageGallery.Proofs.Effects

/-!
# Galleries in order

A gallery is in order when its images stand in the order of their ids, none of them above the
greatest id given so far, when their positions are `0, 1, …`, when one of them is the cover unless
there is none, and when there are not more of them than the limit allows. Each operation turns a
gallery in order into one.
-/

namespace ImageGallery

open Manager

/-- A gallery in order, for a limit on its images and the greatest id given so far. -/
structure InOrder (limit : Nat) (lastId : Int) (images : List ImageRecord) : Prop where
  ascending : (images.map (·.id)).Pairwise (· < ·)
  known : ∀ image ∈ images, image.id ≤ lastId
  dense : Dense images
  covered : images.countP (·.isCover) = min 1 images.length
  fits : images.length ≤ limit

variable {limit : Nat} {lastId : Int} {images : List ImageRecord}

namespace InOrder

theorem empty (limit : Nat) (lastId : Int) : InOrder limit lastId [] where
  ascending := List.Pairwise.nil
  known := by simp
  dense := by simp [Dense]
  covered := rfl
  fits := Nat.zero_le _

theorem distinct (kept : InOrder limit lastId images) : (images.map (·.id)).Nodup :=
  kept.ascending.imp fun less => Int.ne_of_lt less

/-- Ids that are given to other galleries do no harm. -/
theorem mono {later : Int} (kept : InOrder limit lastId images) (le : lastId ≤ later) :
    InOrder limit later images where
  ascending := kept.ascending
  known image mem := Int.le_trans (kept.known image mem) le
  dense := kept.dense
  covered := kept.covered
  fits := kept.fits

/-- The positions of a gallery in order are below the number of its images. -/
theorem sortOrder_lt (kept : InOrder limit lastId images) {image : ImageRecord}
    (mem : image ∈ images) : image.sortOrder.toNat < images.length := by
  have listed : image.sortOrder.toNat ∈ images.map fun image => image.sortOrder.toNat :=
    List.mem_map_of_mem (f := fun image : ImageRecord => image.sortOrder.toNat) mem
  exact List.mem_range.mp (kept.dense.mem_iff.mp listed)

end InOrder

/-! ## Settling -/

theorem countP_isCover_settle {effective : ImageRecord → Nat} :
    (settle effective images).countP (·.isCover) = images.countP (·.isCover) := by
  rw [settle, List.countP_map]
  rfl

theorem InOrder.settle (kept : InOrder limit lastId images) (small : limit < UInt32.size)
    (effective : ImageRecord → Nat) : InOrder limit lastId (settle effective images) where
  ascending := by
    rw [map_id_settle]
    exact kept.ascending
  known := by
    intro image mem
    obtain ⟨original, originalMem, rfl⟩ := List.mem_map.mp mem
    exact kept.known original originalMem
  dense := dense_settle kept.distinct (Nat.le_trans kept.fits (Nat.le_of_lt small))
  covered := by
    rw [countP_isCover_settle, length_settle]
    exact kept.covered
  fits := by
    rw [length_settle]
    exact kept.fits

/-! ## Choosing the cover -/

/-- The flags that a choice sets are as many as the images that have the chosen id. -/
theorem countP_isCover_withCover {id : Int} :
    (withCover images id).countP (·.isCover) = (images.map (·.id)).count id := by
  rw [withCover, List.countP_map, List.count_eq_countP, List.countP_map]
  apply List.countP_congr
  intro image _
  simp

@[simp]
theorem map_id_withCover {id : Int} : (withCover images id).map (·.id) = images.map (·.id) := by
  simp [withCover, Function.comp_def]

@[simp]
theorem length_withCover {id : Int} : (withCover images id).length = images.length := by
  simp [withCover]

theorem InOrder.withCover (kept : InOrder limit lastId images) {id : Int}
    (mem : id ∈ images.map (·.id)) : InOrder limit lastId (withCover images id) where
  ascending := by
    rw [map_id_withCover]
    exact kept.ascending
  known := by
    intro image mem
    obtain ⟨original, originalMem, rfl⟩ := List.mem_map.mp mem
    exact kept.known original originalMem
  dense := by
    have same : ((Manager.withCover images id).map fun image => image.sortOrder.toNat) =
        images.map fun image => image.sortOrder.toNat := by
      simp [Manager.withCover, Function.comp_def]
    rw [Dense, same, length_withCover]
    exact kept.dense
  covered := by
    have positive : 1 ≤ images.length := by
      rw [← List.length_map (·.id)]
      exact List.length_pos_of_mem mem
    rw [countP_isCover_withCover, List.count_eq_one_of_mem kept.distinct mem, length_withCover,
      Nat.min_eq_left positive]
  fits := by
    rw [length_withCover]
    exact kept.fits

/-! ## Deleting -/

@[simp]
theorem map_id_promote {promoted : Option Int} :
    (promote promoted images).map (·.id) = images.map (·.id) := by
  cases promoted with
  | none => rfl
  | some id => exact map_id_withCover

@[simp]
theorem length_promote {promoted : Option Int} :
    (promote promoted images).length = images.length := by
  cases promoted with
  | none => rfl
  | some id => exact length_withCover

theorem map_id_without {target : ImageRecord} :
    (without images target).map (·.id) =
      (images.filter fun image => image.id ≠ target.id).map (·.id) := by
  rw [without, List.map_map, ← map_id_promote]
  rfl

theorem length_without {target : ImageRecord} : (without images target).length =
    (images.filter fun image => image.id ≠ target.id).length := by
  rw [without, List.length_map, length_promote]

/-- A gallery consists of an image and the images with other ids. -/
theorem perm_cons_filter (distinct : (images.map (·.id)).Nodup) {target : ImageRecord}
    (mem : target ∈ images) :
    images.Perm (target :: images.filter fun image => image.id ≠ target.id) := by
  have same : (images.filter fun image => image.id ≠ target.id) = images.erase target := by
    rw [(List.Nodup.of_map _ distinct).erase_eq_filter]
    apply List.filter_congr
    intro image imageMem
    rw [Bool.eq_iff_iff, decide_eq_true_iff, bne_iff_ne]
    exact not_congr ⟨eq_of_id_eq distinct imageMem mem, fun same => same ▸ rfl⟩
  rw [same]
  exact List.perm_cons_erase mem

theorem countP_isCover_without {target : ImageRecord} :
    (without images target).countP (·.isCover) =
      (promote (promotedAmong (images.filter fun image => image.id ≠ target.id) target)
        (images.filter fun image => image.id ≠ target.id)).countP (·.isCover) := by
  rw [without, List.countP_map]
  rfl

/-- When others are left and the cover is taken out, the first of the others is promoted, and when
another image is taken out the cover stays. -/
theorem InOrder.covered_without (kept : InOrder limit lastId images) {target : ImageRecord}
    (mem : target ∈ images) : (without images target).countP (·.isCover) =
      min 1 (images.filter fun image => image.id ≠ target.id).length := by
  have permuted := perm_cons_filter kept.distinct mem
  have total := kept.covered
  have distinct : ((images.filter fun image => image.id ≠ target.id).map (·.id)).Nodup :=
    kept.distinct.sublist (List.filter_sublist.map _)
  rw [countP_isCover_without]
  rw [permuted.countP_eq, permuted.length_eq] at total
  generalize (images.filter fun image => image.id ≠ target.id) = others at *
  rw [List.length_cons, Nat.min_eq_left (Nat.le_add_left 1 _)] at total
  cases cover : target.isCover with
  | false =>
      have left : others.countP (·.isCover) = 1 := by
        rwa [List.countP_cons_of_neg (by rw [cover]; exact Bool.false_ne_true)] at total
      have bound := List.countP_le_length (p := (·.isCover)) (l := others)
      rw [promotedAmong, cover, if_neg Bool.false_ne_true, promote, left, Nat.min_eq_left]
      rwa [left] at bound
  | true =>
      have left : others.countP (·.isCover) = 0 := by
        rw [List.countP_cons_of_pos (p := fun image : ImageRecord => image.isCover) cover] at total
        omega
      rw [promotedAmong, cover, if_pos rfl]
      cases arranged : ImageRecord.arrange others with
      | nil =>
          have nothing : others = [] := (arranged ▸ (arrange_perm others).symm).eq_nil
          rw [nothing]
          rfl
      | cons first rest =>
          have firstMem : first ∈ others := by
            rw [← (arrange_perm others).mem_iff, arranged]
            exact List.mem_cons_self
          have positive : 1 ≤ others.length := List.length_pos_of_mem firstMem
          rw [List.head?_cons, Option.map_some, promote, countP_isCover_withCover,
            List.count_eq_one_of_mem distinct (List.mem_map_of_mem firstMem),
            Nat.min_eq_left positive]

theorem InOrder.without (kept : InOrder limit lastId images) (small : limit < UInt32.size)
    {target : ImageRecord} (mem : target ∈ images) :
    InOrder limit lastId (without images target) where
  ascending := by
    rw [map_id_without]
    exact kept.ascending.sublist (List.filter_sublist.map _)
  known := by
    intro image imageMem
    have listed : image.id ∈ (Manager.without images target).map (·.id) :=
      List.mem_map_of_mem imageMem
    rw [map_id_without] at listed
    obtain ⟨original, originalMem, same⟩ := List.mem_map.mp listed
    rw [← same]
    exact kept.known original (List.mem_of_mem_filter originalMem)
  dense := by
    have permuted := arrange_perm (images.filter fun image => image.id ≠ target.id)
    apply dense_atRankIn
    · rw [(permuted.map _).nodup_iff]
      exact kept.distinct.sublist (List.filter_sublist.map _)
    · rw [permuted.length_eq]
      exact Nat.le_trans (Nat.le_trans (List.length_filter_le _ _) kept.fits) (Nat.le_of_lt small)
    · rw [map_id_promote]
      exact (permuted.map _).symm
  covered := by
    rw [length_without]
    exact kept.covered_without mem
  fits := by
    rw [length_without]
    exact Nat.le_trans (List.length_filter_le _ _) kept.fits

/-! ## Uploading -/

/-- A bound on the next position is a bound on all positions. -/
theorem foldl_max_le_iff {greatest bound : Nat} :
    images.foldl (fun greatest image => max greatest (image.sortOrder.toNat + 1)) greatest ≤ bound ↔
      greatest ≤ bound ∧ ∀ image ∈ images, image.sortOrder.toNat + 1 ≤ bound := by
  induction images generalizing greatest with
  | nil => simp
  | cons image images ih =>
      rw [List.foldl_cons, ih, Nat.max_le, List.forall_mem_cons, and_assoc]

/-- The next position of a gallery in order is the number of its images. -/
theorem InOrder.nextOrder_eq_length {draft : Draft} (kept : InOrder limit lastId draft.images) :
    draft.nextOrder = draft.images.length := by
  apply Nat.le_antisymm
  · refine foldl_max_le_iff.mpr ⟨Nat.zero_le _, fun image mem => ?_⟩
    exact kept.sortOrder_lt mem
  · have bound : ∀ image ∈ draft.images, image.sortOrder.toNat + 1 ≤ draft.nextOrder :=
      (foldl_max_le_iff.mp (Nat.le_refl _)).2
    rcases length : draft.images.length with _ | last
    · exact Nat.zero_le _
    · have counted : last ∈ List.range draft.images.length := by
        rw [length]
        exact List.mem_range.mpr (Nat.lt_succ_self last)
      obtain ⟨image, mem, position⟩ := List.mem_map.mp (kept.dense.mem_iff.mpr counted)
      rw [← position]
      exact bound image mem

section Records

variable {options : GalleryOptions} {parent : ParentRecord} {order : UInt32} {index : Nat}
  {cover : Bool} {clock : Clock} {saved : List SavedBlob}

@[simp]
theorem length_recordsOf :
    (recordsOf options parent order index cover lastId clock saved).length = saved.length := by
  induction saved generalizing index cover lastId clock with
  | nil => rfl
  | cons first others ih => rw [recordsOf, List.length_cons, ih, List.length_cons]

/-- The ids of new records follow one another. -/
theorem map_id_recordsOf :
    (recordsOf options parent order index cover lastId clock saved).map (·.id) =
      (List.range' 1 saved.length).map fun (offset : Nat) => lastId + offset := by
  induction saved generalizing index cover lastId clock with
  | nil => rfl
  | cons first others ih =>
      have shifted : List.range' (1 + 1) others.length =
          (List.range' 1 others.length).map (· + 1) := List.range'_succ_left
      rw [recordsOf, List.map_cons, ih, List.length_cons, List.range'_succ, List.map_cons, shifted,
        List.map_map]
      refine congrArg _ (List.map_congr_left fun offset _ => ?_)
      rw [Function.comp_apply]
      omega

/-- The positions of new records follow one another. -/
theorem map_sortOrder_recordsOf
    (small : order.toNat + index + saved.length < UInt32.size) :
    (recordsOf options parent order index cover lastId clock saved).map
        (fun image => image.sortOrder.toNat) =
      List.range' (order.toNat + index) saved.length := by
  induction saved generalizing index cover lastId clock with
  | nil => rfl
  | cons first others ih =>
      rw [List.length_cons] at small
      have position : (order + index.toUInt32).toNat = order.toNat + index := by
        rw [UInt32.toNat_add, Nat.toUInt32, UInt32.toNat_ofNat_of_lt' (by omega)]
        exact Nat.mod_eq_of_lt (Nat.lt_of_le_of_lt (by omega) small)
      rw [recordsOf, List.map_cons, ih (by omega), List.length_cons, List.range'_succ,
        position, Nat.add_assoc]

/-- Of new records at most the first is a cover. -/
theorem countP_isCover_recordsOf :
    (recordsOf options parent order index cover lastId clock saved).countP (·.isCover) =
      if cover then min 1 saved.length else 0 := by
  induction saved generalizing index cover lastId clock with
  | nil => cases cover <;> rfl
  | cons first others ih =>
      rw [recordsOf, List.countP_cons, ih]
      cases cover <;> simp

end Records

/-- New images at the end of a gallery in order, if there is room for them. The first of them is the
cover of a gallery that was empty. -/
theorem InOrder.append {options : GalleryOptions} {parent : ParentRecord} {order : UInt32}
    {clock : Clock} {saved : List SavedBlob} (kept : InOrder limit lastId images)
    (small : limit < UInt32.size) (ordered : order.toNat = images.length)
    (room : images.length + saved.length ≤ limit) :
    InOrder limit (lastId + saved.length) (images ++
      recordsOf options parent order 0 (!images.any (·.isCover)) lastId clock saved) where
  ascending := by
    rw [List.map_append, map_id_recordsOf, List.pairwise_append]
    refine ⟨kept.ascending, ?_, ?_⟩
    · rw [List.pairwise_map]
      exact (List.pairwise_lt_range' (s := 1) (n := saved.length)).imp fun less => by omega
    · intro known knownMem new newMem
      obtain ⟨image, imageMem, rfl⟩ := List.mem_map.mp knownMem
      obtain ⟨offset, offsetMem, rfl⟩ := List.mem_map.mp newMem
      have bound := kept.known image imageMem
      have positive := (List.mem_range'_1.mp offsetMem).1
      omega
  known := by
    intro image mem
    rcases List.mem_append.mp mem with old | new
    · have bound := kept.known image old
      omega
    · have listed := List.mem_map_of_mem (f := (·.id)) new
      rw [map_id_recordsOf] at listed
      obtain ⟨offset, offsetMem, same⟩ := List.mem_map.mp listed
      have bound := (List.mem_range'_1.mp offsetMem).2
      omega
  dense := by
    rw [Dense, List.map_append, map_sortOrder_recordsOf (by omega), List.length_append,
      length_recordsOf, ordered, Nat.add_zero, List.range_eq_range', ← List.range'_append_1,
      Nat.zero_add, ← List.range_eq_range']
    exact kept.dense.append_right _
  covered := by
    rw [List.countP_append, countP_isCover_recordsOf, kept.covered, List.length_append,
      length_recordsOf]
    rcases images with _ | ⟨image, others⟩
    · simp
    · have covered := kept.covered
      have cover : ((image :: others).any (·.isCover)) = true := by
        rw [List.any_eq_true]
        apply List.countP_pos_iff.mp
        rw [covered, List.length_cons]
        omega
      rw [cover, List.length_cons]
      simp
      omega
  fits := by
    rw [List.length_append, length_recordsOf]
    exact room

end ImageGallery
