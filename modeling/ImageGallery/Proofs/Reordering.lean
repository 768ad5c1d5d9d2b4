import Mathlib
import ImageGallery.Proofs.Run

/-!
# Reordering twice

A payload may name some images of a gallery only. The others are ranked by the positions that they
have, and reordering changes these, so the same payload may change the gallery once more. It does
not if each image that the payload leaves out stands on the right side of the images that it names:
before those that are wanted behind its own position, and behind the others.
-/

namespace ImageGallery

open Manager

variable {effective : ImageRecord → Nat} {images : List ImageRecord} {positions : Positions}

/-! ## Ranking a gallery on display -/

/-- Along a list with ascending keys a relation holds of all pairs in order exactly if it holds of
all members with keys in order. -/
theorem pairwise_iff_of_ascending {α : Type} {relation : α → α → Prop} {key : α → Nat}
    {members : List α} (ascending : members.Pairwise fun first second => key first < key second) :
    members.Pairwise relation ↔
      ∀ first ∈ members, ∀ second ∈ members, key first < key second → relation first second := by
  induction ascending with
  | nil => simp
  | @cons head rest before _ ih =>
      rw [List.pairwise_cons, ih]
      constructor
      · rintro ⟨leading, related⟩ first firstMem second secondMem less
        rcases List.mem_cons.mp firstMem with rfl | firstRest
        · rcases List.mem_cons.mp secondMem with rfl | secondRest
          · exact absurd less (Nat.lt_irrefl _)
          · exact leading second secondRest
        · rcases List.mem_cons.mp secondMem with rfl | secondRest
          · exact absurd less (Nat.lt_asymm (before first firstRest))
          · exact related first firstRest second secondRest less
      · intro related
        constructor
        · intro second secondMem
          exact related head List.mem_cons_self second (List.mem_cons_of_mem _ secondMem)
            (before second secondMem)
        · intro first firstMem second secondMem
          exact related first (List.mem_cons_of_mem _ firstMem) second
            (List.mem_cons_of_mem _ secondMem)

/-- A permutation that keeps the ids in their places keeps the images in theirs. -/
theorem eq_of_perm_of_map_id_eq {first second : List ImageRecord} (permuted : first.Perm second)
    (distinct : (second.map (·.id)).Nodup) (same : first.map (·.id) = second.map (·.id)) :
    first = second := by
  apply List.ext_getElem permuted.length_eq
  intro index firstBound secondBound
  apply eq_of_id_eq distinct (permuted.mem_iff.mp (List.getElem_mem _)) (List.getElem_mem _)
  have sameAt := congrArg (·[index]?) same
  simpa [firstBound, secondBound] using sameAt

/-- Positions that count a list count as ranks in it. -/
theorem map_atRankIn_self (distinct : (images.map (·.id)).Nodup)
    (counted : images.map (fun image => image.sortOrder.toNat) = List.range images.length) :
    images.map (fun image => image.atRankIn images) = images := by
  rw [map_atRankIn_eq_renumbered distinct]
  apply List.ext_getElem (by simp [renumbered])
  intro index _ bound
  have position : images[index].sortOrder.toNat = index := by
    have sameAt := congrArg (·[index]?) counted
    simpa [bound] using sameAt
  simp only [renumbered, List.getElem_mapIdx]
  have fits : index < UInt32.size := position ▸ UInt32.toNat_lt _
  have same : index.toUInt32 = images[index].sortOrder := by
    rw [← UInt32.toNat_inj, position, Nat.toUInt32, UInt32.toNat_ofNat_of_lt' fits]
  rw [same]

/-- Reordering shows the images of a gallery in their ranking order, so it leaves a gallery on
display alone exactly when that is in ranking order. -/
theorem arrange_settle_eq_iff (distinct : (images.map (·.id)).Nodup)
    (small : images.length < UInt32.size) (dense : Dense images) :
    ImageRecord.arrange (settle effective images) = ImageRecord.arrange images ↔
      (ImageRecord.arrange images).Pairwise
        fun first second => ranksBefore effective first second := by
  have permuted := arrange_perm images
  have shownDistinct := nodup_map_id_arrange distinct
  have counted := map_sortOrder_arrange_iff.mpr dense
  rw [← permuted.length_eq] at counted
  rw [arrange_settle distinct (Nat.le_of_lt small), ← rankedBy_arrange distinct,
    ← rankedBy_eq_self_iff]
  constructor
  · intro same
    apply eq_of_perm_of_map_id_eq (rankedBy_perm _ _) shownDistinct
    rw [← congrArg (List.map (·.id)) same, List.map_map]
    rfl
  · intro same
    rw [same]
    exact map_atRankIn_self shownDistinct counted

/-! ## The same payload again -/

/-- Each image that positions leave out stands on the right side of the images that they name:
before those, and only those, that are wanted behind its own position. Between equal positions ids
decide. -/
def Undisturbed (positions : Positions) (images : List ImageRecord) : Prop :=
  ∀ other ∈ images, positions.find? other.id = none →
    ∀ named ∈ images, ∀ order, positions.find? named.id = some order →
      (other.sortOrder.toNat < named.sortOrder.toNat ↔
        other.sortOrder.toNat < order ∨ other.sortOrder.toNat = order ∧ other.id < named.id)

theorem wanted_of_named {image : ImageRecord} {order : Nat}
    (named : positions.find? image.id = some order) : wanted positions image = order := by
  rw [wanted, named, Option.getD_some]

theorem wanted_of_left_out {image : ImageRecord} (other : positions.find? image.id = none) :
    wanted positions image = image.sortOrder.toNat := by
  rw [wanted, other, Option.getD_none]

/-- After a reordering the images that it names are shown in the order that it asks for. -/
theorem pairwise_named_arrange_settle (distinct : (images.map (·.id)).Nodup)
    (small : images.length < UInt32.size) :
    (ImageRecord.arrange (settle (wanted positions) images)).Pairwise fun first second =>
      (positions.find? first.id).isSome → (positions.find? second.id).isSome →
        ranksBefore (wanted positions) first second := by
  rw [arrange_settle distinct (Nat.le_of_lt small), List.pairwise_map]
  apply (pairwise_rankedBy (wanted positions) images).imp
  intro first second before firstNamed secondNamed
  obtain ⟨firstOrder, firstWanted⟩ := Option.isSome_iff_exists.mp firstNamed
  obtain ⟨secondOrder, secondWanted⟩ := Option.isSome_iff_exists.mp secondNamed
  have firstBefore : wanted positions first = firstOrder := wanted_of_named firstWanted
  have secondBefore : wanted positions second = secondOrder := wanted_of_named secondWanted
  rw [ranksBefore_iff, firstBefore, secondBefore] at before
  rw [ranksBefore_iff, wanted_of_named firstWanted, wanted_of_named secondWanted]
  exact before

/-- A gallery on display where the named images are in the order that is asked for is in ranking
order exactly if no image that is left out stands on the wrong side of one that is named. -/
theorem pairwise_wanted_iff
    (ascending : images.Pairwise fun first second =>
      first.sortOrder.toNat < second.sortOrder.toNat)
    (named : images.Pairwise fun first second =>
      (positions.find? first.id).isSome → (positions.find? second.id).isSome →
        ranksBefore (wanted positions) first second) :
    (images.Pairwise fun first second => ranksBefore (wanted positions) first second) ↔
      Undisturbed positions images := by
  have positionsDistinct : (images.map fun image => image.sortOrder.toNat).Nodup := by
    rw [List.Nodup, List.pairwise_map]
    exact ascending.imp fun less => Nat.ne_of_lt less
  rw [pairwise_iff_of_ascending ascending] at named ⊢
  constructor
  · intro ranked other otherMem leftOut image imageMem order wantedOrder
    have differ : other.id ≠ image.id := by
      intro same
      rw [same, wantedOrder] at leftOut
      cases leftOut
    constructor
    · intro before
      have first := ranked other otherMem image imageMem before
      rw [ranksBefore_iff, wanted_of_left_out leftOut, wanted_of_named wantedOrder] at first
      omega
    · intro first
      by_contra behind
      have apart : image.sortOrder.toNat ≠ other.sortOrder.toNat := by
        intro same
        have sameImage := List.inj_on_of_nodup_map positionsDistinct imageMem otherMem same
        exact differ (congrArg _ sameImage).symm
      have second := ranked image imageMem other otherMem (by omega)
      rw [ranksBefore_iff, wanted_of_left_out leftOut, wanted_of_named wantedOrder] at second
      omega
  · intro undisturbed first firstMem second secondMem before
    rw [ranksBefore_iff]
    cases firstWanted : positions.find? first.id with
    | none =>
        rw [wanted_of_left_out firstWanted]
        cases secondWanted : positions.find? second.id with
        | none =>
            rw [wanted_of_left_out secondWanted]
            exact Or.inl before
        | some order =>
            rw [wanted_of_named secondWanted]
            have side := (undisturbed first firstMem firstWanted second secondMem order
              secondWanted).mp before
            omega
    | some order =>
        cases secondWanted : positions.find? second.id with
        | none =>
            rw [wanted_of_named firstWanted, wanted_of_left_out secondWanted]
            have side := undisturbed second secondMem secondWanted first firstMem order firstWanted
            omega
        | some other =>
            have ranked := named first firstMem second secondMem before (by simp [firstWanted])
              (by simp [secondWanted])
            rwa [ranksBefore_iff] at ranked

/-- Carrying a reordering out a second time changes nothing exactly if no image that it leaves out
stands on the wrong side of one that it names. -/
theorem arrange_settle_settle_iff (distinct : (images.map (·.id)).Nodup)
    (small : images.length < UInt32.size) :
    ImageRecord.arrange (settle (wanted positions) (settle (wanted positions) images)) =
        ImageRecord.arrange (settle (wanted positions) images) ↔
      Undisturbed positions (ImageRecord.arrange (settle (wanted positions) images)) := by
  have dense : Dense (settle (wanted positions) images) :=
    dense_settle distinct (Nat.le_of_lt small)
  have counted := map_sortOrder_arrange_iff.mpr dense
  have ascending : (ImageRecord.arrange (settle (wanted positions) images)).Pairwise
      fun first second => first.sortOrder.toNat < second.sortOrder.toNat := by
    rw [← List.pairwise_map, counted]
    exact List.pairwise_lt_range
  rw [arrange_settle_eq_iff (by rwa [map_id_settle]) (by rwa [length_settle]) dense]
  exact pairwise_wanted_iff ascending (pairwise_named_arrange_settle distinct small)

/-- A payload that names every image leaves no image on the wrong side of another. -/
theorem undisturbed_of_all_named
    (named : ∀ image ∈ images, (positions.find? image.id).isSome) :
    Undisturbed positions images := by
  intro other otherMem leftOut
  have found := named other otherMem
  rw [leftOut] at found
  cases found

/-! ## On the stores -/

namespace Manager

section Stores

variable {σ τ β : Type} [GalleryTx τ] [TxView τ] [LawfulTx τ] [GalleryStore σ τ] [ParentStore σ]
  [StoreView σ τ] [LawfulStore σ τ]

/-- What a reordering that succeeds does to the gallery in the store. -/
theorem images_reorder {manager after : Manager σ β} {parent : String} {items : List ReorderItem}
    {positions : Positions} {count : Nat}
    (distinct : ((StoreView.images manager.store parent).map (·.id)).Nodup)
    (accepted : Positions.ofItems items = .ok positions)
    (reordered : manager.reorder parent items = (.ok count, after)) :
    StoreView.images after.store parent =
      settle (wanted positions) (StoreView.images manager.store parent) := by
  obtain ⟨middle, rearranged, storeEq, -, -⟩ := record_eq reordered
  obtain ⟨found, foundAccepted, -, published, -⟩ := rearrange_of_ok distinct rearranged
  rw [accepted] at foundAccepted
  cases foundAccepted
  rw [storeEq]
  exact published.images_self

/-- In a store whose galleries are in order, reordering with the same payload once more changes
nothing exactly if the payload left no image on the wrong side of another. -/
theorem listImages_reorder_again_iff {manager once twice : Manager σ β} {parent : String}
    {items : List ReorderItem} {positions : Positions} {count again : Nat}
    (ordered : GalleriesInOrder manager.options manager.store)
    (accepted : Positions.ofItems items = .ok positions)
    (first : manager.reorder parent items = (.ok count, once))
    (second : once.reorder parent items = (.ok again, twice)) :
    GalleryStore.listImages twice.store parent = GalleryStore.listImages once.store parent ↔
      Undisturbed positions (GalleryStore.listImages once.store parent) := by
  have kept := ordered parent
  have small : (StoreView.images manager.store parent).length < UInt32.size :=
    Nat.lt_of_le_of_lt kept.fits (UInt32.toNat_lt _)
  have onceImages := images_reorder kept.distinct accepted first
  have onceDistinct : ((StoreView.images once.store parent).map (·.id)).Nodup := by
    rw [onceImages, map_id_settle]
    exact kept.distinct
  have twiceImages := images_reorder onceDistinct accepted second
  rw [LawfulStore.listImages_eq, LawfulStore.listImages_eq, twiceImages, onceImages]
  exact arrange_settle_settle_iff kept.distinct small

end Stores

/-- In memory and in a database, after every run: reordering a gallery a second time with the same
payload changes nothing exactly if the first time left no image that the payload does not name on
the wrong side of one that it names. -/
theorem reorder_again_iff {β : Type} [BlobStore β] (options : GalleryOptions) (blobs : β)
    (clock : Clock) (parent : String) (items : List ReorderItem) (positions : Positions)
    (accepted : Positions.ofItems items = .ok positions) :
    (∀ (steps : List (Step Bool β)) (once twice : Manager MemoryStore β) (count again : Nat),
      ((inMemory options blobs clock).run steps).reorder parent items = (.ok count, once) →
      once.reorder parent items = (.ok again, twice) →
      (GalleryStore.listImages twice.store parent = GalleryStore.listImages once.store parent ↔
        Undisturbed positions (GalleryStore.listImages once.store parent))) ∧
    ∀ (refusals : Refusals) (steps : List (Step Refusals β))
      (once twice : Manager (Fallible Database) β) (count again : Nat),
      ((inDatabase refusals options blobs clock).run steps).reorder parent items =
        (.ok count, once) →
      once.reorder parent items = (.ok again, twice) →
      (GalleryStore.listImages twice.store parent = GalleryStore.listImages once.store parent ↔
        Undisturbed positions (GalleryStore.listImages once.store parent)) := by
  constructor
  · intro steps once twice count again first second
    exact listImages_reorder_again_iff
      (inOrder_of_empty (inMemory options blobs clock) (fun _ => rfl) steps).1 accepted first second
  · intro refusals steps once twice count again first second
    exact listImages_reorder_again_iff
      (inOrder_of_empty (inDatabase refusals options blobs clock) (fun _ => rfl) steps).1 accepted
      first second

/-- A blob store that takes every file and keeps none, for runs where files do not matter. -/
structure Discarding where
deriving DecidableEq, Inhabited

instance : BlobStore Discarding where
  save blobs scope parent _ upload :=
    (.ok
      { filename := upload.filename
        storageKey := scope ++ "/" ++ parent ++ "/" ++ upload.filename
        path := ""
        size := upload.content.ahead.length }, blobs)
  delete blobs _ := (false, blobs)
  contains _ _ := false

/-- Register a parent and upload three images. -/
def threeUploads : List (Step Bool Discarding) :=
  [ .call (.register "p" "s"),
    .call (.upload "p"
      [.ofHeld "a.png" none [], .ofHeld "b.png" none [], .ofHeld "c.png" none []]) ]

/-- A gallery of three images. -/
def threeImages : Manager MemoryStore Discarding :=
  (inMemory {} ⟨⟩ { reading := fun _ => 0 }).run threeUploads

/-- A payload that leaves the third image out. -/
def firstTwoBack : List ReorderItem :=
  [ { id := some (.integer 1), order := some (.integer 2) },
    { id := some (.integer 2), order := some (.integer 3) } ]

/-- The first time the third image comes to stand in the middle, with a position below the one that
is wanted for the first image. The second time it comes to the front. -/
theorem reorder_again_changes :
    (threeImages.reorder "p" firstTwoBack).1 = .ok 3 ∧
      ((threeImages.reorder "p" firstTwoBack).2.reorder "p" firstTwoBack).1 = .ok 3 ∧
      (GalleryStore.listImages (threeImages.reorder "p" firstTwoBack).2.store "p").map (·.id) =
        [1, 3, 2] ∧
      (GalleryStore.listImages
        ((threeImages.reorder "p" firstTwoBack).2.reorder "p" firstTwoBack).2.store "p").map
          (·.id) = [3, 1, 2] := by
  refine ⟨?_, ?_, ?_, ?_⟩
  · cbv
  · cbv
  · cbv
  · cbv

theorem reorder_again_iff_threeImages :
    Positions.ofItems firstTwoBack = .ok ⟨[(2, 3), (1, 2)]⟩ ∧
      (GalleryStore.listImages
          ((threeImages.reorder "p" firstTwoBack).2.reorder "p" firstTwoBack).2.store "p" =
        GalleryStore.listImages (threeImages.reorder "p" firstTwoBack).2.store "p" ↔
      Undisturbed ⟨[(2, 3), (1, 2)]⟩
        (GalleryStore.listImages (threeImages.reorder "p" firstTwoBack).2.store "p")) := by
  have accepted : Positions.ofItems firstTwoBack = .ok ⟨[(2, 3), (1, 2)]⟩ := by cbv
  have first : (threeImages.reorder "p" firstTwoBack).1 = .ok 3 := by cbv
  have second :
      ((threeImages.reorder "p" firstTwoBack).2.reorder "p" firstTwoBack).1 = .ok 3 := by cbv
  exact ⟨accepted,
    (reorder_again_iff {} Discarding.mk { reading := fun _ => 0 } "p" firstTwoBack _ accepted).1
      threeUploads _ _ 3 3 (Prod.ext first rfl) (Prod.ext second rfl)⟩

end Manager

end ImageGallery
