import ImageGallery.Proofs.Confinement
import ImageGallery.Proofs.DeletionOrder
import ImageGallery.Proofs.Impartial

/-!
# Choosing the cover

A choice that succeeds makes an image the only cover of its parent and changes nothing else. To
repeat it changes nothing more, the last of several choices decides, and a choice can change places
with a reordering: ranks do not depend on covers, nor covers on ranks. An image that is not the
parent's is not found.
-/

namespace ImageGallery

variable {σ τ β : Type} {images : List ImageRecord}

/-! ## Covers and ranks -/

/-- The image with another flag. -/
def ImageRecord.marked (isCover : Bool) (image : ImageRecord) : ImageRecord :=
  { image with isCover }

namespace ImageRecord

/-- The flag of an image and its position are changed independently. -/
theorem placed_marked (plan : List (Int × UInt32)) (isCover : Bool) (image : ImageRecord) :
    (image.marked isCover).placed plan = (image.placed plan).marked isCover := by
  induction plan generalizing image with
  | nil => rfl
  | cons move plan ih =>
      rw [placed_cons, placed_cons, ← ih]
      rw [apply_ite (marked isCover)]
      rfl

end ImageRecord

namespace Manager

theorem withCover_withCover (images : List ImageRecord) (first second : Int) :
    withCover (withCover images first) second = withCover images second :=
  List.map_map

/-- The last of two choices counts. -/
theorem promote_promote (images : List ImageRecord) (first second : Option Int) :
    promote second (promote first images) = promote (second.or first) images := by
  cases second with
  | none => rfl
  | some id =>
      cases first with
      | none => rfl
      | some former => exact withCover_withCover images former id

/-- Ranks that do not depend on flags are those of the images with another cover. -/
theorem rankedBy_withCover {effective : ImageRecord → Nat}
    (blind : ∀ isCover image, effective (image.marked isCover) = effective image)
    (images : List ImageRecord) (id : Int) :
    rankedBy effective (withCover images id) = withCover (rankedBy effective images) id := by
  refine (List.map_mergeSort fun first _ second _ => ?_).symm
  have same (image : ImageRecord) :
      effective { image with isCover := decide (image.id = id) } = effective image :=
    blind _ image
  rw [ranksBefore, ranksBefore, same, same]

theorem arrange_withCover (images : List ImageRecord) (id : Int) :
    ImageRecord.arrange (withCover images id) = withCover (ImageRecord.arrange images) id := by
  rw [arrange_eq_rankedBy, arrange_eq_rankedBy]
  exact rankedBy_withCover (fun _ _ => rfl) images id

theorem changedRanks_withCover (rank : Nat) (images : List ImageRecord) (id : Int) :
    changedRanks rank (withCover images id) = changedRanks rank images := by
  induction images generalizing rank with
  | nil => rfl
  | cons image images ih =>
      change changedRanks rank ({ image with isCover := _ } :: withCover images id) = _
      rw [changedRanks, changedRanks, ih]

/-- A plan does not depend on the cover. -/
theorem planRanks_withCover (positions : Positions) (images : List ImageRecord) (id : Int) :
    planRanks (ImageRecord.arrange (withCover images id)) (wanted positions) =
      planRanks (ImageRecord.arrange images) (wanted positions) := by
  rw [planRanks, arrange_withCover, rankedBy_withCover (fun _ _ => rfl), changedRanks_withCover,
    planRanks]

/-- The images of a gallery after the plan for a payload is carried out, if it is accepted. -/
def reranked (items : List ReorderItem) (images : List ImageRecord) : List ImageRecord :=
  match Positions.ofItems items with
  | .ok positions => images.map (ImageRecord.placed
      (planRanks (ImageRecord.arrange images) (wanted positions)))
  | .error _ => images

theorem map_id_reranked (items : List ReorderItem) (images : List ImageRecord) :
    (reranked items images).map (·.id) = images.map (·.id) := by
  unfold reranked
  split
  · rw [List.map_map]
    exact List.map_congr_left fun image _ => ImageRecord.id_placed _ image
  · rfl

/-- To choose the cover and to change positions is the same in either order. -/
theorem reranked_withCover (items : List ReorderItem) (images : List ImageRecord) (id : Int) :
    reranked items (withCover images id) = withCover (reranked items images) id := by
  unfold reranked
  split
  · rw [planRanks_withCover, withCover, withCover, List.map_map, List.map_map]
    refine List.map_congr_left fun image _ => ?_
    change (image.marked (decide (image.id = id))).placed _ =
      (image.placed _).marked (decide ((image.placed _).id = id))
    rw [ImageRecord.placed_marked, ImageRecord.id_placed]
  · rfl

/-! ## One choice -/

section Choice

variable [GalleryTx τ] [TxView τ] [LawfulTx τ] [GalleryStore σ τ] [ParentStore σ] [StoreView σ τ]
  [LawfulStore σ τ] {manager after : Manager σ β} {parentId : String} {id : Int}

/-- A choice answers with the image as it is then. -/
theorem found_of_flag {image : ImageRecord}
    (flagged : manager.flag parentId id = (.ok image, after)) :
    (withCover (StoreView.images manager.store parentId) id).find? (fun image => image.id = id) =
      some image := by
  unfold flag at flagged
  dsimp only at flagged
  split at flagged
  · cases flagged
  · split at flagged
    · cases flagged
    · rename_i assigned
      have draft := LawfulTx.assignExclusiveCover_of_ok assigned
      rw [LawfulStore.draft_start] at draft
      split at flagged
      · cases flagged
      · rename_i found
        rw [LawfulTx.get?_eq, draft] at found
        unfold commitWith at flagged
        split at flagged
        · cases flagged
          exact found
        · cases flagged

/-- An image of the parent is made its cover. -/
theorem exists_flag [Obliging σ τ] (ready : Ready σ (GalleryStore.start manager.store parentId))
    (member : ∃ image ∈ StoreView.images manager.store parentId, image.id = id) :
    ∃ image after, manager.flag parentId id = (.ok image, after) := by
  have started := LawfulStore.draft_start manager.store parentId
  have held : ∃ image ∈ (TxView.draft (GalleryStore.start manager.store parentId)).images,
      image.id = id := by
    rw [started]
    exact member
  obtain ⟨next, assigned⟩ := Obliging.exists_assignExclusiveCover ready held
  have readyNext := Obliging.ready_assignExclusiveCover id ready
  rw [assigned] at readyNext
  obtain ⟨store, published⟩ := Obliging.exists_publish readyNext manager.store
  have allowed : (manager.flag parentId id).1.toBool = true := by
    rw [toBool_flag, decide_eq_true (List.mem_map.mpr member), assigned, published]
    rfl
  rcases flagged : manager.flag parentId id with ⟨_ | image, after⟩
  · rw [flagged] at allowed
    cases allowed
  · exact ⟨image, after, rfl⟩

end Choice

/-! ## What a choice and a reordering leave -/

section Level

variable [GalleryTx τ] [TxView τ] [GalleryStore σ τ] [Impartial σ τ] {α : Type}

theorem level_commitWith (manager : Manager σ β) (tx : τ) (value : α) :
    LevelStores (manager.commitWith tx value).2.store manager.store := by
  have level := Impartial.level_commit manager.store tx
  unfold commitWith
  split
  · rename_i store published
    rwa [published] at level
  · rename_i store refused
    rwa [refused] at level

theorem level_setCover (manager : Manager σ β) (parentId : String) (id : Int) :
    LevelStores (manager.setCover parentId id).2.store manager.store := by
  change LevelStores (manager.flag parentId id).2.store manager.store
  unfold flag
  dsimp only
  split
  · exact Impartial.level_refl _
  · split
    · exact Impartial.level_refl _
    · split
      · exact Impartial.level_refl _
      · exact level_commitWith manager _ _

theorem level_reorder (manager : Manager σ β) (parentId : String) (items : List ReorderItem) :
    LevelStores (manager.reorder parentId items).2.store manager.store := by
  change LevelStores (manager.rearrange parentId items).2.store manager.store
  unfold rearrange
  split
  · exact Impartial.level_refl _
  · dsimp only
    split
    · exact Impartial.level_refl _
    · exact level_commitWith manager _ _

end Level

section Leaving

variable [GalleryTx τ] [TxView τ] [LawfulTx τ] [GalleryStore σ τ] [ParentStore σ] [StoreView σ τ]
  [LawfulStore σ τ]

/-- A choice leaves its parent's images with another cover if it succeeds, and as they are if it
fails. -/
theorem images_setCover (manager : Manager σ β) (parentId : String) (id : Int) :
    StoreView.images (manager.setCover parentId id).2.store parentId =
      if (manager.setCover parentId id).1.toBool then
        withCover (StoreView.images manager.store parentId) id
      else StoreView.images manager.store parentId := by
  rw [setCover, record]
  rcases flagged : manager.flag parentId id with ⟨_ | image, after⟩
  · rw [flag_of_error flagged]
    rfl
  · exact (flag_of_ok flagged).2.1.images_self

/-- A reordering leaves them in other positions, or as they are. -/
theorem images_reranked (manager : Manager σ β) (parentId : String) (items : List ReorderItem) :
    StoreView.images (manager.reorder parentId items).2.store parentId =
      if (manager.reorder parentId items).1.toBool then
        reranked items (StoreView.images manager.store parentId)
      else StoreView.images manager.store parentId := by
  rw [reorder, record]
  rcases rearranged : manager.rearrange parentId items with ⟨_ | count, after⟩
  · rw [rearrange_of_error rearranged]
    rfl
  · obtain ⟨positions, accepted, -, published, -⟩ := placed_of_rearrange rearranged
    rw [reranked, accepted]
    exact published.images_self

/-- A choice and a reordering are refused the same in either order, so they can change places. -/
theorem images_comm [Impartial σ τ] (manager : Manager σ β) (parentId : String) (id : Int)
    (items : List ReorderItem) :
    StoreView.images ((manager.setCover parentId id).2.reorder parentId items).2.store parentId =
      StoreView.images ((manager.reorder parentId items).2.setCover parentId id).2.store
        parentId := by
  have cover : ((manager.reorder parentId items).2.setCover parentId id).1.toBool =
      (manager.setCover parentId id).1.toBool := by
    refine toBool_flag_congr (level_reorder manager parentId items) ?_ id
    rw [images_reranked, apply_ite (List.map _), map_id_reranked, ite_self]
  have order : ((manager.setCover parentId id).2.reorder parentId items).1.toBool =
      (manager.reorder parentId items).1.toBool := by
    refine toBool_rearrange_congr (level_setCover manager parentId id) ?_ fun positions => ?_
    · rw [images_setCover, apply_ite (List.map _), map_id_withCover, ite_self]
    · rw [images_setCover]
      split
      · exact planRanks_withCover positions _ id
      · rfl
  rw [images_reranked, images_setCover, images_setCover, images_reranked, cover, order]
  cases (manager.setCover parentId id).1.toBool with
  | false => rfl
  | true =>
      cases (manager.reorder parentId items).1.toBool with
      | false => rfl
      | true => exact reranked_withCover items _ id

theorem images_setCover_of_ne (manager : Manager σ β) {parentId other : String} (id : Int)
    (differ : other ≠ parentId) :
    StoreView.images (manager.setCover parentId id).2.store other =
      StoreView.images manager.store other := by
  rw [setCover, record]
  rcases flagged : manager.flag parentId id with ⟨_ | image, after⟩
  · rw [flag_of_error flagged]
    rfl
  · exact (flag_of_ok flagged).2.1.images_other other differ

theorem images_reranked_of_ne (manager : Manager σ β) {parentId other : String}
    (items : List ReorderItem) (differ : other ≠ parentId) :
    StoreView.images (manager.reorder parentId items).2.store other =
      StoreView.images manager.store other := by
  rw [reorder, record]
  rcases rearranged : manager.rearrange parentId items with ⟨_ | count, after⟩
  · rw [rearrange_of_error rearranged]
    rfl
  · obtain ⟨positions, -, -, published, -⟩ := placed_of_rearrange rearranged
    exact published.images_other other differ

end Leaving

/-! ## Several choices -/

section Several

variable [GalleryTx τ] [GalleryStore σ τ]

/-- Choose the cover of a parent several times. -/
def coverAll (manager : Manager σ β) (parentId : String) :
    List Int → List (Except GalleryError ImageRecord) × Manager σ β
  | [] => ([], manager)
  | id :: ids =>
    let (answer, after) := manager.setCover parentId id
    let (answers, last) := after.coverAll parentId ids
    (answer :: answers, last)

/-- The last image in some answers. -/
def lastCover? (answers : List (Except GalleryError ImageRecord)) : Option Int :=
  (answers.filterMap (·.toOption)).getLast?.map (·.id)

theorem lastCover?_cons (answer : Except GalleryError ImageRecord)
    (answers : List (Except GalleryError ImageRecord)) :
    lastCover? (answer :: answers) =
      (lastCover? answers).or (answer.toOption.map (·.id)) := by
  rw [lastCover?, lastCover?]
  cases answer with
  | error error => exact (Option.or_none).symm
  | ok image =>
      change ((image :: answers.filterMap (·.toOption)).getLast?).map (·.id) = _
      rw [List.getLast?_cons]
      cases (answers.filterMap (·.toOption)).getLast? <;> rfl

variable [TxView τ] [LawfulTx τ] [ParentStore σ] [StoreView σ τ] [LawfulStore σ τ]

theorem promote_arrange (promoted : Option Int) (images : List ImageRecord) :
    ImageRecord.arrange (promote promoted images) =
      promote promoted (ImageRecord.arrange images) := by
  cases promoted with
  | none => rfl
  | some id => exact arrange_withCover images id

/-- One of several choices. -/
theorem listImages_setCover (manager : Manager σ β) (parentId : String) (id : Int) :
    GalleryStore.listImages (manager.setCover parentId id).2.store parentId =
      promote ((manager.setCover parentId id).1.toOption.map (·.id))
        (GalleryStore.listImages manager.store parentId) := by
  rw [LawfulStore.listImages_eq, LawfulStore.listImages_eq, images_setCover, ← promote_arrange]
  rw [setCover, record]
  rcases flagged : manager.flag parentId id with ⟨_ | image, after⟩
  · rfl
  · obtain ⟨-, named⟩ := mem_of_find?_eq_some (found_of_flag flagged)
    subst named
    rfl

/-- Of several choices the last one that succeeds counts. -/
theorem listImages_coverAll (manager : Manager σ β) (parentId : String) (ids : List Int) :
    GalleryStore.listImages (manager.coverAll parentId ids).2.store parentId =
      promote (lastCover? (manager.coverAll parentId ids).1)
        (GalleryStore.listImages manager.store parentId) := by
  induction ids generalizing manager with
  | nil => rfl
  | cons id ids ih =>
      rw [coverAll]
      dsimp only
      rw [ih, listImages_setCover, promote_promote, lastCover?_cons]

/-- Where all choices succeed, the last one is the last of the ids. -/
theorem lastCover?_coverAll (manager : Manager σ β) (parentId : String) {ids : List Int}
    {chosen : List ImageRecord} (succeeded : (manager.coverAll parentId ids).1 = chosen.map .ok) :
    lastCover? (manager.coverAll parentId ids).1 = ids.getLast? := by
  induction ids generalizing manager chosen with
  | nil => rfl
  | cons id ids ih =>
      rw [coverAll] at succeeded ⊢
      dsimp only at succeeded ⊢
      cases chosen with
      | nil => cases succeeded
      | cons image others =>
          obtain ⟨here, there⟩ := List.cons_eq_cons.mp succeeded
          obtain ⟨after, flagged⟩ : ∃ after, manager.flag parentId id = (.ok image, after) :=
            ⟨_, Prod.ext here rfl⟩
          obtain ⟨-, named⟩ := mem_of_find?_eq_some (found_of_flag flagged)
          rw [lastCover?_cons, ih _ there, here, List.getLast?_cons]
          change ids.getLast?.or (some image.id) = _
          rw [named]
          cases ids.getLast? <;> rfl

end Several

/-! ## Choices from end to end -/

section Covering

variable [GalleryTx τ] [GalleryStore σ τ] [ParentStore σ]

/-- What a choice that succeeds does: an image of the parent is the only cover and is answered, and
nothing else changes. -/
structure Covered (manager after : Manager σ β) (parentId : String) (image : ImageRecord) :
    Prop where
  former : ∃ former ∈ GalleryStore.listImages manager.store parentId,
    image = { former with isCover := true }
  listed : GalleryStore.listImages after.store parentId =
    (GalleryStore.listImages manager.store parentId).map fun other =>
      { other with isCover := decide (other.id = image.id) }
  stored : image ∈ GalleryStore.listImages after.store parentId
  only (distinct : ((GalleryStore.listImages manager.store parentId).map (·.id)).Nodup) :
    (GalleryStore.listImages after.store parentId).filter (·.isCover) = [image]
  others (other : String) (differ : other ≠ parentId) :
    GalleryStore.listImages after.store other = GalleryStore.listImages manager.store other
  registry_eq : ParentStore.registry after.store = ParentStore.registry manager.store
  blobs_eq : after.blobs = manager.blobs

/-- What choices of a parent's cover do. Whether they succeed on its images depends on whether the
store works. -/
structure CoversInFull (works : Prop) (manager : Manager σ β) (parentId : String) : Prop where
  succeeds (working : works) {id : Int}
    (member : ∃ image ∈ GalleryStore.listImages manager.store parentId, image.id = id) :
    ∃ image, (manager.setCover parentId id).1 = .ok image
  covered {id : Int} {image : ImageRecord}
    (succeeded : (manager.setCover parentId id).1 = .ok image) :
    image.id = id ∧ Covered manager (manager.setCover parentId id).2 parentId image
  notFound {id : Int}
    (absent : ∀ image ∈ GalleryStore.listImages manager.store parentId, image.id ≠ id) :
    (manager.setCover parentId id).1 = .error (.imageNotFound id)
  unchanged {id : Int} {error : GalleryError}
    (failed : (manager.setCover parentId id).1 = .error error) :
    (manager.setCover parentId id).2 = manager.tally (.operations .setCover false) 1
  /-- A choice that is made again is answered as the first one is, and leaves every gallery as it
  did. -/
  again (id : Int) :
    ((manager.setCover parentId id).2.setCover parentId id).1 = (manager.setCover parentId id).1
  twice (id : Int) (other : String) :
    GalleryStore.listImages ((manager.setCover parentId id).2.setCover parentId id).2.store other =
      GalleryStore.listImages (manager.setCover parentId id).2.store other
  /-- Of several choices the last one that succeeds counts. -/
  last (ids : List Int) :
    GalleryStore.listImages (manager.coverAll parentId ids).2.store parentId =
      promote (lastCover? (manager.coverAll parentId ids).1)
        (GalleryStore.listImages manager.store parentId)
  named {ids : List Int} {chosen : List ImageRecord}
    (succeeded : (manager.coverAll parentId ids).1 = chosen.map .ok) :
    lastCover? (manager.coverAll parentId ids).1 = ids.getLast?
  /-- A choice and a reordering can change places, also where one of them is refused. -/
  commutes (id : Int) (items : List ReorderItem) (other : String) :
    GalleryStore.listImages ((manager.setCover parentId id).2.reorder parentId items).2.store
        other =
      GalleryStore.listImages ((manager.reorder parentId items).2.setCover parentId id).2.store
        other

variable [TxView τ] [LawfulTx τ] [StoreView σ τ] [LawfulStore σ τ]

theorem filter_isCover_withCover {images : List ImageRecord} {image : ImageRecord}
    (distinct : (images.map (·.id)).Nodup) (mem : image ∈ withCover images image.id)
    (isCover : image.isCover = true) :
    (withCover images image.id).filter (·.isCover) = [image] := by
  have ids : image.id ∈ images.map (·.id) := by
    rw [← map_id_withCover]
    exact List.mem_map_of_mem mem
  have one : ((withCover images image.id).filter (·.isCover)).length = 1 := by
    rw [← List.countP_eq_length_filter, countP_isCover_withCover,
      List.count_eq_one_of_mem distinct ids]
  obtain ⟨cover, alone⟩ := List.length_eq_one_iff.mp one
  have held : image ∈ (withCover images image.id).filter (·.isCover) :=
    List.mem_filter.mpr ⟨mem, isCover⟩
  rw [alone] at held ⊢
  rw [List.mem_singleton.mp held]

variable {manager : Manager σ β} {parentId : String}

theorem covered_setCover {id : Int} {image : ImageRecord}
    (succeeded : (manager.setCover parentId id).1 = .ok image) :
    image.id = id ∧ Covered manager (manager.setCover parentId id).2 parentId image := by
  obtain ⟨after, flagged⟩ : ∃ after, manager.flag parentId id = (.ok image, after) :=
    ⟨_, Prod.ext succeeded rfl⟩
  have same : (manager.setCover parentId id).2 = after.tally (.operations .setCover true) 1 := by
    rw [setCover, record, flagged]
    rfl
  obtain ⟨-, published, afterEq⟩ := flag_of_ok flagged
  obtain ⟨mem, named⟩ := mem_of_find?_eq_some (found_of_flag flagged)
  subst named
  obtain ⟨former, formerMem, imageEq⟩ := List.mem_map.mp mem
  have formerId : former.id = image.id := congrArg (·.id) imageEq
  have flag : decide (former.id = image.id) = image.isCover := congrArg (·.isCover) imageEq
  rw [decide_eq_true formerId] at imageEq flag
  have listed : GalleryStore.listImages after.store parentId =
      withCover (GalleryStore.listImages manager.store parentId) image.id := by
    rw [LawfulStore.listImages_eq, LawfulStore.listImages_eq, published.images_self,
      arrange_withCover]
  have stored : image ∈ GalleryStore.listImages after.store parentId :=
    mem_listImages_iff.mpr (published.images_self ▸ mem)
  rw [same]
  refine ⟨rfl, ⟨former, mem_listImages_iff.mpr formerMem, imageEq.symm⟩, listed, stored, ?_, ?_,
    published.registry_eq, ?_⟩
  · intro distinct
    rw [store_tally, listed]
    exact filter_isCover_withCover distinct (listed ▸ stored) flag.symm
  · intro other differ
    rw [store_tally, LawfulStore.listImages_eq, LawfulStore.listImages_eq,
      published.images_other other differ]
  · rw [blobs_tally, afterEq]

omit [LawfulTx τ] in
theorem setCover_of_error {id : Int} {error : GalleryError}
    (failed : (manager.setCover parentId id).1 = .error error) :
    (manager.setCover parentId id).2 = manager.tally (.operations .setCover false) 1 := by
  obtain ⟨after, flagged⟩ : ∃ after, manager.flag parentId id = (.error error, after) :=
    ⟨_, Prod.ext failed rfl⟩
  rw [setCover, record, flagged, flag_of_error flagged]
  rfl

variable [BlobStore β]

omit [TxView τ] [LawfulTx τ] [ParentStore σ] [StoreView σ τ] [LawfulStore σ τ] in
/-- The answer to a choice does not depend on counters. -/
theorem answer_setCover_tally (manager : Manager σ β) (counter : Counter) (amount : Nat)
    (parentId : String) (id : Int) :
    ((manager.tally counter amount).setCover parentId id).1 =
      (manager.setCover parentId id).1 := by
  have mirrors : Mirrors (.plain β) (fun _ => false) (manager.tally counter amount) manager :=
    ⟨rfl, rfl, rfl, rfl, nofun⟩
  exact (mirrors.flag parentId id).answer_eq

/-- A choice that is made again is answered as the first one is. -/
theorem answer_setCover_setCover [Impartial σ τ] (manager : Manager σ β) (parentId : String)
    (id : Int) :
    ((manager.setCover parentId id).2.setCover parentId id).1 =
      (manager.setCover parentId id).1 := by
  rcases answered : (manager.setCover parentId id).1 with error | first
  · rw [setCover_of_error answered, answer_setCover_tally, answered]
  · have ids : (StoreView.images (manager.setCover parentId id).2.store parentId).map (·.id) =
        (StoreView.images manager.store parentId).map (·.id) := by
      rw [images_setCover, apply_ite (List.map _), map_id_withCover, ite_self]
    have allowed := toBool_flag_congr (level_setCover manager parentId id) ids id
    obtain ⟨after, flagged⟩ : ∃ after, manager.flag parentId id = (.ok first, after) :=
      ⟨_, Prod.ext answered rfl⟩
    rw [flagged] at allowed
    rcases reflagged : (manager.setCover parentId id).2.flag parentId id with ⟨_ | second, last⟩
    · rw [reflagged] at allowed
      cases allowed
    · have found := found_of_flag reflagged
      rw [images_setCover, answered] at found
      change (withCover (withCover _ id) id).find? _ = _ at found
      rw [withCover_withCover, found_of_flag flagged] at found
      rw [setCover, record, reflagged, Option.some.inj found]

/-- It leaves what the first one left. -/
theorem images_setCover_setCover [Impartial σ τ] (manager : Manager σ β) (parentId : String)
    (id : Int) (other : String) :
    StoreView.images ((manager.setCover parentId id).2.setCover parentId id).2.store other =
      StoreView.images (manager.setCover parentId id).2.store other := by
  by_cases own : other = parentId
  · subst own
    rw [images_setCover, answer_setCover_setCover, images_setCover]
    cases (manager.setCover other id).1.toBool with
    | false => rfl
    | true => exact withCover_withCover _ id id
  · exact images_setCover_of_ne _ id own

/-- Choices in a store that is lawful and impartial, and that works if it refuses nothing. -/
theorem coversInFull_of_ready [Obliging σ τ] [Impartial σ τ] {works : Prop}
    {manager : Manager σ β} {parentId : String}
    (ready : works → Ready σ (GalleryStore.start manager.store parentId)) :
    CoversInFull works manager parentId := by
  constructor
  · intro working id member
    simp only [mem_listImages_iff] at member
    obtain ⟨image, after, flagged⟩ := exists_flag (ready working) member
    exact ⟨image, congrArg Prod.fst flagged⟩
  · exact covered_setCover
  · intro id absent
    rw [(notFound_of_absent absent).setCover_eq]
  · exact setCover_of_error
  · exact answer_setCover_setCover manager parentId
  · intro id other
    rw [LawfulStore.listImages_eq, LawfulStore.listImages_eq, images_setCover_setCover]
  · exact listImages_coverAll manager parentId
  · exact lastCover?_coverAll manager parentId
  · intro id items other
    rw [LawfulStore.listImages_eq, LawfulStore.listImages_eq]
    by_cases own : other = parentId
    · subst own
      exact congrArg _ (images_comm manager other id items)
    · rw [images_reranked_of_ne _ items own, images_setCover_of_ne _ id own,
        images_setCover_of_ne _ id own, images_reranked_of_ne _ items own]

end Covering

/-- In memory, in a database and in a file, choices of a cover do what is expected of them from
every state of the store, whatever positions and however many covers the images have. -/
theorem coversInFull_of_everyStore [BlobStore β] (parentId : String) :
    (∀ manager : Manager MemoryStore β,
      CoversInFull (manager.store.failCommits = false) manager parentId) ∧
    (∀ manager : Manager (Fallible Database) β,
      CoversInFull (∀ call tried, manager.store.refusals call tried = none) manager parentId) ∧
    ∀ manager : Manager FileStore β,
      CoversInFull (∀ call tried, manager.store.refusals call tried = none) manager parentId :=
  ⟨fun _ => coversInFull_of_ready (MemoryStore.ready_start · _),
    fun _ => coversInFull_of_ready (Fallible.ready_start · _),
    fun _ => coversInFull_of_ready (FileStore.ready_start · _)⟩

/-- The last image of a gallery in memory is made its cover in the place of another one. -/
theorem covered_uneven :
    ∃ image, image.id = 4 ∧ Covered (ofStore MemoryStore.uneven)
      ((ofStore MemoryStore.uneven).setCover "p" 4).2 "p" image := by
  have mem : unevenImages[3] ∈ GalleryStore.listImages MemoryStore.uneven "p" :=
    mem_listImages_iff.mpr (by decide)
  have covers := (coversInFull_of_everyStore "p").1 (ofStore MemoryStore.uneven)
  obtain ⟨image, succeeded⟩ := covers.succeeds rfl ⟨_, mem, rfl⟩
  exact ⟨image, covers.covered succeeded⟩

end Manager

end ImageGallery
