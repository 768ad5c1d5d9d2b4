import Mathlib.Data.List.Forall2
import ImageGallery.Blob.Store
import ImageGallery.Proofs.Owners

/-!
# Records that differ in times and names only

Two runs of the same calls give images different times of creation, and addresses and keys after
the different names that their blob stores made up. In everything else their records agree: ids,
parents, covers and positions. What is read from such records, and what they are changed into,
agrees as well.
-/

namespace ImageGallery

/-! ## Results -/

/-- Both results are values or both are errors, and they are related. -/
inductive ResultsAlike {ε α₁ α₂ : Type} (errors : ε → ε → Prop) (values : α₁ → α₂ → Prop) :
    Except ε α₁ → Except ε α₂ → Prop where
  | ok {value₁ : α₁} {value₂ : α₂} (alike : values value₁ value₂) :
      ResultsAlike errors values (.ok value₁) (.ok value₂)
  | error {error₁ error₂ : ε} (alike : errors error₁ error₂) :
      ResultsAlike errors values (.error error₁) (.error error₂)

theorem ResultsAlike.map {ε α₁ α₂ γ₁ γ₂ : Type} {errors : ε → ε → Prop} {values : α₁ → α₂ → Prop}
    {mapped : γ₁ → γ₂ → Prop} {first : α₁ → γ₁} {second : α₂ → γ₂} {result₁ : Except ε α₁}
    {result₂ : Except ε α₂} (alike : ResultsAlike errors values result₁ result₂)
    (kept : ∀ value₁ value₂, values value₁ value₂ → mapped (first value₁) (second value₂)) :
    ResultsAlike errors mapped (result₁.map first) (result₂.map second) := by
  cases alike with
  | ok alike => exact .ok (kept _ _ alike)
  | error alike => exact .error alike

/-- Both calls succeed and their values are related, or both fail and their errors are. Either way
the states after them are related. -/
inductive OutcomesAlike {ε α₁ α₂ ς₁ ς₂ : Type} (errors : ε → ε → Prop) (values : α₁ → α₂ → Prop)
    (states : ς₁ → ς₂ → Prop) : Except ε α₁ × ς₁ → Except ε α₂ × ς₂ → Prop where
  | ok {value₁ : α₁} {value₂ : α₂} {state₁ : ς₁} {state₂ : ς₂} (alike : values value₁ value₂)
      (after : states state₁ state₂) :
      OutcomesAlike errors values states (.ok value₁, state₁) (.ok value₂, state₂)
  | error {error₁ error₂ : ε} {state₁ : ς₁} {state₂ : ς₂} (alike : errors error₁ error₂)
      (after : states state₁ state₂) :
      OutcomesAlike errors values states (.error error₁, state₁) (.error error₂, state₂)

namespace OutcomesAlike

variable {ε α₁ α₂ ς₁ ς₂ : Type} {errors : ε → ε → Prop} {values : α₁ → α₂ → Prop}
  {states : ς₁ → ς₂ → Prop} {outcome₁ : Except ε α₁ × ς₁} {outcome₂ : Except ε α₂ × ς₂}

theorem result (alike : OutcomesAlike errors values states outcome₁ outcome₂) :
    ResultsAlike errors values outcome₁.1 outcome₂.1 := by
  cases alike with
  | ok alike _ => exact .ok alike
  | error alike _ => exact .error alike

theorem state (alike : OutcomesAlike errors values states outcome₁ outcome₂) :
    states outcome₁.2 outcome₂.2 := by
  cases alike with
  | ok _ after => exact after
  | error _ after => exact after

theorem map {γ₁ γ₂ : Type} {mapped : γ₁ → γ₂ → Prop} {first : α₁ → γ₁} {second : α₂ → γ₂}
    (alike : OutcomesAlike errors values states outcome₁ outcome₂)
    (kept : ∀ value₁ value₂, values value₁ value₂ → mapped (first value₁) (second value₂)) :
    OutcomesAlike errors mapped states (outcome₁.1.map first, outcome₁.2)
      (outcome₂.1.map second, outcome₂.2) := by
  cases alike with
  | ok alike after => exact .ok (kept _ _ alike) after
  | error alike after => exact .error alike after

end OutcomesAlike

/-- Results that are alike, with states that are related. -/
theorem ResultsAlike.outcome {ε α₁ α₂ ς₁ ς₂ : Type} {errors : ε → ε → Prop}
    {values : α₁ → α₂ → Prop} {states : ς₁ → ς₂ → Prop} {result₁ : Except ε α₁}
    {result₂ : Except ε α₂} {state₁ : ς₁} {state₂ : ς₂}
    (alike : ResultsAlike errors values result₁ result₂) (after : states state₁ state₂) :
    OutcomesAlike errors values states (result₁, state₁) (result₂, state₂) := by
  cases alike with
  | ok alike => exact .ok alike after
  | error alike => exact .error alike after

/-- The same error, or two ways to say that one number does not fit 32 bits. -/
def StoreErrorsAlike (error₁ error₂ : StoreError) : Prop :=
  error₁ = error₂ ∨ ∃ number, error₁.Overflow number ∧ error₂.Overflow number

/-- The same error, or such errors of the stores below. -/
inductive GalleryErrorsAlike : GalleryError → GalleryError → Prop where
  | same (error : GalleryError) : GalleryErrorsAlike error error
  | store {error₁ error₂ : StoreError} (alike : StoreErrorsAlike error₁ error₂) :
      GalleryErrorsAlike (.ofStore error₁) (.ofStore error₂)

/-- Errors that are alike have one code. -/
theorem GalleryErrorsAlike.code_eq {error₁ error₂ : GalleryError}
    (alike : GalleryErrorsAlike error₁ error₂) : error₁.code = error₂.code := by
  cases alike <;> rfl

/-! ## Records -/

section Records

variable (named : SavedBlob → SavedBlob → Prop) (options : GalleryOptions)

/-- The same address, key and time, or the addresses and keys of two files of one parent that are
named for each other. -/
inductive LabelsAlike (image₁ image₂ : NewImage) : Prop where
  | same (url_eq : image₁.url = image₂.url) (storageKey_eq : image₁.storageKey = image₂.storageKey)
      (createdAt_eq : image₁.createdAt = image₂.createdAt)
  | saved {parent : String} {file₁ file₂ : SavedBlob} (pair : named file₁ file₂)
      (url₁_eq : image₁.url = options.imageUrl parent file₁.filename)
      (storageKey₁_eq : image₁.storageKey = file₁.storageKey)
      (url₂_eq : image₂.url = options.imageUrl parent file₂.filename)
      (storageKey₂_eq : image₂.storageKey = file₂.storageKey)

/-- New images that agree up to names and times. -/
structure NewImagesAlike (image₁ image₂ : NewImage) : Prop where
  isCover_eq : image₁.isCover = image₂.isCover
  sortOrder_eq : image₁.sortOrder = image₂.sortOrder
  labels : LabelsAlike named options image₁ image₂

/-- Records that agree up to names and times. -/
structure ImagesAlike (image₁ image₂ : ImageRecord) : Prop where
  id_eq : image₁.id = image₂.id
  parentId_eq : image₁.parentId = image₂.parentId
  fields : NewImagesAlike named options image₁.toNewImage image₂.toNewImage

/-- Records of parents that agree up to times. -/
structure ParentsAlike (record₁ record₂ : ParentRecord) : Prop where
  id_eq : record₁.id = record₂.id
  scopeId_eq : record₁.scopeId = record₂.scopeId

/-- Drafts with the same parent and ids, whose images agree up to names and times. -/
structure DraftsAlike (draft₁ draft₂ : Draft) : Prop where
  parent_eq : draft₁.parent = draft₂.parent
  lastId_eq : draft₁.lastId = draft₂.lastId
  images : List.Forall₂ (ImagesAlike named options) draft₁.images draft₂.images

end Records

variable {named : SavedBlob → SavedBlob → Prop} {options : GalleryOptions}

theorem NewImagesAlike.refl (image : NewImage) : NewImagesAlike named options image image :=
  ⟨rfl, rfl, .same rfl rfl rfl⟩

namespace ImagesAlike

variable {image₁ image₂ : ImageRecord}

theorem move (alike : ImagesAlike named options image₁ image₂) (order : UInt32) :
    ImagesAlike named options { image₁ with sortOrder := order }
      { image₂ with sortOrder := order } := by
  refine ⟨alike.id_eq, alike.parentId_eq, alike.fields.isCover_eq, rfl, ?_⟩
  cases alike.fields.labels with
  | same url storageKey createdAt => exact .same url storageKey createdAt
  | saved pair url₁ storageKey₁ url₂ storageKey₂ =>
      exact .saved pair url₁ storageKey₁ url₂ storageKey₂

theorem cover (alike : ImagesAlike named options image₁ image₂) (flag : Bool) :
    ImagesAlike named options { image₁ with isCover := flag } { image₂ with isCover := flag } := by
  refine ⟨alike.id_eq, alike.parentId_eq, rfl, alike.fields.sortOrder_eq, ?_⟩
  cases alike.fields.labels with
  | same url storageKey createdAt => exact .same url storageKey createdAt
  | saved pair url₁ storageKey₁ url₂ storageKey₂ =>
      exact .saved pair url₁ storageKey₁ url₂ storageKey₂

end ImagesAlike

/-! ## Lists of records -/

section Lists

variable {α₁ α₂ γ : Type} {related : α₁ → α₂ → Prop}

/-- What is read from related entries in the same way. -/
theorem map_eq_of_forall₂ {list₁ : List α₁} {list₂ : List α₂} {first : α₁ → γ} {second : α₂ → γ}
    (alike : List.Forall₂ related list₁ list₂)
    (agree : ∀ entry₁ entry₂, related entry₁ entry₂ → first entry₁ = second entry₂) :
    list₁.map first = list₂.map second := by
  rw [← List.forall₂_eq_eq_eq, List.forall₂_map_left_iff, List.forall₂_map_right_iff]
  exact alike.imp agree

/-- The first entries of related lists that conditions hold of are related, if the conditions hold
of related entries alike. -/
theorem find?_alike {list₁ : List α₁} {list₂ : List α₂} {first : α₁ → Bool} {second : α₂ → Bool}
    (alike : List.Forall₂ related list₁ list₂)
    (agree : ∀ entry₁ entry₂, related entry₁ entry₂ → first entry₁ = second entry₂) :
    Option.Rel related (list₁.find? first) (list₂.find? second) := by
  induction alike with
  | nil => exact .none
  | @cons entry₁ entry₂ list₁ list₂ head _ ih =>
      rw [List.find?_cons, List.find?_cons, agree entry₁ entry₂ head]
      split
      · exact .some head
      · exact ih

/-- Related lists that are sorted by related orders are related. -/
theorem forall₂_mergeSort {list₁ : List α₁} {list₂ : List α₂} {before₁ : α₁ → α₁ → Bool}
    {before₂ : α₂ → α₂ → Bool} (alike : List.Forall₂ related list₁ list₂)
    (agree : ∀ {first₁ first₂ second₁ second₂}, related first₁ first₂ → related second₁ second₂ →
      before₁ first₁ second₁ = before₂ first₂ second₂) :
    List.Forall₂ related (list₁.mergeSort before₁) (list₂.mergeSort before₂) := by
  -- both lists are read from one list of related pairs, which is sorted in one way
  obtain ⟨pairs, rfl, rfl⟩ : ∃ pairs : List { pair : α₁ × α₂ // related pair.1 pair.2 },
      pairs.map (·.1.1) = list₁ ∧ pairs.map (·.1.2) = list₂ := by
    induction alike with
    | nil => exact ⟨[], rfl, rfl⟩
    | cons head _ ih =>
        obtain ⟨pairs, rfl, rfl⟩ := ih
        exact ⟨⟨(_, _), head⟩ :: pairs, rfl, rfl⟩
  have first := List.map_mergeSort (f := fun pair : { pair : α₁ × α₂ // related pair.1 pair.2 } =>
    pair.1.1) (l := pairs) (s := before₁) fun _ _ _ _ => rfl
  have second := List.map_mergeSort (f := fun pair : { pair : α₁ × α₂ // related pair.1 pair.2 } =>
    pair.1.2) (l := pairs) (r := fun pair other => before₁ pair.1.1 other.1.1) (s := before₂)
    fun pair _ other _ => agree pair.2 other.2
  rw [← first, ← second, List.forall₂_map_left_iff, List.forall₂_map_right_iff, List.forall₂_same]
  exact fun pair _ => pair.2

end Lists

section Images

variable {images₁ images₂ : List ImageRecord}

theorem map_id_eq (alike : List.Forall₂ (ImagesAlike named options) images₁ images₂) :
    images₁.map (·.id) = images₂.map (·.id) :=
  map_eq_of_forall₂ alike fun _ _ pair => pair.id_eq

theorem exists_id_iff (alike : List.Forall₂ (ImagesAlike named options) images₁ images₂)
    (id : Int) : (∃ image ∈ images₁, image.id = id) ↔ ∃ image ∈ images₂, image.id = id := by
  rw [← List.mem_map, ← List.mem_map, map_id_eq alike]

theorem map_sortOrder_eq (alike : List.Forall₂ (ImagesAlike named options) images₁ images₂) :
    images₁.map (·.sortOrder) = images₂.map (·.sortOrder) :=
  map_eq_of_forall₂ alike fun _ _ pair => pair.fields.sortOrder_eq

theorem any_isCover_eq (alike : List.Forall₂ (ImagesAlike named options) images₁ images₂) :
    images₁.any (·.isCover) = images₂.any (·.isCover) := by
  have covers : images₁.map (·.isCover) = images₂.map (·.isCover) :=
    map_eq_of_forall₂ alike fun _ _ pair => pair.fields.isCover_eq
  have any : ∀ images : List ImageRecord,
      images.any (·.isCover) = (images.map (·.isCover)).any id := by
    intro images
    rw [List.any_map]
    rfl
  rw [any, any, covers]

theorem arrange_alike (alike : List.Forall₂ (ImagesAlike named options) images₁ images₂) :
    List.Forall₂ (ImagesAlike named options) (ImageRecord.arrange images₁)
      (ImageRecord.arrange images₂) := by
  refine forall₂_mergeSort alike fun first second => ?_
  simp only [ImageRecord.precedes, first.fields.sortOrder_eq, second.fields.sortOrder_eq,
    first.id_eq, second.id_eq]

theorem changedRanks_eq (alike : List.Forall₂ (ImagesAlike named options) images₁ images₂)
    (rank : Nat) : changedRanks rank images₁ = changedRanks rank images₂ := by
  induction alike generalizing rank with
  | nil => rfl
  | cons head _ ih =>
      rw [changedRanks, changedRanks, ih, head.fields.sortOrder_eq, head.id_eq]

/-- Images that are alike have one plan, if they are wanted at one position. -/
theorem planRanks_eq (alike : List.Forall₂ (ImagesAlike named options) images₁ images₂)
    (effective : ImageRecord → Nat)
    (agree : ∀ image₁ image₂, ImagesAlike named options image₁ image₂ →
      effective image₁ = effective image₂) :
    planRanks images₁ effective = planRanks images₂ effective := by
  have ranked : List.Forall₂ (ImagesAlike named options) (rankedBy effective images₁)
      (rankedBy effective images₂) := by
    refine forall₂_mergeSort alike fun first second => ?_
    simp only [ranksBefore, agree _ _ first, agree _ _ second, first.id_eq, second.id_eq]
  exact changedRanks_eq ranked 0

end Images

/-! ## Drafts -/

namespace DraftsAlike

variable {draft₁ draft₂ : Draft}

theorem nextOrder_eq (alike : DraftsAlike named options draft₁ draft₂) :
    draft₁.nextOrder = draft₂.nextOrder := by
  have fold : ∀ draft : Draft, draft.nextOrder = (draft.images.map (·.sortOrder)).foldl
      (fun greatest order => max greatest (order.toNat + 1)) 0 := by
    intro draft
    rw [List.foldl_map]
    rfl
  rw [fold, fold, map_sortOrder_eq alike.images]

theorem recordOf (alike : DraftsAlike named options draft₁ draft₂) {image₁ image₂ : NewImage}
    (fields : NewImagesAlike named options image₁ image₂) :
    ImagesAlike named options (draft₁.recordOf image₁) (draft₂.recordOf image₂) :=
  ⟨congrArg (· + 1) alike.lastId_eq, alike.parent_eq, fields⟩

theorem insert (alike : DraftsAlike named options draft₁ draft₂) {image₁ image₂ : NewImage}
    (fields : NewImagesAlike named options image₁ image₂) :
    DraftsAlike named options (draft₁.insert image₁) (draft₂.insert image₂) where
  parent_eq := alike.parent_eq
  lastId_eq := congrArg (· + 1) alike.lastId_eq
  images := List.rel_append alike.images (.cons (alike.recordOf fields) .nil)

theorem move (alike : DraftsAlike named options draft₁ draft₂) (id : Int) (order : UInt32) :
    DraftsAlike named options (draft₁.move id order) (draft₂.move id order) where
  parent_eq := alike.parent_eq
  lastId_eq := alike.lastId_eq
  images := by
    refine List.rel_map (fun image₁ image₂ pair => ?_) alike.images
    by_cases chosen : image₁.id = id
    · rw [if_pos chosen, if_pos (pair.id_eq.symm.trans chosen)]
      exact pair.move order
    · rw [if_neg chosen, if_neg fun same => chosen (pair.id_eq.trans same)]
      exact pair

theorem cover (alike : DraftsAlike named options draft₁ draft₂) (id : Int) :
    DraftsAlike named options (draft₁.cover id) (draft₂.cover id) where
  parent_eq := alike.parent_eq
  lastId_eq := alike.lastId_eq
  images := by
    refine List.rel_map (fun image₁ image₂ pair => ?_) alike.images
    have same : decide (image₁.id = id) = decide (image₂.id = id) := by rw [pair.id_eq]
    rw [same]
    exact pair.cover _

theorem remove (alike : DraftsAlike named options draft₁ draft₂) (id : Int) :
    DraftsAlike named options (draft₁.remove id) (draft₂.remove id) where
  parent_eq := alike.parent_eq
  lastId_eq := alike.lastId_eq
  images := by
    refine List.rel_filter (fun image₁ image₂ pair => ?_) alike.images
    dsimp only
    rw [pair.id_eq]

end DraftsAlike

/-! ## Parents -/

section Parents

variable {registry₁ registry₂ : Registry}

theorem Registry.find?_parentsAlike
    (alike : List.Forall₂ ParentsAlike registry₁.records registry₂.records) (parent : String) :
    Option.Rel ParentsAlike (registry₁.find? parent) (registry₂.find? parent) :=
  find?_alike alike fun record₁ record₂ pair => by rw [pair.id_eq]

/-- A parent that is known stays, and another one is entered, under whatever time. -/
theorem Registry.register_parentsAlike
    (alike : List.Forall₂ ParentsAlike registry₁.records registry₂.records)
    (parent scope now₁ now₂ : String) :
    ResultsAlike GalleryErrorsAlike
      (fun entered₁ entered₂ => ParentsAlike entered₁.1 entered₂.1 ∧
        List.Forall₂ ParentsAlike entered₁.2.records entered₂.2.records)
      (registry₁.register parent scope now₁) (registry₂.register parent scope now₂) := by
  unfold Registry.register
  cases Segment.check "parent" parent with
  | error error => exact .error (.same error)
  | ok _ =>
      cases Segment.check "scope" scope with
      | error error => exact .error (.same error)
      | ok _ =>
          have found := Registry.find?_parentsAlike alike parent
          dsimp only [bind, Except.bind]
          generalize registry₁.find? parent = found₁ at found ⊢
          generalize registry₂.find? parent = found₂ at found ⊢
          cases found with
          | none => exact .ok ⟨⟨rfl, rfl⟩, List.rel_append alike (.cons ⟨rfl, rfl⟩ .nil)⟩
          | some pair => exact .ok ⟨pair, alike⟩

end Parents

/-- The sorted ids depend on nothing but which ids there are. -/
theorem sortedIds_eq {ids₁ ids₂ : List String} (same : ∀ id, id ∈ ids₁ ↔ id ∈ ids₂) :
    sortedIds ids₁ = sortedIds ids₂ := by
  have permuted : ids₁.eraseDups.Perm ids₂.eraseDups := by
    rw [List.perm_ext_iff_of_nodup (nodup_eraseDups ids₁) (nodup_eraseDups ids₂)]
    intro id
    rw [List.mem_eraseDups, List.mem_eraseDups, same]
  have sorted : ∀ ids : List String,
      (ids.mergeSort fun first second => decide (first ≤ second)).Pairwise
        fun first second => decide (first ≤ second) = true := by
    refine List.pairwise_mergeSort ?_ ?_
    · intro first second third left right
      rw [decide_eq_true_eq] at *
      exact String.le_trans left right
    · intro first second
      simpa using String.le_total first second
  refine List.Perm.eq_of_pairwise ?_ (sorted _) (sorted _) ?_
  · intro first second _ _ left right
    rw [decide_eq_true_eq] at left right
    exact String.le_antisymm left right
  · exact ((List.mergeSort_perm _ _).trans permuted).trans (List.mergeSort_perm _ _).symm

end ImageGallery
