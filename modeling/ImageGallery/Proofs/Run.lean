import ImageGallery.Proofs.Gallery
import ImageGallery.Proofs.Stores

/-!
# Runs

A run is a sequence of calls. Between calls the store may be told to refuse some of its own calls
from then on, and the files of the blob store may be changed from outside.

Whatever happens, a call that fails leaves the store as it was, and every gallery stays in order.
-/

namespace ImageGallery

/-- A call of one of the operations. -/
inductive Call where
  | register (parent scope : String)
  | upload (parent : String) (uploads : List Upload)
  | delete (parent : String) (id : Int)
  | setCover (parent : String) (id : Int)
  | reorder (parent : String) (items : List ReorderItem)
  | list (parent : String)
deriving DecidableEq, Inhabited

/-- What an operation answers when it succeeds. -/
inductive Answer where
  | registered (record : ParentRecord)
  | stored (records : List ImageRecord)
  | deleted (outcome : DeleteOutcome)
  | covered (image : ImageRecord)
  | ranked (count : Nat)
  | listed (images : List ImageRecord)
deriving DecidableEq, Inhabited

/-- One step of a run, over the refusals that a store can be told and the states of a blob store. -/
inductive Step (ρ β : Type) where
  | call (call : Call)
  | refuse (refusals : ρ)
  | disturb (change : β → β)

namespace Manager

variable {σ τ ρ β : Type}

/-- A result with its answer as that of a call. -/
def answerAs {α : Type} (wrap : α → Answer) (result : Except GalleryError α × Manager σ β) :
    Except GalleryError Answer × Manager σ β :=
  (result.1.map wrap, result.2)

theorem answerAs_eq_ok {α : Type} {wrap : α → Answer}
    {result : Except GalleryError α × Manager σ β} {answer : Answer} {after : Manager σ β}
    (answered : answerAs wrap result = (.ok answer, after)) :
    ∃ value, result = (.ok value, after) ∧ answer = wrap value := by
  rcases result with ⟨result, middle⟩
  cases result with
  | ok value =>
      cases answered
      exact ⟨value, rfl, rfl⟩
  | error error => cases answered

theorem answerAs_eq_error {α : Type} {wrap : α → Answer}
    {result : Except GalleryError α × Manager σ β} {error : GalleryError} {after : Manager σ β}
    (answered : answerAs wrap result = (.error error, after)) : result = (.error error, after) := by
  rcases result with ⟨result, middle⟩
  cases result with
  | ok value => cases answered
  | error error =>
      cases answered
      rfl

section Run

variable [GalleryTx τ] [GalleryStore σ τ] [ParentStore σ] [BlobStore β]

/-- Carry a call out. -/
def perform (manager : Manager σ β) : Call → Except GalleryError Answer × Manager σ β
  | .register parent scope => answerAs .registered (manager.register parent scope)
  | .upload parent uploads => answerAs .stored (manager.upload parent uploads)
  | .delete parent id => answerAs .deleted (manager.delete parent id)
  | .setCover parent id => answerAs .covered (manager.setCover parent id)
  | .reorder parent items => answerAs .ranked (manager.reorder parent items)
  | .list parent => answerAs .listed (manager.list parent, manager)

/-- Carry a step out. -/
def step [Refusing σ ρ] (manager : Manager σ β) : Step ρ β → Manager σ β
  | .call call => (manager.perform call).2
  | .refuse refusals => { manager with store := Refusing.refuse manager.store refusals }
  | .disturb change => { manager with blobs := change manager.blobs }

/-- Carry steps out one after the other. -/
def run [Refusing σ ρ] (manager : Manager σ β) (steps : List (Step ρ β)) : Manager σ β :=
  steps.foldl step manager

end Run

/-! ## Calls that succeed, calls that fail -/

section Effects

variable [GalleryTx τ] [TxView τ] [LawfulTx τ] [GalleryStore σ τ] [ParentStore σ] [StoreView σ τ]
  [LawfulStore σ τ] [BlobStore β]

/-- A call that fails leaves the store as it was. -/
theorem store_of_perform_eq_error {manager after : Manager σ β} {call : Call} {error : GalleryError}
    (failed : manager.perform call = (.error error, after)) :
    after.store = manager.store ∧ after.options = manager.options := by
  cases call with
  | register parent scope =>
      obtain ⟨sameStore, -, sameOptions⟩ := register_of_error (answerAs_eq_error failed)
      exact ⟨sameStore, sameOptions⟩
  | upload parent uploads =>
      obtain ⟨middle, received, storeEq, -, optionsEq⟩ := record_eq (answerAs_eq_error failed)
      obtain ⟨sameStore, sameOptions, -⟩ := receive_of_error received
      exact ⟨storeEq.trans sameStore, optionsEq.trans sameOptions⟩
  | delete parent id =>
      obtain ⟨middle, withdrawn, storeEq, -, optionsEq⟩ := record_eq (answerAs_eq_error failed)
      rw [withdraw_of_error withdrawn] at storeEq optionsEq
      exact ⟨storeEq, optionsEq⟩
  | setCover parent id =>
      obtain ⟨middle, flagged, storeEq, -, optionsEq⟩ := record_eq (answerAs_eq_error failed)
      rw [flag_of_error flagged] at storeEq optionsEq
      exact ⟨storeEq, optionsEq⟩
  | reorder parent items =>
      obtain ⟨middle, rearranged, storeEq, -, optionsEq⟩ := record_eq (answerAs_eq_error failed)
      rw [rearrange_of_error rearranged] at storeEq optionsEq
      exact ⟨storeEq, optionsEq⟩
  | list parent =>
      rw [← (Prod.mk.inj (answerAs_eq_error failed)).2]
      exact ⟨rfl, rfl⟩

/-- A call that fails leaves the files as they were, unless it is an upload. -/
theorem blobs_of_perform_eq_error {manager after : Manager σ β} {call : Call} {error : GalleryError}
    (failed : manager.perform call = (.error error, after)) :
    after.blobs = manager.blobs ∨ ∃ parent uploads, call = .upload parent uploads ∧
      Halted manager parent error after.blobs := by
  cases call with
  | register parent scope =>
      exact .inl (register_of_error (answerAs_eq_error failed)).2.1
  | upload parent uploads =>
      obtain ⟨middle, received, -, blobsEq, -⟩ := record_eq (answerAs_eq_error failed)
      obtain ⟨-, -, halted⟩ := receive_of_error received
      exact .inr ⟨parent, uploads, rfl, blobsEq ▸ halted⟩
  | delete parent id =>
      obtain ⟨middle, withdrawn, -, blobsEq, -⟩ := record_eq (answerAs_eq_error failed)
      exact .inl (blobsEq.trans (congrArg (·.blobs) (withdraw_of_error withdrawn)))
  | setCover parent id =>
      obtain ⟨middle, flagged, -, blobsEq, -⟩ := record_eq (answerAs_eq_error failed)
      exact .inl (blobsEq.trans (congrArg (·.blobs) (flag_of_error flagged)))
  | reorder parent items =>
      obtain ⟨middle, rearranged, -, blobsEq, -⟩ := record_eq (answerAs_eq_error failed)
      exact .inl (blobsEq.trans (congrArg (·.blobs) (rearrange_of_error rearranged)))
  | list parent =>
      rw [← (Prod.mk.inj (answerAs_eq_error failed)).2]
      exact .inl rfl

/-- What a call that succeeds does. -/
inductive Effect (manager after : Manager σ β) : Call → Answer → Prop where
  | registered {parent scope now : String} {record : ParentRecord} {registry : Registry}
      (entered : (ParentStore.registry manager.store).register parent scope now =
        .ok (record, registry))
      (store_eq : after.store = ParentStore.withRegistry manager.store registry)
      (blobs_eq : after.blobs = manager.blobs) :
      Effect manager after (.register parent scope) (.registered record)
  | stored {uploads taken : List Upload} {parent : ParentRecord} {saved : List SavedBlob}
      {records : List ImageRecord} {order : UInt32} (leading : taken <+: uploads)
      (some_taken : taken ≠ []) (stored : Stored manager after parent taken saved records order) :
      Effect manager after (.upload parent.id uploads) (.stored records)
  | deleted {parent : String} {target : ImageRecord} {outcome : DeleteOutcome}
      (deleted : Deleted manager after parent target outcome) :
      Effect manager after (.delete parent target.id) (.deleted outcome)
  | covered {parent : String} {chosen image : ImageRecord}
      (mem : chosen ∈ StoreView.images manager.store parent)
      (published : Published manager.store after.store ⟨parent,
        withCover (StoreView.images manager.store parent) chosen.id,
        StoreView.lastId manager.store⟩)
      (blobs_eq : after.blobs = manager.blobs) :
      Effect manager after (.setCover parent chosen.id) (.covered image)
  | ranked {parent : String} {items : List ReorderItem} {positions : Positions} {count : Nat}
      (accepted : Positions.ofItems items = .ok positions)
      (published : Published manager.store after.store ⟨parent,
        settle (wanted positions) (StoreView.images manager.store parent),
        StoreView.lastId manager.store⟩)
      (blobs_eq : after.blobs = manager.blobs) :
      Effect manager after (.reorder parent items) (.ranked count)
  | listed {parent : String} {images : List ImageRecord} (same : after = manager) :
      Effect manager after (.list parent) (.listed images)

theorem effect_of_perform_eq_ok {manager after : Manager σ β} {call : Call} {answer : Answer}
    (distinct : ∀ parent, ((StoreView.images manager.store parent).map (·.id)).Nodup)
    (performed : manager.perform call = (.ok answer, after)) :
    Effect manager after call answer ∧ after.options = manager.options := by
  cases call with
  | register parent scope =>
      obtain ⟨record, registered, rfl⟩ := answerAs_eq_ok performed
      obtain ⟨now, registry, entered, storeEq, blobsEq, optionsEq⟩ := register_of_ok registered
      exact ⟨.registered entered storeEq blobsEq, optionsEq⟩
  | upload parent uploads =>
      obtain ⟨records, uploaded, rfl⟩ := answerAs_eq_ok performed
      obtain ⟨middle, received, storeEq, blobsEq, optionsEq⟩ := record_eq uploaded
      obtain ⟨owner, taken, saved, order, rfl, takenPrefix, someTaken, stored⟩ :=
        receive_of_ok received
      have sameOptions := optionsEq.trans stored.options_eq
      have whole : Stored manager after owner taken saved records order :=
        ⟨stored.registered, stored.fits, stored.ordered, blobsEq ▸ stored.saves,
          stored.records_eq, storeEq ▸ stored.published, sameOptions⟩
      exact ⟨.stored takenPrefix someTaken whole, sameOptions⟩
  | delete parent id =>
      obtain ⟨outcome, deletion, rfl⟩ := answerAs_eq_ok performed
      obtain ⟨middle, withdrawn, storeEq, blobsEq, optionsEq⟩ := record_eq deletion
      obtain ⟨target, rfl, deleted⟩ := withdraw_of_ok (distinct parent) withdrawn
      have sameOptions := optionsEq.trans deleted.options_eq
      have whole : Deleted manager after parent target outcome :=
        ⟨deleted.mem, storeEq ▸ deleted.published, blobsEq ▸ deleted.removed,
          deleted.deletedId_eq, deleted.newCoverId_eq, sameOptions⟩
      exact ⟨.deleted whole, sameOptions⟩
  | setCover parent id =>
      obtain ⟨image, covering, rfl⟩ := answerAs_eq_ok performed
      obtain ⟨middle, flagged, storeEq, blobsEq, optionsEq⟩ := record_eq covering
      obtain ⟨⟨chosen, mem, rfl⟩, published, middleEq⟩ := flag_of_ok flagged
      rw [middleEq] at blobsEq optionsEq
      exact ⟨.covered mem (storeEq ▸ published) blobsEq, optionsEq⟩
  | reorder parent items =>
      obtain ⟨count, reordering, rfl⟩ := answerAs_eq_ok performed
      obtain ⟨middle, rearranged, storeEq, blobsEq, optionsEq⟩ := record_eq reordering
      obtain ⟨positions, accepted, -, published, middleEq⟩ :=
        rearrange_of_ok (distinct parent) rearranged
      rw [middleEq] at blobsEq optionsEq
      exact ⟨.ranked accepted (storeEq ▸ published) blobsEq, optionsEq⟩
  | list parent =>
      obtain ⟨images, listing, rfl⟩ := answerAs_eq_ok performed
      have same := (Prod.mk.inj listing).2.symm
      exact ⟨.listed same, by rw [same]⟩

/-- Every gallery of a store is in order. -/
def GalleriesInOrder (options : GalleryOptions) (store : σ) : Prop :=
  ∀ parent, InOrder options.maxImagesPerParent.toNat (StoreView.lastId store)
    (StoreView.images store parent)

omit [LawfulStore σ τ] [TxView τ] [GalleryTx τ] [GalleryStore σ τ] [LawfulTx τ] [BlobStore β] in
theorem GalleriesInOrder.publish {options : GalleryOptions} {store after : σ} {draft : Draft}
    (ordered : GalleriesInOrder options store) (published : Published store after draft)
    (later : StoreView.lastId store ≤ draft.lastId)
    (kept : InOrder options.maxImagesPerParent.toNat draft.lastId draft.images) :
    GalleriesInOrder options after := by
  intro parent
  rw [published.lastId_eq]
  by_cases own : parent = draft.parent
  · rw [own, published.images_self]
    exact kept
  · rw [published.images_other parent own]
    exact (ordered parent).mono later

/-- The gallery of an upload that succeeds is in order. -/
theorem inOrder_stored {manager after : Manager σ β} {parent : ParentRecord} {taken : List Upload}
    {saved : List SavedBlob} {records : List ImageRecord} {order : UInt32}
    (ordered : GalleriesInOrder manager.options manager.store)
    (stored : Stored manager after parent taken saved records order) :
    InOrder manager.options.maxImagesPerParent.toNat
      (StoreView.lastId manager.store + saved.length)
      (StoreView.images manager.store parent.id ++ records) := by
  have kept := ordered parent.id
  have small := manager.options.maxImagesPerParent.toNat_lt
  have room : (StoreView.images manager.store parent.id).length + saved.length ≤
      manager.options.maxImagesPerParent.toNat := by
    rw [stored.saves.length_eq]
    exact stored.fits
  have started := LawfulStore.draft_start manager.store parent.id
  have next : order.toNat = (StoreView.images manager.store parent.id).length := by
    rw [LawfulTx.nextOrder_of_ok stored.ordered, started]
    · exact kept.nextOrder_eq_length
    · intro image mem
      rw [started] at mem
      have bound := kept.sortOrder_lt mem
      have fits := kept.fits
      exact Nat.lt_of_le_of_lt (Nat.le_trans bound fits) small
  rw [stored.records_eq]
  exact kept.append small next room

/-- A call keeps galleries in order. -/
theorem inOrder_perform {manager : Manager σ β} (ordered : GalleriesInOrder manager.options
    manager.store) (call : Call) :
    GalleriesInOrder manager.options (manager.perform call).2.store ∧
      (manager.perform call).2.options = manager.options := by
  have small := manager.options.maxImagesPerParent.toNat_lt
  rcases performed : manager.perform call with ⟨_ | answer, after⟩
  · obtain ⟨sameStore, sameOptions⟩ := store_of_perform_eq_error performed
    rw [sameStore]
    exact ⟨ordered, sameOptions⟩
  · obtain ⟨effect, sameOptions⟩ :=
      effect_of_perform_eq_ok (fun parent => (ordered parent).distinct) performed
    refine ⟨?_, sameOptions⟩
    cases effect with
    | registered _ storeEq _ =>
        intro parent
        rw [storeEq, LawfulStore.lastId_withRegistry, LawfulStore.images_withRegistry]
        exact ordered parent
    | stored _ _ stored =>
        refine ordered.publish stored.published ?_ (inOrder_stored ordered stored)
        exact Int.le_add_of_nonneg_right (Int.natCast_nonneg _)
    | deleted deleted =>
        exact ordered.publish deleted.published (Int.le_refl _)
          ((ordered _).without small deleted.mem)
    | covered mem published _ =>
        exact ordered.publish published (Int.le_refl _)
          ((ordered _).withCover (List.mem_map_of_mem mem))
    | ranked _ published _ =>
        exact ordered.publish published (Int.le_refl _) ((ordered _).settle small _)
    | listed same =>
        rw [same]
        exact ordered

variable [Refusing σ ρ]

/-- A step keeps galleries in order. -/
theorem inOrder_step [LawfulRefusing σ τ ρ] {manager : Manager σ β}
    (ordered : GalleriesInOrder manager.options manager.store) (step : Step ρ β) :
    GalleriesInOrder (manager.step step).options (manager.step step).store ∧
      (manager.step step).options = manager.options := by
  cases step with
  | call call =>
      obtain ⟨kept, sameOptions⟩ := inOrder_perform ordered call
      rw [step, sameOptions]
      exact ⟨kept, rfl⟩
  | refuse refusals =>
      refine ⟨fun parent => ?_, rfl⟩
      rw [step, LawfulRefusing.lastId_refuse, LawfulRefusing.images_refuse]
      exact ordered parent
  | disturb change => exact ⟨ordered, rfl⟩

/-- Whatever is done to galleries in order, they stay so. -/
theorem inOrder_run [LawfulRefusing σ τ ρ] {manager : Manager σ β}
    (ordered : GalleriesInOrder manager.options manager.store) (steps : List (Step ρ β)) :
    GalleriesInOrder (manager.run steps).options (manager.run steps).store ∧
      (manager.run steps).options = manager.options := by
  induction steps generalizing manager with
  | nil => exact ⟨ordered, rfl⟩
  | cons step steps ih =>
      obtain ⟨kept, sameOptions⟩ := inOrder_step ordered step
      obtain ⟨keptAfter, sameAfter⟩ := ih kept
      exact ⟨keptAfter, sameAfter.trans sameOptions⟩

/-- Galleries of a store that was empty are in order. -/
theorem inOrder_of_empty [LawfulRefusing σ τ ρ] (manager : Manager σ β)
    (empty : ∀ parent, StoreView.images manager.store parent = []) (steps : List (Step ρ β)) :
    GalleriesInOrder (manager.run steps).options (manager.run steps).store ∧
      (manager.run steps).options = manager.options := by
  refine inOrder_run (fun parent => ?_) steps
  rw [empty]
  exact InOrder.empty _ _

/-! ## Galleries on display -/

/-- A gallery as it is displayed: its positions are `0, 1, …` one after the other, it has one cover
unless it is empty, and no more images than the limit allows. -/
structure WellKept (limit : Nat) (images : List ImageRecord) : Prop where
  positions : images.map (fun image => image.sortOrder.toNat) = List.range images.length
  covers : images.countP (·.isCover) = if images = [] then 0 else 1
  fits : images.length ≤ limit

/-- A gallery in order is displayed well. -/
theorem wellKept_arrange {limit : Nat} {lastId : Int} {images : List ImageRecord}
    (kept : InOrder limit lastId images) : WellKept limit (ImageRecord.arrange images) := by
  have permuted := arrange_perm images
  refine ⟨?_, ?_, ?_⟩
  · rw [permuted.length_eq]
    exact map_sortOrder_arrange_iff.mpr kept.dense
  · rw [permuted.countP_eq, kept.covered, ← permuted.length_eq]
    cases ImageRecord.arrange images with
    | nil => rfl
    | cons first others => simp
  · rw [permuted.length_eq]
    exact kept.fits

/-- Galleries of a store that was empty are displayed well. -/
theorem wellKept_run [LawfulRefusing σ τ ρ] (manager : Manager σ β)
    (empty : ∀ parent, StoreView.images manager.store parent = []) (steps : List (Step ρ β))
    (parent : String) : WellKept manager.options.maxImagesPerParent.toNat
      (GalleryStore.listImages (manager.run steps).store parent) := by
  obtain ⟨kept, sameOptions⟩ := inOrder_of_empty manager empty steps
  rw [LawfulStore.listImages_eq, ← sameOptions]
  exact wellKept_arrange (kept parent)

end Effects

/-- A manager of an empty store in memory. -/
def inMemory (options : GalleryOptions) (blobs : β) (clock : Clock) : Manager MemoryStore β :=
  { store := {}, blobs, options, clock }

/-- A manager of an empty database that may refuse calls. -/
def inDatabase (refusals : Refusals) (options : GalleryOptions) (blobs : β) (clock : Clock) :
    Manager (Fallible Database) β :=
  { store := { inner := {}, refusals }, blobs, options, clock }

/-- All galleries are displayed well, in memory and in a database, after every run: whatever is
called in whatever order, whichever calls the stores refuse and whatever happens to the files. -/
theorem wellKept_of_empty [BlobStore β] (options : GalleryOptions) (blobs : β) (clock : Clock) :
    (∀ (steps : List (Step Bool β)) (parent : String),
      WellKept options.maxImagesPerParent.toNat
        (GalleryStore.listImages ((inMemory options blobs clock).run steps).store parent)) ∧
    ∀ (refusals : Refusals) (steps : List (Step Refusals β)) (parent : String),
      WellKept options.maxImagesPerParent.toNat
        (GalleryStore.listImages
          ((inDatabase refusals options blobs clock).run steps).store parent) := by
  constructor
  · intro steps parent
    exact wellKept_run (inMemory options blobs clock) (fun _ => rfl) steps parent
  · intro refusals steps parent
    exact wellKept_run (inDatabase refusals options blobs clock) (fun _ => rfl) steps parent

end Manager

end ImageGallery
