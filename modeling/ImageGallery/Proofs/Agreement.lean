import ImageGallery.Proofs.AlikeManagers

/-!
# Memory and database agree

The same steps are taken on an empty store in memory and on an empty database: operations, looks
into the stores, and transactions with any calls, committed or dropped. As long as the blob stores
have the same outcomes, both runs answer the same in each step, up to times and the names of files.

Three kinds of calls are left out, in which the stores do differ: inserting a second cover,
assigning the cover to an image that is not there, and writing the last position, after which
memory starts again from zero. Where a gallery has more images than 32 bits can count, both stores
refuse to count them, each in its own words.
-/

namespace ImageGallery

/-- A step of a run on a store: an operation, a look into the store, or a transaction with its
calls, committed at its end or dropped. -/
inductive StoreStep where
  | call (call : Call)
  | fetch (parent : String)
  | images (parent : String)
  | galleries
  | transaction (parent : String) (calls : List GalleryCall) (commits : Bool)
deriving DecidableEq, Inhabited

/-- What a step answers. -/
inductive StoreAnswer where
  | called (result : Except GalleryError Answer)
  | fetched (record : Option ParentRecord)
  | images (images : List ImageRecord)
  | galleries (parents : List String)
  | dropped (answers : List (Except StoreError GalleryAnswer))
  | committed (answers : List (Except StoreError GalleryAnswer)) (ending : Except StoreError Unit)
deriving DecidableEq, Inhabited

/-- Answers to steps that agree up to times and the names of files. -/
inductive StoreAnswersAlike (named : SavedBlob → SavedBlob → Prop) (options : GalleryOptions) :
    StoreAnswer → StoreAnswer → Prop where
  | called {result₁ result₂ : Except GalleryError Answer}
      (alike : ResultsAlike GalleryErrorsAlike (Manager.AnswersAlike named options) result₁
        result₂) :
      StoreAnswersAlike named options (.called result₁) (.called result₂)
  | fetched {record₁ record₂ : Option ParentRecord}
      (alike : Option.Rel ParentsAlike record₁ record₂) :
      StoreAnswersAlike named options (.fetched record₁) (.fetched record₂)
  | images {images₁ images₂ : List ImageRecord}
      (alike : List.Forall₂ (ImagesAlike named options) images₁ images₂) :
      StoreAnswersAlike named options (.images images₁) (.images images₂)
  | galleries (parents : List String) :
      StoreAnswersAlike named options (.galleries parents) (.galleries parents)
  | dropped {answers₁ answers₂ : List (Except StoreError GalleryAnswer)}
      (alike : List.Forall₂ (ResultsAlike StoreErrorsAlike (GalleryAnswersAlike named options))
        answers₁ answers₂) :
      StoreAnswersAlike named options (.dropped answers₁) (.dropped answers₂)
  | committed {answers₁ answers₂ : List (Except StoreError GalleryAnswer)}
      {ending₁ ending₂ : Except StoreError Unit}
      (alike : List.Forall₂ (ResultsAlike StoreErrorsAlike (GalleryAnswersAlike named options))
        answers₁ answers₂)
      (ending : ResultsAlike StoreErrorsAlike Eq ending₁ ending₂) :
      StoreAnswersAlike named options (.committed answers₁ ending₁) (.committed answers₂ ending₂)

namespace Manager

section Runs

variable {σ τ β : Type} [GalleryTx τ] [GalleryStore σ τ] [ParentStore σ] [BlobStore β]

/-- Take a step. -/
def take (manager : Manager σ β) : StoreStep → StoreAnswer × Manager σ β
  | .call call => (.called (manager.perform call).1, (manager.perform call).2)
  | .fetch parent => (.fetched ((ParentStore.registry manager.store).find? parent), manager)
  | .images parent => (.images (GalleryStore.listImages manager.store parent), manager)
  | .galleries => (.galleries (GalleryStore.galleryParentIds manager.store), manager)
  | .transaction parent calls commits =>
    let (answers, tx) := GalleryCall.answerAll (GalleryStore.start manager.store parent) calls
    if commits then
      let (ending, store) := GalleryStore.commit tx manager.store
      (.committed answers ending, { manager with store })
    else (.dropped answers, manager)

/-- Take steps one after the other, and collect their answers. -/
def answers (manager : Manager σ β) : List StoreStep → List StoreAnswer
  | [] => []
  | step :: steps => (manager.take step).1 :: (manager.take step).2.answers steps

/-- A step is regular if no image stands at the last position when it is taken, and the calls of
its transaction are regular. -/
def Regular (manager : Manager σ β) (step : StoreStep) : Prop :=
  (∀ parent, Roomy (GalleryStore.listImages manager.store parent)) ∧
    match step with
    | .transaction parent calls _ =>
      GalleryCall.AllRegular (GalleryStore.start manager.store parent) calls
    | _ => True

/-- Each of some steps is regular when its turn comes. -/
def AllRegular (manager : Manager σ β) : List StoreStep → Prop
  | [] => True
  | step :: steps => manager.Regular step ∧ (manager.take step).2.AllRegular steps

end Runs

section Agreement

variable {σ₁ σ₂ τ₁ τ₂ β₁ β₂ : Type} [StoreView σ₁ τ₁] [StoreView σ₂ τ₂] [Willing σ₁ τ₁]
  [Willing σ₂ τ₂] [ParentStore σ₁] [ParentStore σ₂] [BlobStore β₁] [BlobStore β₂] [GalleryTx τ₁]
  [GalleryTx τ₂] [TxView τ₁] [TxView τ₂] [GalleryStore σ₁ τ₁] [GalleryStore σ₂ τ₂]
  [PredictableStore σ₁ τ₁] [PredictableStore σ₂ τ₂] [PredictableTx τ₁] [PredictableTx τ₂]
  {coupling : Coupling β₁ β₂} {options : GalleryOptions} {manager₁ : Manager σ₁ β₁}
  {manager₂ : Manager σ₂ β₂}

/-- A regular step answers alike, and leaves the managers alike. -/
theorem Alike.take (alike : Alike coupling options manager₁ manager₂) {step : StoreStep}
    (regular : manager₁.Regular step) :
    StoreAnswersAlike coupling.named options (manager₁.take step).1 (manager₂.take step).1 ∧
      Alike coupling options (manager₁.take step).2 (manager₂.take step).2 := by
  have roomy : ∀ parent, Roomy (StoreView.images manager₁.store parent) := by
    intro parent image mem
    apply regular.1 parent image
    rw [LawfulStore.listImages_eq]
    exact (arrange_perm _).mem_iff.mpr mem
  cases step with
  | call call =>
      have performed := alike.perform roomy call
      exact ⟨.called performed.result, performed.state⟩
  | fetch parent =>
      exact ⟨.fetched (Registry.find?_parentsAlike alike.stores.parents parent), alike⟩
  | images parent => exact ⟨.images (alike.stores.listImages parent), alike⟩
  | galleries =>
      refine ⟨?_, alike⟩
      rw [Manager.take, Manager.take, alike.stores.galleryParentIds_eq]
      exact .galleries _
  | transaction parent calls commits =>
      have staged : Roomy (TxView.draft (GalleryStore.start manager₁.store parent)).images := by
        rw [LawfulStore.draft_start]
        exact roomy parent
      obtain ⟨answers, transactions⟩ :=
        GalleryCall.answerAll_alike (alike.stores.start parent) staged regular.2
      cases commits with
      | false => exact ⟨.dropped answers, alike⟩
      | true =>
          have committed := alike.stores.commit transactions
          exact ⟨.committed answers committed.result,
            committed.state, alike.blobs, alike.options₁, alike.options₂⟩

/-- Regular steps one after the other answer alike. -/
theorem Alike.answers (alike : Alike coupling options manager₁ manager₂) {steps : List StoreStep}
    (regular : manager₁.AllRegular steps) :
    List.Forall₂ (StoreAnswersAlike coupling.named options) (manager₁.answers steps)
      (manager₂.answers steps) := by
  induction steps generalizing manager₁ manager₂ with
  | nil => exact .nil
  | cons step steps ih =>
      obtain ⟨answer, after⟩ := alike.take regular.1
      exact .cons answer (ih after regular.2)

end Agreement

/-- A manager of an empty database. -/
def onDatabase {β : Type} (options : GalleryOptions) (blobs : β) (clock : Clock) :
    Manager Database β :=
  { store := {}, blobs, options, clock }

/-- Empty stores hold the same. -/
theorem alike_of_empty {β₁ β₂ : Type} [BlobStore β₁] [BlobStore β₂] (coupling : Coupling β₁ β₂)
    (options : GalleryOptions) {blobs₁ : β₁} {blobs₂ : β₂} (same : coupling.alike blobs₁ blobs₂)
    (clock₁ clock₂ : Clock) :
    Alike coupling options (inMemory options blobs₁ clock₁) (onDatabase options blobs₂ clock₂) where
  stores :=
    { images := fun _ => .nil
      lastId_eq := rfl
      parents := .nil
      willing₁ := ⟨rfl, fun _ mem => absurd mem List.not_mem_nil⟩
      willing₂ := trivial }
  blobs := same
  options₁ := rfl
  options₂ := rfl

/-- Memory and database agree: starting from empty stores, regular steps answer the same in both,
up to times and the names that the blob stores make up. -/
theorem answers_agree {β₁ β₂ : Type} [BlobStore β₁] [BlobStore β₂] (coupling : Coupling β₁ β₂)
    (options : GalleryOptions) {blobs₁ : β₁} {blobs₂ : β₂} (same : coupling.alike blobs₁ blobs₂)
    (clock₁ clock₂ : Clock) (steps : List StoreStep)
    (regular : (inMemory options blobs₁ clock₁).AllRegular steps) :
    List.Forall₂ (StoreAnswersAlike coupling.named options)
      ((inMemory options blobs₁ clock₁).answers steps)
      ((onDatabase options blobs₂ clock₂).answers steps) :=
  (alike_of_empty coupling options same clock₁ clock₂).answers regular

/-! ## A run -/

theorem roomy_listImages {store : MemoryStore}
    (small : ∀ entry ∈ store.galleries, ∀ image ∈ entry.2, image.sortOrder ≠ 4294967295)
    (parent : String) : Roomy (GalleryStore.listImages store parent) := by
  intro image mem
  rw [LawfulStore.listImages_eq] at mem
  have stored := (arrange_perm _).mem_iff.mp mem
  change image ∈ store.gallery parent at stored
  unfold MemoryStore.gallery at stored
  cases found : store.galleries.find? fun entry => entry.1 = parent with
  | none => simp [found] at stored
  | some entry =>
      rw [found] at stored
      exact small entry (List.mem_of_find?_eq_some found) image stored

/-- Saves that succeed under names with a letter, and removals that succeed. -/
def lettered (letter : String) : Playback :=
  { saves := fun index => .ok
      { filename := letter ++ toString index
        storageKey := "s/p/" ++ letter ++ toString index
        path := "", size := 0 }
    removals := fun _ => true }

/-- An image that no blob store has a file of. -/
def fileless (isCover : Bool) (sortOrder : UInt32) : NewImage :=
  { url := "u", storageKey := "k", isCover, sortOrder, createdAt := "t" }

/-- Steps of every kind. -/
def mixedSteps : List StoreStep :=
  [ .call (.register "p" "s"),
    .call (.upload "p" [.ofHeld "a.png" none [], .ofHeld "b.png" none []]),
    .transaction "p"
      [.assignExclusiveCover 2, .setSortOrder 7 1, .nextOrder, .insert (fileless false 0)] true,
    .transaction "q" [.insert (fileless true 5), .count] false,
    .fetch "p",
    .images "p",
    .galleries,
    .call (.delete "p" 1) ]

theorem answers_agree_mixedSteps :
    (inMemory {} (lettered "a") ⟨id, 0⟩).AllRegular mixedSteps ∧
      List.Forall₂ (StoreAnswersAlike (fun file₁ file₂ => file₁.size = file₂.size) {})
        ((inMemory {} (lettered "a") ⟨id, 0⟩).answers mixedSteps)
        ((onDatabase {} (lettered "b") ⟨fun _ => 0, 0⟩).answers mixedSteps) := by
  have regular : (inMemory {} (lettered "a") ⟨id, 0⟩).AllRegular mixedSteps := by
    refine ⟨⟨roomy_listImages ?_, trivial⟩, ⟨roomy_listImages ?_, trivial⟩,
      ⟨roomy_listImages ?_, ?_⟩, ⟨roomy_listImages ?_, ?_⟩, ⟨roomy_listImages ?_, trivial⟩,
      ⟨roomy_listImages ?_, trivial⟩, ⟨roomy_listImages ?_, trivial⟩,
      ⟨roomy_listImages ?_, trivial⟩, trivial⟩
    all_goals decide +kernel
  have same : (Playback.coupling fun file₁ file₂ => file₁.size = file₂.size).alike (lettered "a")
    (lettered "b") := ⟨fun _ => .ok rfl, rfl, rfl, rfl⟩
  exact ⟨regular, answers_agree _ {} same _ _ _ regular⟩

end Manager

end ImageGallery
