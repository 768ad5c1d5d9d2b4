import ImageGallery.Proofs.AlikeStores
import ImageGallery.Proofs.Run

/-!
# Managers of the same galleries

Two managers whose metadata stores hold the same galleries, and whose blob stores have the same
outcomes. Every operation answers alike and leaves the managers alike, up to the times their clocks
show and the names their blob stores make up.
-/

namespace ImageGallery

/-! ## Blob stores with the same outcomes -/

/-- The same key, or the keys of two files that are named for each other. -/
def KeysAlike (named : SavedBlob → SavedBlob → Prop) (key₁ key₂ : String) : Prop :=
  key₁ = key₂ ∨ ∃ file₁ file₂, named file₁ file₂ ∧ key₁ = file₁.storageKey ∧
    key₂ = file₂.storageKey

theorem ImagesAlike.keys {named : SavedBlob → SavedBlob → Prop} {options : GalleryOptions}
    {image₁ image₂ : ImageRecord} (alike : ImagesAlike named options image₁ image₂) :
    KeysAlike named image₁.storageKey image₂.storageKey := by
  cases alike.fields.labels with
  | same _ storageKey _ => exact .inl storageKey
  | saved pair _ storageKey₁ _ storageKey₂ => exact .inr ⟨_, _, pair, storageKey₁, storageKey₂⟩

/-- Two blob stores whose outcomes are the same, up to the names that they make up. -/
structure Coupling (β₁ β₂ : Type) [BlobStore β₁] [BlobStore β₂] where
  /-- From these states on the outcomes are the same. -/
  alike : β₁ → β₂ → Prop
  /-- The stores made up these names for one file. -/
  named : SavedBlob → SavedBlob → Prop
  save_alike {blobs₁ : β₁} {blobs₂ : β₂} (same : alike blobs₁ blobs₂) (scope parent : String)
    (index : Nat) (upload : Upload) :
    OutcomesAlike Eq named alike (BlobStore.save blobs₁ scope parent index upload)
      (BlobStore.save blobs₂ scope parent index upload)
  delete_alike {blobs₁ : β₁} {blobs₂ : β₂} (same : alike blobs₁ blobs₂) {key₁ key₂ : String}
    (keys : KeysAlike named key₁ key₂) :
    (BlobStore.delete blobs₁ key₁).1 = (BlobStore.delete blobs₂ key₂).1 ∧
      alike (BlobStore.delete blobs₁ key₁).2 (BlobStore.delete blobs₂ key₂).2

/-- A blob store that plays back the outcomes of saves and removals, whatever it is asked for. -/
structure Playback where
  saves : Nat → Except GalleryError SavedBlob
  removals : Nat → Bool
  saved : Nat := 0
  removed : Nat := 0

namespace Playback

instance : BlobStore Playback where
  save blobs _ _ _ _ := (blobs.saves blobs.saved, { blobs with saved := blobs.saved + 1 })
  delete blobs _ := (blobs.removals blobs.removed, { blobs with removed := blobs.removed + 1 })
  contains _ _ := false

/-- The same outcomes up to names, of which as many were played back. -/
structure Alike (named : SavedBlob → SavedBlob → Prop) (blobs₁ blobs₂ : Playback) : Prop where
  saves : ∀ index, ResultsAlike Eq named (blobs₁.saves index) (blobs₂.saves index)
  removals_eq : blobs₁.removals = blobs₂.removals
  saved_eq : blobs₁.saved = blobs₂.saved
  removed_eq : blobs₁.removed = blobs₂.removed

/-- The outcomes of any two runs can be played back, and are the same if they are related
one by one. -/
def coupling (named : SavedBlob → SavedBlob → Prop) : Coupling Playback Playback where
  alike := Alike named
  named := named
  save_alike {blobs₁ blobs₂} same _ _ _ _ := by
    have outcome := same.saves blobs₁.saved
    rw [show blobs₂.saves blobs₁.saved = blobs₂.saves blobs₂.saved by rw [same.saved_eq]] at outcome
    exact outcome.outcome
      ⟨same.saves, same.removals_eq, congrArg (· + 1) same.saved_eq, same.removed_eq⟩
  delete_alike {blobs₁ blobs₂} same _ _ _ := by
    refine ⟨?_, same.saves, same.removals_eq, same.saved_eq, congrArg (· + 1) same.removed_eq⟩
    change blobs₁.removals blobs₁.removed = blobs₂.removals blobs₂.removed
    rw [same.removals_eq, same.removed_eq]

end Playback

namespace Manager

variable {σ₁ σ₂ τ₁ τ₂ β₁ β₂ : Type} [StoreView σ₁ τ₁] [StoreView σ₂ τ₂] [Willing σ₁ τ₁]
  [Willing σ₂ τ₂] [ParentStore σ₁] [ParentStore σ₂] [BlobStore β₁] [BlobStore β₂]

/-! ## Managers alike -/

/-- Managers with the same limits, of stores with the same galleries and of blob stores with the
same outcomes. Their clocks and counters are of no account. -/
structure Alike (coupling : Coupling β₁ β₂) (options : GalleryOptions) (manager₁ : Manager σ₁ β₁)
    (manager₂ : Manager σ₂ β₂) : Prop where
  stores : StoresAlike coupling.named options manager₁.store manager₂.store
  blobs : coupling.alike manager₁.blobs manager₂.blobs
  options₁ : manager₁.options = options
  options₂ : manager₂.options = options

variable {coupling : Coupling β₁ β₂} {options : GalleryOptions} {manager₁ : Manager σ₁ β₁}
  {manager₂ : Manager σ₂ β₂}

namespace Alike

theorem tally (alike : Alike coupling options manager₁ manager₂) (counter₁ counter₂ : Counter)
    (amount₁ amount₂ : Nat) :
    Alike coupling options (manager₁.tally counter₁ amount₁) (manager₂.tally counter₂ amount₂) :=
  ⟨alike.stores, alike.blobs, alike.options₁, alike.options₂⟩

theorem record {α₁ α₂ : Type} {values : α₁ → α₂ → Prop}
    {outcome₁ : Except GalleryError α₁ × Manager σ₁ β₁}
    {outcome₂ : Except GalleryError α₂ × Manager σ₂ β₂} (operation : Operation)
    (alike : OutcomesAlike GalleryErrorsAlike values (Alike coupling options) outcome₁ outcome₂) :
    OutcomesAlike GalleryErrorsAlike values (Alike coupling options)
      (Manager.record operation outcome₁) (Manager.record operation outcome₂) := by
  cases alike with
  | ok same after => exact .ok same (after.tally _ _ 1 1)
  | error same after => exact .error same (after.tally _ _ 1 1)

theorem parent (alike : Alike coupling options manager₁ manager₂) (id : String) :
    ResultsAlike GalleryErrorsAlike ParentsAlike (manager₁.parent id) (manager₂.parent id) := by
  have found := Registry.find?_parentsAlike alike.stores.parents id
  unfold Manager.parent
  generalize (ParentStore.registry manager₁.store).find? id = found₁ at found ⊢
  generalize (ParentStore.registry manager₂.store).find? id = found₂ at found ⊢
  cases found with
  | none => exact .error (.same _)
  | some pair => exact .ok pair

end Alike

variable [GalleryTx τ₁] [GalleryTx τ₂] [TxView τ₁] [TxView τ₂] [GalleryStore σ₁ τ₁]
  [GalleryStore σ₂ τ₂] [PredictableStore σ₁ τ₁] [PredictableStore σ₂ τ₂]

theorem Alike.commitWith (alike : Alike coupling options manager₁ manager₂) {tx₁ : τ₁} {tx₂ : τ₂}
    (transactions : TransactionsAlike coupling.named options manager₁.store manager₂.store tx₁ tx₂)
    {α₁ α₂ : Type} {values : α₁ → α₂ → Prop} {value₁ : α₁} {value₂ : α₂}
    (same : values value₁ value₂) :
    OutcomesAlike GalleryErrorsAlike values (Alike coupling options)
      (manager₁.commitWith tx₁ value₁) (manager₂.commitWith tx₂ value₂) := by
  have committed := alike.stores.commit transactions
  unfold Manager.commitWith
  generalize GalleryStore.commit tx₁ manager₁.store = outcome₁ at committed ⊢
  generalize GalleryStore.commit tx₂ manager₂.store = outcome₂ at committed ⊢
  cases committed with
  | ok _ after => exact .ok same ⟨after, alike.blobs, alike.options₁, alike.options₂⟩
  | error error after =>
      exact .error (.store error) ⟨after, alike.blobs, alike.options₁, alike.options₂⟩

theorem Alike.list (alike : Alike coupling options manager₁ manager₂) (parentId : String) :
    ResultsAlike GalleryErrorsAlike (List.Forall₂ (ImagesAlike coupling.named options))
      (manager₁.list parentId) (manager₂.list parentId) := by
  have parents := alike.parent parentId
  unfold Manager.list
  generalize manager₁.parent parentId = result₁ at parents ⊢
  generalize manager₂.parent parentId = result₂ at parents ⊢
  cases parents with
  | error same => exact .error same
  | ok _ => exact .ok (alike.stores.listImages parentId)

theorem Alike.register (alike : Alike coupling options manager₁ manager₂)
    (parentId scope : String) :
    OutcomesAlike GalleryErrorsAlike ParentsAlike (Alike coupling options)
      (manager₁.register parentId scope) (manager₂.register parentId scope) := by
  unfold Manager.register
  rcases manager₁.clock.now with ⟨now₁, clock₁⟩
  rcases manager₂.clock.now with ⟨now₂, clock₂⟩
  have entered := alike.stores.register parentId scope now₁ now₂
  dsimp only
  generalize ParentStore.register manager₁.store parentId scope now₁ = outcome₁ at entered ⊢
  generalize ParentStore.register manager₂.store parentId scope now₂ = outcome₂ at entered ⊢
  cases entered with
  | ok parents after => exact .ok parents ⟨after, alike.blobs, alike.options₁, alike.options₂⟩
  | error same after => exact .error same ⟨after, alike.blobs, alike.options₁, alike.options₂⟩

variable [PredictableTx τ₁] [PredictableTx τ₂]

/-! ## Within a transaction -/

section Within

variable {named : SavedBlob → SavedBlob → Prop} {options : GalleryOptions} {store₁ : σ₁}
  {store₂ : σ₂} {tx₁ : τ₁} {tx₂ : τ₂}

/-- Both place the images, or neither has all of them. -/
theorem place_alike (alike : TransactionsAlike named options store₁ store₂ tx₁ tx₂)
    (plan : List (Int × UInt32)) :
    ResultsAlike GalleryErrorsAlike (TransactionsAlike named options store₁ store₂)
      (place tx₁ plan) (place tx₂ plan) := by
  induction plan generalizing tx₁ tx₂ with
  | nil => exact .ok alike
  | cons entry plan ih =>
      have moved := alike.setSortOrder entry.1 entry.2
      unfold place
      generalize GalleryTx.setSortOrder tx₁ entry.1 entry.2 = outcome₁ at moved ⊢
      generalize GalleryTx.setSortOrder tx₂ entry.1 entry.2 = outcome₂ at moved ⊢
      cases moved with
      | ok _ after => exact ih after
      | error same _ => exact .error (.store same)

theorem placePromoted_alike (alike : TransactionsAlike named options store₁ store₂ tx₁ tx₂)
    (plan : List (Int × UInt32)) (promoted : Option Int) :
    ResultsAlike GalleryErrorsAlike
      (fun taken₁ taken₂ => taken₁.1 = taken₂.1 ∧
        TransactionsAlike named options store₁ store₂ taken₁.2 taken₂.2)
      (place tx₁ plan >>= fun tx => .ok (promoted, tx))
      (place tx₂ plan >>= fun tx => .ok (promoted, tx)) := by
  have placed := place_alike alike plan
  generalize place tx₁ plan = result₁ at placed ⊢
  generalize place tx₂ plan = result₂ at placed ⊢
  cases placed with
  | ok after => exact .ok ⟨rfl, after⟩
  | error same => exact .error same

/-- Both take the image out, promote the same image and close the gap, or both fail to. -/
theorem takeOut_alike (alike : TransactionsAlike named options store₁ store₂ tx₁ tx₂)
    {target₁ target₂ : ImageRecord} (targets : ImagesAlike named options target₁ target₂) :
    ResultsAlike GalleryErrorsAlike
      (fun taken₁ taken₂ => taken₁.1 = taken₂.1 ∧
        TransactionsAlike named options store₁ store₂ taken₁.2 taken₂.2)
      (takeOut tx₁ target₁) (takeOut tx₂ target₂) := by
  have removed := alike.delete target₁.id
  have listed := removed.list
  have members : ∀ image ∈ GalleryTx.list (GalleryTx.delete tx₁ target₁.id),
      ∃ other ∈ (TxView.draft (GalleryTx.delete tx₁ target₁.id)).images, other.id = image.id := by
    intro image mem
    rw [LawfulTx.list_eq] at mem
    exact ⟨image, (arrange_perm _).mem_iff.mp mem, rfl⟩
  have plans : planRanks (GalleryTx.list (GalleryTx.delete tx₁ target₁.id))
        (fun image => image.sortOrder.toNat) =
      planRanks (GalleryTx.list (GalleryTx.delete tx₂ target₁.id))
        fun image => image.sortOrder.toNat :=
    planRanks_eq listed _ fun _ _ pair => by rw [pair.fields.sortOrder_eq]
  unfold takeOut
  rw [← targets.id_eq, ← targets.fields.isCover_eq]
  dsimp only
  rw [← plans]
  generalize planRanks _ _ = plan
  generalize GalleryTx.list (GalleryTx.delete tx₁ target₁.id) = images₁ at listed members ⊢
  generalize GalleryTx.list (GalleryTx.delete tx₂ target₁.id) = images₂ at listed ⊢
  cases target₁.isCover with
  | false => exact placePromoted_alike removed plan none
  | true =>
      cases listed with
      | nil => exact placePromoted_alike removed plan none
      | @cons first₁ first₂ others₁ others₂ pair _ =>
          have assigned := removed.assignExclusiveCover (members first₁ List.mem_cons_self)
          dsimp only
          rw [← pair.id_eq]
          generalize GalleryTx.assignExclusiveCover (GalleryTx.delete tx₁ target₁.id) first₁.id =
            outcome₁ at assigned ⊢
          generalize GalleryTx.assignExclusiveCover (GalleryTx.delete tx₂ target₁.id) first₁.id =
            outcome₂ at assigned ⊢
          cases assigned with
          | ok _ after => exact placePromoted_alike after plan (some first₁.id)
          | error same _ => exact .error (.store same)

end Within

/-! ## Uploading -/

/-- Batches whose transactions and blob stores are alike. -/
structure BatchesAlike (coupling : Coupling β₁ β₂) (options : GalleryOptions) (store₁ : σ₁)
    (store₂ : σ₂) (batch₁ : Batch τ₁ β₁) (batch₂ : Batch τ₂ β₂) : Prop where
  transactions : TransactionsAlike coupling.named options store₁ store₂ batch₁.tx batch₂.tx
  blobs : coupling.alike batch₁.blobs batch₂.blobs

theorem lift_alike {α₁ α₂ : Type} {values : α₁ → α₂ → Prop} {result₁ : Except StoreError α₁}
    {result₂ : Except StoreError α₂}
    (alike : ResultsAlike StoreErrorsAlike values result₁ result₂) :
    ResultsAlike GalleryErrorsAlike values (lift result₁) (lift result₂) := by
  cases alike with
  | ok same => exact .ok same
  | error same => exact .error (.store same)

/-- Both write the batch, or both stop at the same file. -/
theorem writeBatch_alike {store₁ : σ₁} {store₂ : σ₂} {parent₁ parent₂ : ParentRecord}
    (parents : ParentsAlike parent₁ parent₂) (order : UInt32) (index : Nat) {cover : Bool}
    {uploads : List Upload} {batch₁ : Batch τ₁ β₁} {batch₂ : Batch τ₂ β₂}
    (alike : BatchesAlike coupling options store₁ store₂ batch₁ batch₂)
    (single : cover = true → GalleryTx.hasCover batch₁.tx = false) :
    OutcomesAlike GalleryErrorsAlike (List.Forall₂ (ImagesAlike coupling.named options))
      (BatchesAlike coupling options store₁ store₂)
      (writeBatch options parent₁ order index cover uploads batch₁)
      (writeBatch options parent₂ order index cover uploads batch₂) := by
  induction uploads generalizing index cover batch₁ batch₂ with
  | nil => exact .ok .nil alike
  | cons upload uploads ih =>
      have saved := coupling.save_alike alike.blobs parent₁.scopeId parent₁.id index upload
      unfold writeBatch
      rw [← parents.scopeId_eq, ← parents.id_eq]
      generalize BlobStore.save batch₁.blobs parent₁.scopeId parent₁.id index upload =
        outcome₁ at saved ⊢
      generalize BlobStore.save batch₂.blobs parent₁.scopeId parent₁.id index upload =
        outcome₂ at saved ⊢
      cases saved with
      | error same blobs =>
          cases same
          exact .error (.same _) ⟨alike.transactions, blobs⟩
      | @ok file₁ file₂ blobs₁ blobs₂ pair blobs =>
          rcases batch₁ with ⟨tx₁, before₁, clock₁⟩
          rcases batch₂ with ⟨tx₂, before₂, clock₂⟩
          rcases clock₁.now with ⟨now₁, later₁⟩
          rcases clock₂.now with ⟨now₂, later₂⟩
          have fields : NewImagesAlike coupling.named options
              ⟨options.imageUrl parent₁.id file₁.filename, file₁.storageKey, cover,
                order + index.toUInt32, now₁⟩
              ⟨options.imageUrl parent₁.id file₂.filename, file₂.storageKey, cover,
                order + index.toUInt32, now₂⟩ :=
            ⟨rfl, rfl, .saved pair rfl rfl rfl rfl⟩
          have inserted := alike.transactions.insert fields single
          dsimp only at inserted ⊢
          generalize GalleryTx.insert tx₁ _ = outcome₁ at inserted ⊢
          generalize GalleryTx.insert tx₂ _ = outcome₂ at inserted ⊢
          cases inserted with
          | error same after => exact .error (.store same) ⟨after, blobs⟩
          | @ok record₁ record₂ next₁ next₂ record after =>
              have batches : BatchesAlike coupling options store₁ store₂
                  ⟨next₁, blobs₁, later₁⟩ ⟨next₂, blobs₂, later₂⟩ := ⟨after, blobs⟩
              have uncovering : false = true → GalleryTx.hasCover next₁ = false := by simp
              have written := ih (index + 1) batches uncovering
              dsimp only
              generalize writeBatch options parent₁ order (index + 1) false uploads
                ⟨next₁, blobs₁, later₁⟩ = outcome₁ at written ⊢
              generalize writeBatch options parent₂ order (index + 1) false uploads
                ⟨next₂, blobs₂, later₂⟩ = outcome₂ at written ⊢
              cases written with
              | ok records batches => exact .ok (.cons record records) batches
              | error same batches => exact .error same batches

namespace Alike

/-- Files are appended alike, given that there is room for one more position. -/
theorem append (alike : Alike coupling options manager₁ manager₂) {parent₁ parent₂ : ParentRecord}
    (parents : ParentsAlike parent₁ parent₂) {tx₁ : τ₁} {tx₂ : τ₂}
    (transactions : TransactionsAlike coupling.named options manager₁.store manager₂.store tx₁ tx₂)
    (roomy : Roomy (TxView.draft tx₁).images) (uploads : List Upload) :
    OutcomesAlike GalleryErrorsAlike (List.Forall₂ (ImagesAlike coupling.named options))
      (Alike coupling options) (manager₁.append parent₁ tx₁ uploads)
      (manager₂.append parent₂ tx₂ uploads) := by
  unfold Manager.append
  cases checkMedia uploads with
  | error error => exact .error (.same error) alike
  | ok _ =>
      obtain ⟨order, answered₁, answered₂⟩ := transactions.nextOrder roomy
      have written : OutcomesAlike GalleryErrorsAlike
          (List.Forall₂ (ImagesAlike coupling.named options))
          (BatchesAlike coupling options manager₁.store manager₂.store)
          (writeBatch manager₁.options parent₁ order 0 (!GalleryTx.hasCover tx₁) uploads
            ⟨tx₁, manager₁.blobs, manager₁.clock⟩)
          (writeBatch manager₂.options parent₂ order 0 (!GalleryTx.hasCover tx₁) uploads
            ⟨tx₂, manager₂.blobs, manager₂.clock⟩) := by
        rw [alike.options₁, alike.options₂]
        exact writeBatch_alike parents order 0 ⟨transactions, alike.blobs⟩ fun cover => by
          simpa using cover
      rw [answered₁, answered₂, ← transactions.hasCover_eq]
      dsimp only [lift, Except.mapError]
      generalize writeBatch manager₁.options parent₁ order 0 (!GalleryTx.hasCover tx₁) uploads
        ⟨tx₁, manager₁.blobs, manager₁.clock⟩ = outcome₁ at written ⊢
      generalize writeBatch manager₂.options parent₂ order 0 (!GalleryTx.hasCover tx₁) uploads
        ⟨tx₂, manager₂.blobs, manager₂.clock⟩ = outcome₂ at written ⊢
      cases written with
      | error same batches =>
          exact .error same ⟨alike.stores, batches.blobs, alike.options₁, alike.options₂⟩
      | @ok records₁ records₂ batch₁ batch₂ records batches =>
          have saved : Alike coupling options
              { manager₁ with blobs := batch₁.blobs, clock := batch₁.clock }
              { manager₂ with blobs := batch₂.blobs, clock := batch₂.clock } :=
            ⟨alike.stores, batches.blobs, alike.options₁, alike.options₂⟩
          have committed := saved.commitWith batches.transactions records
          dsimp only
          generalize Manager.commitWith
            { manager₁ with blobs := batch₁.blobs, clock := batch₁.clock } batch₁.tx records₁ =
            outcome₁ at committed ⊢
          generalize Manager.commitWith
            { manager₂ with blobs := batch₂.blobs, clock := batch₂.clock } batch₂.tx records₂ =
            outcome₂ at committed ⊢
          cases committed with
          | ok records after => exact .ok records (after.tally _ _ _ _)
          | error same after => exact .error same after

theorem receive (alike : Alike coupling options manager₁ manager₂) (parentId : String)
    (roomy : Roomy (StoreView.images manager₁.store parentId)) (uploads : List Upload) :
    OutcomesAlike GalleryErrorsAlike (List.Forall₂ (ImagesAlike coupling.named options))
      (Alike coupling options) (manager₁.receive parentId uploads)
      (manager₂.receive parentId uploads) := by
  have parents := alike.parent parentId
  have transactions := alike.stores.start parentId
  have counts := lift_alike transactions.count
  have staged : Roomy (TxView.draft (GalleryStore.start manager₁.store parentId)).images := by
    rw [LawfulStore.draft_start]
    exact roomy
  unfold Manager.receive
  rw [alike.options₁, alike.options₂]
  generalize manager₁.parent parentId = result₁ at parents ⊢
  generalize manager₂.parent parentId = result₂ at parents ⊢
  cases parents with
  | error same => exact .error same alike
  | ok parents =>
      dsimp only
      split
      · exact .error (.same _) alike
      split
      · exact .error (.same _) alike
      generalize lift (GalleryTx.count (GalleryStore.start manager₁.store parentId)) = count₁
        at counts ⊢
      generalize lift (GalleryTx.count (GalleryStore.start manager₂.store parentId)) = count₂
        at counts ⊢
      cases counts with
      | error same => exact .error same alike
      | ok same =>
          cases same
          dsimp only
          split
          · exact .error (.same _) alike
          split
          · exact (alike.tally _ _ _ _).append parents transactions staged _
          · exact alike.append parents transactions staged uploads

theorem upload (alike : Alike coupling options manager₁ manager₂) (parentId : String)
    (roomy : Roomy (StoreView.images manager₁.store parentId)) (uploads : List Upload) :
    OutcomesAlike GalleryErrorsAlike (List.Forall₂ (ImagesAlike coupling.named options))
      (Alike coupling options) (manager₁.upload parentId uploads)
      (manager₂.upload parentId uploads) :=
  record .upload (alike.receive parentId roomy uploads)

/-! ## Deleting, choosing the cover, reordering -/

theorem withdraw (alike : Alike coupling options manager₁ manager₂) (parentId : String)
    (id : Int) :
    OutcomesAlike GalleryErrorsAlike Eq (Alike coupling options)
      (manager₁.withdraw parentId id) (manager₂.withdraw parentId id) := by
  have transactions := alike.stores.start parentId
  have found := transactions.get? id
  unfold Manager.withdraw
  dsimp only
  generalize GalleryTx.get? (GalleryStore.start manager₁.store parentId) id = found₁ at found ⊢
  generalize GalleryTx.get? (GalleryStore.start manager₂.store parentId) id = found₂ at found ⊢
  cases found with
  | none => exact .error (.same _) alike
  | @some target₁ target₂ targets =>
      have taken := takeOut_alike transactions targets
      dsimp only
      generalize takeOut (GalleryStore.start manager₁.store parentId) target₁ = taken₁ at taken ⊢
      generalize takeOut (GalleryStore.start manager₂.store parentId) target₂ = taken₂ at taken ⊢
      cases taken with
      | error same => exact .error same alike
      | @ok taken₁ taken₂ pair =>
          obtain ⟨promoted₁, tx₁⟩ := taken₁
          obtain ⟨promoted₂, tx₂⟩ := taken₂
          obtain ⟨promoted, after⟩ := pair
          have committed : OutcomesAlike GalleryErrorsAlike Eq (Alike coupling options)
            (manager₁.commitWith tx₁ ()) (manager₂.commitWith tx₂ ()) := alike.commitWith after rfl
          dsimp only at promoted committed ⊢
          generalize manager₁.commitWith tx₁ () = outcome₁ at committed ⊢
          generalize manager₂.commitWith tx₂ () = outcome₂ at committed ⊢
          cases committed with
          | error same after => exact .error same after
          | @ok _ _ after₁ after₂ _ after =>
              obtain ⟨same, blobs⟩ := coupling.delete_alike after.blobs targets.keys
              have left : Alike coupling options
                  { after₁ with blobs := (BlobStore.delete after₁.blobs target₁.storageKey).2 }
                  { after₂ with blobs := (BlobStore.delete after₂.blobs target₂.storageKey).2 } :=
                ⟨after.stores, blobs, after.options₁, after.options₂⟩
              dsimp only
              rw [promoted, same]
              refine .ok rfl ?_
              split
              · exact left
              · exact left.tally _ _ _ _

theorem delete (alike : Alike coupling options manager₁ manager₂) (parentId : String) (id : Int) :
    OutcomesAlike GalleryErrorsAlike Eq (Alike coupling options)
      (manager₁.delete parentId id) (manager₂.delete parentId id) :=
  record .delete (alike.withdraw parentId id)

theorem flag (alike : Alike coupling options manager₁ manager₂) (parentId : String) (id : Int) :
    OutcomesAlike GalleryErrorsAlike (ImagesAlike coupling.named options)
      (Alike coupling options) (manager₁.flag parentId id) (manager₂.flag parentId id) := by
  have transactions := alike.stores.start parentId
  have found := transactions.get? id
  have member : GalleryTx.get? (GalleryStore.start manager₁.store parentId) id ≠ none →
    ∃ image ∈ (TxView.draft (GalleryStore.start manager₁.store parentId)).images, image.id = id :=
    member_of_get?
  unfold Manager.flag
  dsimp only
  generalize GalleryTx.get? (GalleryStore.start manager₁.store parentId) id = found₁
    at found member ⊢
  generalize GalleryTx.get? (GalleryStore.start manager₂.store parentId) id = found₂ at found ⊢
  cases found with
  | none => exact .error (.same _) alike
  | some pair =>
      have assigned := transactions.assignExclusiveCover (member (Option.some_ne_none _))
      dsimp only
      generalize GalleryTx.assignExclusiveCover (GalleryStore.start manager₁.store parentId) id =
        outcome₁ at assigned ⊢
      generalize GalleryTx.assignExclusiveCover (GalleryStore.start manager₂.store parentId) id =
        outcome₂ at assigned ⊢
      cases assigned with
      | error same _ => exact .error (.store same) alike
      | @ok _ _ tx₁ tx₂ _ after =>
          have found := after.get? id
          dsimp only
          generalize GalleryTx.get? tx₁ id = found₁ at found ⊢
          generalize GalleryTx.get? tx₂ id = found₂ at found ⊢
          cases found with
          | none => exact .error (.same _) alike
          | some pair => exact alike.commitWith after pair

theorem setCover (alike : Alike coupling options manager₁ manager₂) (parentId : String)
    (id : Int) :
    OutcomesAlike GalleryErrorsAlike (ImagesAlike coupling.named options)
      (Alike coupling options) (manager₁.setCover parentId id) (manager₂.setCover parentId id) :=
  record .setCover (alike.flag parentId id)

theorem rearrange (alike : Alike coupling options manager₁ manager₂) (parentId : String)
    (items : List ReorderItem) :
    OutcomesAlike GalleryErrorsAlike Eq (Alike coupling options)
      (manager₁.rearrange parentId items) (manager₂.rearrange parentId items) := by
  unfold Manager.rearrange
  cases Positions.ofItems items with
  | error error => exact .error (.same error) alike
  | ok positions =>
      have transactions := alike.stores.start parentId
      have listed := transactions.list
      have plans := planRanks_eq listed
        (fun image => (positions.find? image.id).getD image.sortOrder.toNat)
        fun _ _ pair => by rw [pair.id_eq, pair.fields.sortOrder_eq]
      dsimp only
      rw [← plans, ← listed.length_eq]
      generalize planRanks _ _ = plan
      have placed := place_alike transactions plan
      generalize place (GalleryStore.start manager₁.store parentId) plan = placed₁ at placed ⊢
      generalize place (GalleryStore.start manager₂.store parentId) plan = placed₂ at placed ⊢
      cases placed with
      | error same => exact .error same alike
      | ok after => exact alike.commitWith after rfl

theorem reorder (alike : Alike coupling options manager₁ manager₂) (parentId : String)
    (items : List ReorderItem) :
    OutcomesAlike GalleryErrorsAlike Eq (Alike coupling options)
      (manager₁.reorder parentId items) (manager₂.reorder parentId items) :=
  record .reorder (alike.rearrange parentId items)

end Alike

/-! ## Any operation -/

/-- Answers of operations that agree up to names and times. -/
inductive AnswersAlike (named : SavedBlob → SavedBlob → Prop) (options : GalleryOptions) :
    Answer → Answer → Prop where
  | registered {record₁ record₂ : ParentRecord} (alike : ParentsAlike record₁ record₂) :
      AnswersAlike named options (.registered record₁) (.registered record₂)
  | stored {records₁ records₂ : List ImageRecord}
      (alike : List.Forall₂ (ImagesAlike named options) records₁ records₂) :
      AnswersAlike named options (.stored records₁) (.stored records₂)
  | deleted (outcome : DeleteOutcome) :
      AnswersAlike named options (.deleted outcome) (.deleted outcome)
  | covered {image₁ image₂ : ImageRecord} (alike : ImagesAlike named options image₁ image₂) :
      AnswersAlike named options (.covered image₁) (.covered image₂)
  | ranked (count : Nat) : AnswersAlike named options (.ranked count) (.ranked count)
  | listed {images₁ images₂ : List ImageRecord}
      (alike : List.Forall₂ (ImagesAlike named options) images₁ images₂) :
      AnswersAlike named options (.listed images₁) (.listed images₂)

/-- Every operation answers alike, given that there is room for one more position. -/
theorem Alike.perform (alike : Alike coupling options manager₁ manager₂)
    (roomy : ∀ parent, Roomy (StoreView.images manager₁.store parent)) (call : Call) :
    OutcomesAlike GalleryErrorsAlike (AnswersAlike coupling.named options)
      (Alike coupling options) (manager₁.perform call) (manager₂.perform call) := by
  cases call with
  | register parent scope =>
      exact (alike.register parent scope).map fun _ _ pair => .registered pair
  | upload parent uploads =>
      exact (alike.upload parent (roomy parent) uploads).map fun _ _ records => .stored records
  | delete parent id =>
      refine (alike.delete parent id).map fun _ _ same => ?_
      cases same
      exact .deleted _
  | setCover parent id => exact (alike.setCover parent id).map fun _ _ pair => .covered pair
  | reorder parent items =>
      refine (alike.reorder parent items).map fun _ _ same => ?_
      cases same
      exact .ranked _
  | list parent =>
      exact ((alike.list parent).map fun _ _ images => .listed images).outcome alike

end Manager

end ImageGallery
