import ImageGallery.Proofs.Alike
import ImageGallery.Proofs.TransactionCalls

/-!
# Stores that hold the same galleries

Two willing stores whose galleries agree up to names and times, and transactions on them that work
on the same draft. Each call answers alike and leaves the transactions alike, commits do the same
for the stores, and so do calls one after the other.
-/

namespace ImageGallery

/-! ## One transaction -/

/-- What a transaction finds is in its gallery. -/
theorem member_of_get? {τ : Type} [GalleryTx τ] [TxView τ] [LawfulTx τ] {tx : τ} {id : Int}
    (found : GalleryTx.get? tx id ≠ none) :
    ∃ image ∈ (TxView.draft tx).images, image.id = id := by
  rw [LawfulTx.get?_eq, ne_eq, List.find?_eq_none] at found
  simpa using found

/-- A transaction that was started on a willing store, whatever was called since. -/
structure Underway {σ τ : Type} [StoreView σ τ] [Willing σ τ] (store : σ) (tx : τ) : Prop where
  opened : StoreView.Open store tx
  willing : WillingTx σ tx

namespace Underway

variable {σ τ : Type} [GalleryTx τ] [TxView τ] [GalleryStore σ τ] [ParentStore σ] [StoreView σ τ]
  [Willing σ τ] [PredictableStore σ τ] {store : σ} {tx : τ}

theorem start (parent : String) (willing : WillingStore store) :
    Underway store (GalleryStore.start store parent) :=
  ⟨LawfulStore.open_start store parent, PredictableStore.willing_start parent willing⟩

theorem insert (underway : Underway store tx) (image : NewImage) :
    Underway store (GalleryTx.insert tx image).2 :=
  ⟨LawfulStore.open_insert image underway.opened,
    PredictableStore.willing_insert image underway.willing⟩

theorem setSortOrder (underway : Underway store tx) (id : Int) (order : UInt32) :
    Underway store (GalleryTx.setSortOrder tx id order).2 :=
  ⟨LawfulStore.open_setSortOrder id order underway.opened,
    PredictableStore.willing_setSortOrder id order underway.willing⟩

theorem assignExclusiveCover (underway : Underway store tx) (id : Int) :
    Underway store (GalleryTx.assignExclusiveCover tx id).2 :=
  ⟨LawfulStore.open_assignExclusiveCover id underway.opened,
    PredictableStore.willing_assignExclusiveCover id underway.willing⟩

theorem delete (underway : Underway store tx) (id : Int) :
    Underway store (GalleryTx.delete tx id) :=
  ⟨LawfulStore.open_delete id underway.opened,
    PredictableStore.willing_delete id underway.willing⟩

end Underway

/-! ## Room for one more position -/

/-- No image stands at the last position, so there is one after each. -/
def Roomy (images : List ImageRecord) : Prop :=
  ∀ image ∈ images, image.sortOrder ≠ 4294967295

namespace Roomy

theorem small {images : List ImageRecord} (roomy : Roomy images) :
    ∀ image ∈ images, image.sortOrder.toNat + 1 < UInt32.size := by
  intro image mem
  have differ : image.sortOrder.toNat ≠ 4294967295 := fun same =>
    roomy image mem (UInt32.toNat_inj.mp same)
  have bound := image.sortOrder.toNat_lt
  change image.sortOrder.toNat + 1 < 4294967296
  omega

variable {draft : Draft}

theorem insert (roomy : Roomy draft.images) {image : NewImage}
    (small : image.sortOrder ≠ 4294967295) : Roomy (draft.insert image).images := by
  intro record mem
  rcases List.mem_append.mp mem with mem | mem
  · exact roomy record mem
  · rw [List.mem_singleton.mp mem]
    exact small

theorem move (roomy : Roomy draft.images) (id : Int) {order : UInt32}
    (small : order ≠ 4294967295) : Roomy (draft.move id order).images := by
  intro record moved
  obtain ⟨image, mem, rfl⟩ := List.mem_map.mp moved
  split
  · exact small
  · exact roomy image mem

theorem cover (roomy : Roomy draft.images) (id : Int) : Roomy (draft.cover id).images := by
  intro record covered
  obtain ⟨image, mem, rfl⟩ := List.mem_map.mp covered
  exact roomy image mem

theorem remove (roomy : Roomy draft.images) (id : Int) : Roomy (draft.remove id).images :=
  fun record mem => roomy record (List.mem_of_mem_filter mem)

end Roomy

variable {named : SavedBlob → SavedBlob → Prop} {options : GalleryOptions}

theorem roomy_iff {images₁ images₂ : List ImageRecord}
    (alike : List.Forall₂ (ImagesAlike named options) images₁ images₂) :
    Roomy images₁ ↔ Roomy images₂ := by
  have read : ∀ images, Roomy images ↔ ∀ order ∈ images.map (·.sortOrder), order ≠ 4294967295 :=
    fun images => by simp [Roomy]
  rw [read, read, map_sortOrder_eq alike]

/-! ## Transactions alike -/

variable {σ₁ σ₂ τ₁ τ₂ : Type} [TxView τ₁] [TxView τ₂] [StoreView σ₁ τ₁] [StoreView σ₂ τ₂]
  [Willing σ₁ τ₁] [Willing σ₂ τ₂]

/-- Transactions on two stores that work on the same draft, up to names and times. -/
structure TransactionsAlike (named : SavedBlob → SavedBlob → Prop) (options : GalleryOptions)
    (store₁ : σ₁) (store₂ : σ₂) (tx₁ : τ₁) (tx₂ : τ₂) : Prop where
  drafts : DraftsAlike named options (TxView.draft tx₁) (TxView.draft tx₂)
  underway₁ : Underway store₁ tx₁
  underway₂ : Underway store₂ tx₂

namespace TransactionsAlike

variable [GalleryTx τ₁] [GalleryTx τ₂] [PredictableTx τ₁] [PredictableTx τ₂] {store₁ : σ₁}
  {store₂ : σ₂} {tx₁ : τ₁} {tx₂ : τ₂}

theorem list (alike : TransactionsAlike named options store₁ store₂ tx₁ tx₂) :
    List.Forall₂ (ImagesAlike named options) (GalleryTx.list tx₁) (GalleryTx.list tx₂) := by
  rw [LawfulTx.list_eq, LawfulTx.list_eq]
  exact arrange_alike alike.drafts.images

theorem hasCover_eq (alike : TransactionsAlike named options store₁ store₂ tx₁ tx₂) :
    GalleryTx.hasCover tx₁ = GalleryTx.hasCover tx₂ := by
  rw [LawfulTx.hasCover_eq, LawfulTx.hasCover_eq]
  exact any_isCover_eq alike.drafts.images

theorem get? (alike : TransactionsAlike named options store₁ store₂ tx₁ tx₂) (id : Int) :
    Option.Rel (ImagesAlike named options) (GalleryTx.get? tx₁ id) (GalleryTx.get? tx₂ id) := by
  rw [LawfulTx.get?_eq, LawfulTx.get?_eq]
  exact find?_alike alike.drafts.images fun image₁ image₂ pair => by rw [pair.id_eq]

/-- Both count the images, or both find that there are too many for 32 bits. -/
theorem count (alike : TransactionsAlike named options store₁ store₂ tx₁ tx₂) :
    ResultsAlike StoreErrorsAlike Eq (GalleryTx.count tx₁) (GalleryTx.count tx₂) := by
  have lengths := alike.drafts.images.length_eq
  rcases Nat.lt_or_ge (TxView.draft tx₁).images.length UInt32.size with small | large
  · obtain ⟨count₁, counted₁⟩ := PredictableTx.exists_count small
    obtain ⟨count₂, counted₂⟩ := PredictableTx.exists_count (lengths ▸ small)
    rw [counted₁, counted₂]
    refine .ok (UInt32.toNat_inj.mp ?_)
    rw [LawfulTx.count_of_ok counted₁, LawfulTx.count_of_ok counted₂, lengths]
  · obtain ⟨error₁, counted₁, overflow₁⟩ := PredictableTx.count_of_large large
    obtain ⟨error₂, counted₂, overflow₂⟩ := PredictableTx.count_of_large (lengths ▸ large)
    rw [counted₁, counted₂]
    exact .error (.inr ⟨_, overflow₁, lengths ▸ overflow₂⟩)

theorem nextOrder (alike : TransactionsAlike named options store₁ store₂ tx₁ tx₂)
    (roomy : Roomy (TxView.draft tx₁).images) :
    ∃ order, GalleryTx.nextOrder tx₁ = .ok order ∧ GalleryTx.nextOrder tx₂ = .ok order := by
  have small₁ := roomy.small
  have small₂ := ((roomy_iff alike.drafts.images).mp roomy).small
  obtain ⟨order₁, answered₁⟩ := PredictableTx.exists_nextOrder small₁
  obtain ⟨order₂, answered₂⟩ := PredictableTx.exists_nextOrder small₂
  have same : order₁ = order₂ := by
    apply UInt32.toNat_inj.mp
    rw [LawfulTx.nextOrder_of_ok answered₁ small₁, LawfulTx.nextOrder_of_ok answered₂ small₂,
      alike.drafts.nextOrder_eq]
  exact ⟨order₁, answered₁, same ▸ answered₂⟩

variable [GalleryStore σ₁ τ₁] [GalleryStore σ₂ τ₂] [ParentStore σ₁] [ParentStore σ₂]
  [PredictableStore σ₁ τ₁] [PredictableStore σ₂ τ₂]

theorem insert (alike : TransactionsAlike named options store₁ store₂ tx₁ tx₂)
    {image₁ image₂ : NewImage}
    (fields : NewImagesAlike named options image₁ image₂)
    (single : image₁.isCover = true → GalleryTx.hasCover tx₁ = false) :
    OutcomesAlike StoreErrorsAlike (ImagesAlike named options)
      (TransactionsAlike named options store₁ store₂)
      (GalleryTx.insert tx₁ image₁) (GalleryTx.insert tx₂ image₂) := by
  have single₂ : image₂.isCover = true → GalleryTx.hasCover tx₂ = false := by
    rw [← fields.isCover_eq, ← alike.hasCover_eq]
    exact single
  obtain ⟨record₁, next₁, inserted₁⟩ := PredictableTx.exists_insert single
  obtain ⟨record₂, next₂, inserted₂⟩ := PredictableTx.exists_insert single₂
  obtain ⟨rfl, draft₁⟩ := LawfulTx.insert_of_ok inserted₁
  obtain ⟨rfl, draft₂⟩ := LawfulTx.insert_of_ok inserted₂
  have underway₁ := alike.underway₁.insert image₁
  have underway₂ := alike.underway₂.insert image₂
  rw [inserted₁] at underway₁ ⊢
  rw [inserted₂] at underway₂ ⊢
  exact .ok (alike.drafts.recordOf fields)
    ⟨draft₁ ▸ draft₂ ▸ alike.drafts.insert fields, underway₁, underway₂⟩

/-- Both place the image, or neither has it. -/
theorem setSortOrder (alike : TransactionsAlike named options store₁ store₂ tx₁ tx₂) (id : Int)
    (order : UInt32) :
    OutcomesAlike StoreErrorsAlike Eq (TransactionsAlike named options store₁ store₂)
      (GalleryTx.setSortOrder tx₁ id order) (GalleryTx.setSortOrder tx₂ id order) := by
  have members := exists_id_iff alike.drafts.images id
  by_cases member : ∃ image ∈ (TxView.draft tx₁).images, image.id = id
  · obtain ⟨next₁, moved₁⟩ := PredictableTx.exists_setSortOrder order member
    obtain ⟨next₂, moved₂⟩ := PredictableTx.exists_setSortOrder order (members.mp member)
    have underway₁ := alike.underway₁.setSortOrder id order
    have underway₂ := alike.underway₂.setSortOrder id order
    have drafts := alike.drafts.move id order
    rw [← LawfulTx.setSortOrder_of_ok moved₁, ← LawfulTx.setSortOrder_of_ok moved₂] at drafts
    rw [moved₁] at underway₁ ⊢
    rw [moved₂] at underway₂ ⊢
    exact .ok rfl ⟨drafts, underway₁, underway₂⟩
  · rw [PredictableTx.setSortOrder_of_foreign order member,
      PredictableTx.setSortOrder_of_foreign order fun other => member (members.mpr other),
      alike.drafts.parent_eq]
    exact .error (.inl rfl) alike

theorem assignExclusiveCover (alike : TransactionsAlike named options store₁ store₂ tx₁ tx₂)
    {id : Int} (member : ∃ image ∈ (TxView.draft tx₁).images, image.id = id) :
    OutcomesAlike StoreErrorsAlike Eq (TransactionsAlike named options store₁ store₂)
      (GalleryTx.assignExclusiveCover tx₁ id) (GalleryTx.assignExclusiveCover tx₂ id) := by
  have members := exists_id_iff alike.drafts.images id
  obtain ⟨next₁, assigned₁⟩ := PredictableTx.exists_assignExclusiveCover member
  obtain ⟨next₂, assigned₂⟩ := PredictableTx.exists_assignExclusiveCover (members.mp member)
  have underway₁ := alike.underway₁.assignExclusiveCover id
  have underway₂ := alike.underway₂.assignExclusiveCover id
  have drafts := alike.drafts.cover id
  rw [← LawfulTx.assignExclusiveCover_of_ok assigned₁,
    ← LawfulTx.assignExclusiveCover_of_ok assigned₂] at drafts
  rw [assigned₁] at underway₁ ⊢
  rw [assigned₂] at underway₂ ⊢
  exact .ok rfl ⟨drafts, underway₁, underway₂⟩

theorem delete (alike : TransactionsAlike named options store₁ store₂ tx₁ tx₂) (id : Int) :
    TransactionsAlike named options store₁ store₂ (GalleryTx.delete tx₁ id)
      (GalleryTx.delete tx₂ id) where
  drafts := by
    rw [LawfulTx.draft_delete, LawfulTx.draft_delete]
    exact alike.drafts.remove id
  underway₁ := alike.underway₁.delete id
  underway₂ := alike.underway₂.delete id

end TransactionsAlike

/-! ## Calls by the owner of a transaction -/

/-- Answers of transactions that agree up to names and times. -/
inductive GalleryAnswersAlike (named : SavedBlob → SavedBlob → Prop) (options : GalleryOptions) :
    GalleryAnswer → GalleryAnswer → Prop where
  | number (value : UInt32) : GalleryAnswersAlike named options (.number value) (.number value)
  | flag (value : Bool) : GalleryAnswersAlike named options (.flag value) (.flag value)
  | images {images₁ images₂ : List ImageRecord}
      (alike : List.Forall₂ (ImagesAlike named options) images₁ images₂) :
      GalleryAnswersAlike named options (.images images₁) (.images images₂)
  | found {image₁ image₂ : Option ImageRecord}
      (alike : Option.Rel (ImagesAlike named options) image₁ image₂) :
      GalleryAnswersAlike named options (.found image₁) (.found image₂)
  | inserted {image₁ image₂ : ImageRecord} (alike : ImagesAlike named options image₁ image₂) :
      GalleryAnswersAlike named options (.inserted image₁) (.inserted image₂)
  | done : GalleryAnswersAlike named options .done .done

namespace GalleryCall

section Run

variable {τ : Type} [GalleryTx τ]

/-- The answers to some calls one after the other, and the transaction after them. -/
def answerAll (tx : τ) : List GalleryCall → List (Except StoreError GalleryAnswer) × τ
  | [] => ([], tx)
  | call :: calls =>
    let (answer, tx) := call.run tx
    let (answers, tx) := answerAll tx calls
    (answer :: answers, tx)

/-- The call does not write the last position, insert a second cover, or assign the cover to an
image that is not there. -/
def Regular (tx : τ) : GalleryCall → Prop
  | insert image =>
    image.sortOrder ≠ 4294967295 ∧ (image.isCover = true → GalleryTx.hasCover tx = false)
  | setSortOrder _ order => order ≠ 4294967295
  | assignExclusiveCover id => GalleryTx.get? tx id ≠ none
  | _ => True

/-- Each of some calls is regular when its turn comes. -/
def AllRegular (tx : τ) : List GalleryCall → Prop
  | [] => True
  | call :: calls => call.Regular tx ∧ AllRegular (call.run tx).2 calls

instance decidableRegular (tx : τ) : (call : GalleryCall) → Decidable (call.Regular tx)
  | insert image =>
    inferInstanceAs (Decidable (image.sortOrder ≠ 4294967295 ∧
      (image.isCover = true → GalleryTx.hasCover tx = false)))
  | setSortOrder _ order => inferInstanceAs (Decidable (order ≠ 4294967295))
  | assignExclusiveCover id => inferInstanceAs (Decidable (GalleryTx.get? tx id ≠ none))
  | count | nextOrder | hasCover | list | get _ | delete _ => inferInstanceAs (Decidable True)

instance decidableAllRegular (tx : τ) : (calls : List GalleryCall) → Decidable (AllRegular tx calls)
  | [] => inferInstanceAs (Decidable True)
  | call :: calls =>
    have : Decidable (AllRegular (call.run tx).2 calls) := decidableAllRegular _ calls
    inferInstanceAs (Decidable (call.Regular tx ∧ AllRegular (call.run tx).2 calls))

end Run

/-- Regular calls keep to positions that there is one after. -/
theorem roomy_run {τ : Type} [GalleryTx τ] [TxView τ] [PredictableTx τ] {tx : τ}
    {call : GalleryCall} (roomy : Roomy (TxView.draft tx).images) (regular : call.Regular tx) :
    Roomy (TxView.draft (call.run tx).2).images := by
  cases call with
  | count | nextOrder | hasCover | list | get => exact roomy
  | insert image =>
      obtain ⟨record, next, inserted⟩ := PredictableTx.exists_insert regular.2
      rw [run, inserted, (LawfulTx.insert_of_ok inserted).2]
      exact roomy.insert regular.1
  | setSortOrder id order =>
      by_cases member : ∃ image ∈ (TxView.draft tx).images, image.id = id
      · obtain ⟨next, moved⟩ := PredictableTx.exists_setSortOrder order member
        rw [run, moved, LawfulTx.setSortOrder_of_ok moved]
        exact roomy.move id regular
      · rw [run, PredictableTx.setSortOrder_of_foreign order member]
        exact roomy
  | assignExclusiveCover id =>
      obtain ⟨next, assigned⟩ :=
        PredictableTx.exists_assignExclusiveCover (member_of_get? regular)
      rw [run, assigned, LawfulTx.assignExclusiveCover_of_ok assigned]
      exact roomy.cover id
  | delete id =>
      rw [run, LawfulTx.draft_delete]
      exact roomy.remove id

variable [GalleryTx τ₁] [GalleryTx τ₂] [PredictableTx τ₁] [PredictableTx τ₂] [GalleryStore σ₁ τ₁]
  [GalleryStore σ₂ τ₂] [ParentStore σ₁] [ParentStore σ₂] [PredictableStore σ₁ τ₁]
  [PredictableStore σ₂ τ₂] {store₁ : σ₁} {store₂ : σ₂} {tx₁ : τ₁} {tx₂ : τ₂}

/-- A regular call answers alike. -/
theorem run_alike {call : GalleryCall}
    (alike : TransactionsAlike named options store₁ store₂ tx₁ tx₂)
    (roomy : Roomy (TxView.draft tx₁).images) (regular : call.Regular tx₁) :
    OutcomesAlike StoreErrorsAlike (GalleryAnswersAlike named options)
      (TransactionsAlike named options store₁ store₂) (call.run tx₁) (call.run tx₂) := by
  cases call with
  | count =>
      refine (alike.count.map fun value _ same => ?_).outcome alike
      rw [same]
      exact .number _
  | nextOrder =>
      obtain ⟨order, answered₁, answered₂⟩ := alike.nextOrder roomy
      rw [run, run, answered₁, answered₂]
      exact .ok (.number order) alike
  | hasCover =>
      rw [run, run, alike.hasCover_eq]
      exact .ok (.flag _) alike
  | list => exact .ok (.images alike.list) alike
  | get id => exact .ok (.found (alike.get? id)) alike
  | insert image =>
      exact (alike.insert (.refl image) regular.2).map fun _ _ pair => .inserted pair
  | setSortOrder id order => exact (alike.setSortOrder id order).map fun _ _ _ => .done
  | assignExclusiveCover id =>
      exact (alike.assignExclusiveCover (member_of_get? regular)).map fun _ _ _ => .done
  | delete id => exact .ok .done (alike.delete id)

/-- Regular calls one after the other answer alike. -/
theorem answerAll_alike {calls : List GalleryCall}
    (alike : TransactionsAlike named options store₁ store₂ tx₁ tx₂)
    (roomy : Roomy (TxView.draft tx₁).images) (regular : AllRegular tx₁ calls) :
    List.Forall₂ (ResultsAlike StoreErrorsAlike (GalleryAnswersAlike named options))
        (answerAll tx₁ calls).1 (answerAll tx₂ calls).1 ∧
      TransactionsAlike named options store₁ store₂ (answerAll tx₁ calls).2
        (answerAll tx₂ calls).2 := by
  induction calls generalizing tx₁ tx₂ with
  | nil => exact ⟨.nil, alike⟩
  | cons call calls ih =>
      have answered := run_alike alike roomy regular.1
      obtain ⟨answers, after⟩ := ih answered.state (roomy_run roomy regular.1) regular.2
      exact ⟨.cons answered.result answers, after⟩

end GalleryCall

/-! ## Stores alike -/

/-- Willing stores with the same galleries and parents, up to names and times. -/
structure StoresAlike [ParentStore σ₁] [ParentStore σ₂] (named : SavedBlob → SavedBlob → Prop)
    (options : GalleryOptions) (store₁ : σ₁) (store₂ : σ₂) : Prop where
  images : ∀ parent, List.Forall₂ (ImagesAlike named options) (StoreView.images store₁ parent)
    (StoreView.images store₂ parent)
  lastId_eq : StoreView.lastId store₁ = StoreView.lastId store₂
  parents : List.Forall₂ ParentsAlike (ParentStore.registry store₁).records
    (ParentStore.registry store₂).records
  willing₁ : WillingStore store₁
  willing₂ : WillingStore store₂

namespace StoresAlike

variable [GalleryTx τ₁] [GalleryTx τ₂] [GalleryStore σ₁ τ₁]
  [GalleryStore σ₂ τ₂] [ParentStore σ₁] [ParentStore σ₂] [PredictableStore σ₁ τ₁]
  [PredictableStore σ₂ τ₂] {store₁ : σ₁} {store₂ : σ₂} {tx₁ : τ₁} {tx₂ : τ₂}

theorem start (alike : StoresAlike named options store₁ store₂) (parent : String) :
    TransactionsAlike named options store₁ store₂ (GalleryStore.start store₁ parent)
      (GalleryStore.start store₂ parent) where
  drafts := by
    rw [LawfulStore.draft_start, LawfulStore.draft_start]
    exact ⟨rfl, alike.lastId_eq, alike.images parent⟩
  underway₁ := .start parent alike.willing₁
  underway₂ := .start parent alike.willing₂

theorem commit (alike : StoresAlike named options store₁ store₂)
    (transactions : TransactionsAlike named options store₁ store₂ tx₁ tx₂) :
    OutcomesAlike StoreErrorsAlike Eq (StoresAlike named options)
      (GalleryStore.commit tx₁ store₁) (GalleryStore.commit tx₂ store₂) := by
  have drafts := transactions.drafts
  obtain ⟨after₁, committed₁, willing₁⟩ :=
    PredictableStore.exists_commit alike.willing₁ transactions.underway₁.willing
  obtain ⟨after₂, committed₂, willing₂⟩ :=
    PredictableStore.exists_commit alike.willing₂ transactions.underway₂.willing
  have published₁ := LawfulStore.commit_of_ok transactions.underway₁.opened committed₁
  have published₂ := LawfulStore.commit_of_ok transactions.underway₂.opened committed₂
  rw [committed₁, committed₂]
  refine .ok rfl ⟨fun parent => ?_, ?_, ?_, willing₁, willing₂⟩
  · by_cases own : parent = (TxView.draft tx₁).parent
    · rw [own, published₁.images_self, drafts.parent_eq, published₂.images_self]
      exact drafts.images
    · rw [published₁.images_other parent own,
        published₂.images_other parent (drafts.parent_eq ▸ own)]
      exact alike.images parent
  · rw [published₁.lastId_eq, published₂.lastId_eq, drafts.lastId_eq]
  · rw [published₁.registry_eq, published₂.registry_eq]
    exact alike.parents

theorem listImages (alike : StoresAlike named options store₁ store₂) (parent : String) :
    List.Forall₂ (ImagesAlike named options) (GalleryStore.listImages store₁ parent)
      (GalleryStore.listImages store₂ parent) := by
  rw [LawfulStore.listImages_eq, LawfulStore.listImages_eq]
  exact arrange_alike (alike.images parent)

theorem galleryParentIds_eq (alike : StoresAlike named options store₁ store₂) :
    GalleryStore.galleryParentIds store₁ = GalleryStore.galleryParentIds store₂ := by
  obtain ⟨ids₁, listed₁, named₁⟩ := PredictableStore.exists_galleryParentIds alike.willing₁
  obtain ⟨ids₂, listed₂, named₂⟩ := PredictableStore.exists_galleryParentIds alike.willing₂
  rw [listed₁, listed₂]
  refine sortedIds_eq fun parent => ?_
  rw [named₁, named₂, ← List.length_pos_iff, ← List.length_pos_iff,
    (alike.images parent).length_eq]

theorem register (alike : StoresAlike named options store₁ store₂)
    (parent scope now₁ now₂ : String) :
    OutcomesAlike GalleryErrorsAlike ParentsAlike (StoresAlike named options)
      (ParentStore.register store₁ parent scope now₁)
      (ParentStore.register store₂ parent scope now₂) := by
  have entered := Registry.register_parentsAlike alike.parents parent scope now₁ now₂
  unfold ParentStore.register
  generalize (ParentStore.registry store₁).register parent scope now₁ = result₁ at entered ⊢
  generalize (ParentStore.registry store₂).register parent scope now₂ = result₂ at entered ⊢
  cases entered with
  | error same => exact .error same alike
  | @ok entered₁ entered₂ pair =>
      refine .ok pair.1 ⟨fun other => ?_, ?_, ?_, ?_, ?_⟩
      · rw [LawfulStore.images_withRegistry, LawfulStore.images_withRegistry]
        exact alike.images other
      · rw [LawfulStore.lastId_withRegistry, LawfulStore.lastId_withRegistry]
        exact alike.lastId_eq
      · rw [LawfulStore.registry_withRegistry, LawfulStore.registry_withRegistry]
        exact pair.2
      · exact PredictableStore.willing_withRegistry _ alike.willing₁
      · exact PredictableStore.willing_withRegistry _ alike.willing₂

end StoresAlike

end ImageGallery
