import ImageGallery.Proofs.Alike
import ImageGallery.Proofs.Run

/-!
# Mirrored managers

No operation looks at a counter, and none looks into its blob store: files are saved and removed,
and that is all. So runs go the same way whatever else is counted, and whatever a blob store notes
down about itself.
-/

namespace ImageGallery

/-- A blob store that is seen as another one, in which the same files are saved and removed. -/
structure BlobView (β γ : Type) [BlobStore β] [BlobStore γ] where
  view : β → γ
  save_view (blobs : β) (scope parent : String) (index : Nat) (upload : Upload) :
    BlobStore.save (view blobs) scope parent index upload =
      (BlobStore.save blobs scope parent index upload).map id view
  delete_view (blobs : β) (key : String) :
    BlobStore.delete (view blobs) key = (BlobStore.delete blobs key).map id view

/-- A blob store seen as it is. -/
def BlobView.plain (β : Type) [BlobStore β] : BlobView β β where
  view := id
  save_view _ _ _ _ _ := rfl
  delete_view _ _ := rfl

namespace Manager

variable {σ τ β γ : Type} [BlobStore β] [BlobStore γ]

/-- Managers of one metadata store, with the same limits and the same clock. The second has the
first's blob store as it is seen, and agrees with it in the chosen counters. -/
structure Mirrors (seen : BlobView β γ) (chosen : Counter → Bool) (first : Manager σ β)
    (second : Manager σ γ) : Prop where
  store_eq : first.store = second.store
  blobs_eq : seen.view first.blobs = second.blobs
  options_eq : first.options = second.options
  clock_eq : first.clock = second.clock
  value_eq : ∀ counter, chosen counter = true →
    first.counters.value counter = second.counters.value counter

variable {seen : BlobView β γ} {chosen : Counter → Bool} {first : Manager σ β}
  {second : Manager σ γ}

/-- Both answer the same, and mirror each other afterwards. -/
def SameOutcome {α : Type} (seen : BlobView β γ) (chosen : Counter → Bool)
    (first : Except GalleryError α × Manager σ β) (second : Except GalleryError α × Manager σ γ) :
    Prop :=
  OutcomesAlike Eq Eq (Mirrors seen chosen) first second

namespace SameOutcome

variable {α : Type} {result₁ : Except GalleryError α × Manager σ β}
  {result₂ : Except GalleryError α × Manager σ γ}

theorem answer_eq (same : SameOutcome seen chosen result₁ result₂) : result₁.1 = result₂.1 := by
  cases same with
  | ok alike _ => rw [alike]
  | error alike _ => rw [alike]

theorem mirrors (same : SameOutcome seen chosen result₁ result₂) :
    Mirrors seen chosen result₁.2 result₂.2 :=
  same.state

end SameOutcome

namespace Mirrors

/-- The same counter is raised on both sides. -/
theorem tally (mirrors : Mirrors seen chosen first second) (counter : Counter) (amount : Nat) :
    Mirrors seen chosen (first.tally counter amount) (second.tally counter amount) where
  store_eq := mirrors.store_eq
  blobs_eq := mirrors.blobs_eq
  options_eq := mirrors.options_eq
  clock_eq := mirrors.clock_eq
  value_eq other counted := by
    by_cases own : other = counter
    · subst own
      simp only [Manager.tally, Counters.value_add_self, mirrors.value_eq other counted]
    · simp only [Manager.tally, Counters.value_add_of_ne _ _ own, mirrors.value_eq other counted]

/-- The same answer of both. -/
theorem same {α : Type} (mirrors : Mirrors seen chosen first second)
    (answer : Except GalleryError α) :
    SameOutcome seen chosen (answer, first) (answer, second) := by
  cases answer with
  | ok value => exact .ok rfl mirrors
  | error error => exact .error rfl mirrors

end Mirrors

namespace SameOutcome

variable {α : Type} {result₁ : Except GalleryError α × Manager σ β}
  {result₂ : Except GalleryError α × Manager σ γ}

theorem record (same : SameOutcome seen chosen result₁ result₂) (operation : Operation) :
    SameOutcome seen chosen (Manager.record operation result₁)
      (Manager.record operation result₂) := by
  unfold Manager.record
  rw [same.answer_eq]
  exact (same.mirrors.tally _ _).same _

theorem answerAs (same : SameOutcome seen chosen result₁ result₂) (wrap : α → Answer) :
    SameOutcome seen chosen (Manager.answerAs wrap result₁) (Manager.answerAs wrap result₂) := by
  unfold Manager.answerAs
  rw [same.answer_eq]
  exact same.mirrors.same _

end SameOutcome

/-! ## Batches -/

/-- A batch whose blob store is seen as another one. -/
def Batch.through (seen : BlobView β γ) (batch : Batch τ β) : Batch τ γ :=
  ⟨batch.tx, seen.view batch.blobs, batch.clock⟩

theorem writeBatch_through [GalleryTx τ] (seen : BlobView β γ) (options : GalleryOptions)
    (parent : ParentRecord) (order : UInt32) (index : Nat) (cover : Bool) (uploads : List Upload)
    (batch : Batch τ β) :
    writeBatch options parent order index cover uploads (batch.through seen) =
      (writeBatch options parent order index cover uploads batch).map id (·.through seen) := by
  induction uploads generalizing index cover batch with
  | nil => rfl
  | cons upload uploads ih =>
      unfold writeBatch
      rw [show (batch.through seen).blobs = seen.view batch.blobs from rfl, seen.save_view]
      rcases BlobStore.save batch.blobs parent.scopeId parent.id index upload with
        ⟨error | saved, blobs⟩
      · rfl
      · dsimp only [Prod.map_apply, id_eq, Batch.through]
        rcases GalleryTx.insert batch.tx _ with ⟨error | record, tx⟩
        · rfl
        · have others := ih (index + 1) false ⟨tx, blobs, batch.clock.now.2⟩
          dsimp only [Batch.through] at others ⊢
          rw [others]
          rcases writeBatch options parent order (index + 1) false uploads
            ⟨tx, blobs, batch.clock.now.2⟩ with ⟨error | records, last⟩ <;> rfl

/-! ## Operations -/

variable [GalleryTx τ] [GalleryStore σ τ] [ParentStore σ]

omit [GalleryTx τ] [GalleryStore σ τ] in
theorem Mirrors.parent_eq (mirrors : Mirrors seen chosen first second) (id : String) :
    first.parent id = second.parent id := by
  rw [Manager.parent, Manager.parent, mirrors.store_eq]

namespace Mirrors

omit [GalleryTx τ] [ParentStore σ] in
theorem commitWith {α : Type} (mirrors : Mirrors seen chosen first second) (tx : τ) (value : α) :
    SameOutcome seen chosen (first.commitWith tx value) (second.commitWith tx value) := by
  unfold Manager.commitWith
  rw [mirrors.store_eq]
  split
  · exact .ok rfl { mirrors with store_eq := rfl }
  · exact .error rfl { mirrors with store_eq := rfl }

omit [ParentStore σ] in
theorem append (mirrors : Mirrors seen chosen first second) (parent : ParentRecord) (tx : τ)
    (uploads : List Upload) :
    SameOutcome seen chosen (first.append parent tx uploads)
      (second.append parent tx uploads) := by
  rcases first with ⟨store, blobs, options, clock, counters₁⟩
  rcases second with ⟨_, _, _, _, counters₂⟩
  obtain ⟨rfl, rfl, rfl, rfl, values⟩ := mirrors
  have moved (blobs : β) (clock : Clock) : Mirrors seen chosen
      (⟨store, blobs, options, clock, counters₁⟩ : Manager σ β)
      ⟨store, seen.view blobs, options, clock, counters₂⟩ :=
    ⟨rfl, rfl, rfl, rfl, values⟩
  unfold Manager.append
  dsimp only
  split
  · exact (moved blobs clock).same _
  · split
    · exact (moved blobs clock).same _
    · rename_i order _
      have batches := writeBatch_through seen options parent order 0 (!GalleryTx.hasCover tx)
        uploads ⟨tx, blobs, clock⟩
      rw [Batch.through] at batches
      rw [batches]
      rcases writeBatch options parent order 0 (!GalleryTx.hasCover tx) uploads
        ⟨tx, blobs, clock⟩ with ⟨error | records, batch⟩
      · exact .error rfl (moved batch.blobs batch.clock)
      · have committed := (moved batch.blobs batch.clock).commitWith batch.tx records
        dsimp only [Prod.map_apply, id_eq, Batch.through]
        generalize Manager.commitWith ⟨store, batch.blobs, options, batch.clock, counters₁⟩
          batch.tx records = outcome₁ at committed ⊢
        generalize Manager.commitWith ⟨store, seen.view batch.blobs, options, batch.clock,
          counters₂⟩ batch.tx records = outcome₂ at committed ⊢
        cases committed with
        | ok same after =>
            cases same
            exact .ok rfl (after.tally _ _)
        | error same after => exact .error same after

theorem receive (mirrors : Mirrors seen chosen first second) (parentId : String)
    (uploads : List Upload) :
    SameOutcome seen chosen (first.receive parentId uploads)
      (second.receive parentId uploads) := by
  unfold Manager.receive
  rw [mirrors.parent_eq, mirrors.store_eq, mirrors.options_eq]
  split
  · exact mirrors.same _
  · split
    · exact mirrors.same _
    · split
      · exact mirrors.same _
      · dsimp only
        split
        · exact mirrors.same _
        · split
          · exact mirrors.same _
          · split
            · exact (mirrors.tally _ _).append _ _ _
            · exact mirrors.append _ _ _

omit [ParentStore σ] in
theorem withdraw (mirrors : Mirrors seen chosen first second) (parentId : String) (id : Int) :
    SameOutcome seen chosen (first.withdraw parentId id) (second.withdraw parentId id) := by
  unfold Manager.withdraw
  rw [mirrors.store_eq]
  dsimp only
  split
  · exact mirrors.same _
  · split
    · exact mirrors.same _
    · rename_i target _ _ promoted tx _
      have committed := mirrors.commitWith tx ()
      generalize first.commitWith tx () = outcome₁ at committed ⊢
      generalize second.commitWith tx () = outcome₂ at committed ⊢
      cases committed with
      | error same after => exact .error same after
      | @ok _ _ left right _ after =>
          dsimp only
          rw [← after.blobs_eq, seen.delete_view]
          have removed : Mirrors seen chosen
              { left with blobs := (BlobStore.delete left.blobs target.storageKey).2 }
              { right with
                blobs := seen.view (BlobStore.delete left.blobs target.storageKey).2 } :=
            { after with blobs_eq := rfl }
          dsimp only [Prod.map_fst, Prod.map_snd, id_eq]
          split
          · exact .ok rfl removed
          · exact .ok rfl (removed.tally _ _)

omit [ParentStore σ] in
theorem flag (mirrors : Mirrors seen chosen first second) (parentId : String) (id : Int) :
    SameOutcome seen chosen (first.flag parentId id) (second.flag parentId id) := by
  unfold Manager.flag
  rw [mirrors.store_eq]
  dsimp only
  split
  · exact mirrors.same _
  · split
    · exact mirrors.same _
    · split
      · exact mirrors.same _
      · exact mirrors.commitWith _ _

omit [ParentStore σ] in
theorem rearrange (mirrors : Mirrors seen chosen first second) (parentId : String)
    (items : List ReorderItem) :
    SameOutcome seen chosen (first.rearrange parentId items)
      (second.rearrange parentId items) := by
  unfold Manager.rearrange
  rw [mirrors.store_eq]
  split
  · exact mirrors.same _
  · dsimp only
    split
    · exact mirrors.same _
    · exact mirrors.commitWith _ _

omit [GalleryTx τ] [GalleryStore σ τ] in
theorem register (mirrors : Mirrors seen chosen first second) (parentId scope : String) :
    SameOutcome seen chosen (first.register parentId scope) (second.register parentId scope) := by
  unfold Manager.register
  rw [mirrors.store_eq, mirrors.clock_eq]
  dsimp only
  apply Mirrors.same
  exact { mirrors with store_eq := rfl, clock_eq := rfl }

/-- Both carry a call out in the same way. -/
theorem perform (mirrors : Mirrors seen chosen first second) (call : Call) :
    SameOutcome seen chosen (first.perform call) (second.perform call) := by
  cases call with
  | register parent scope => exact (mirrors.register parent scope).answerAs _
  | upload parent uploads => exact ((mirrors.receive parent uploads).record _).answerAs _
  | delete parent id => exact ((mirrors.withdraw parent id).record _).answerAs _
  | setCover parent id => exact ((mirrors.flag parent id).record _).answerAs _
  | reorder parent items => exact ((mirrors.rearrange parent items).record _).answerAs _
  | list parent =>
      have listed : first.list parent = second.list parent := by
        rw [Manager.list, Manager.list, mirrors.parent_eq, mirrors.store_eq]
      simp only [Manager.perform, listed]
      exact (mirrors.same _).answerAs _

end Mirrors

end Manager

end ImageGallery
