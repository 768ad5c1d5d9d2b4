import ImageGallery.Proofs.History
import ImageGallery.Proofs.Mirrors

/-!
# Ledgers

A blob store may be given a ledger, in which it enters every file that it saves, also those of
uploads that fail later. Runs go with a ledger as they go without one.
-/

namespace ImageGallery

variable {σ τ ρ β : Type}

/-- A blob store with a list of all files that it saved. -/
structure Ledger (β : Type) where
  inner : β
  /-- The saved files in their order. -/
  saved : List SavedBlob := []

section Ledger

variable [BlobStore β]

/-- Save and enter the file, if it was saved. -/
def Ledger.save (blobs : Ledger β) (scope parent : String) (index : Nat) (upload : Upload) :
    Except GalleryError SavedBlob × Ledger β :=
  let (result, inner) := BlobStore.save blobs.inner scope parent index upload
  (result, ⟨inner, blobs.saved ++ result.toOption.toList⟩)

instance : BlobStore (Ledger β) where
  save := Ledger.save
  delete blobs key :=
    let (removed, inner) := BlobStore.delete blobs.inner key
    (removed, { blobs with inner })
  contains blobs key := BlobStore.contains blobs.inner key

/-- A blob store seen without its ledger. -/
def BlobView.withoutLedger (β : Type) [BlobStore β] : BlobView (Ledger β) β where
  view := Ledger.inner
  save_view _ _ _ _ _ := rfl
  delete_view _ _ := rfl

end Ledger

/-- A step that leaves the ledger alone, but for what it saves. -/
def Step.onLedger : Step ρ β → Step ρ (Ledger β)
  | .call operation => .call operation
  | .refuse refusals => .refuse refusals
  | .disturb change => .disturb fun blobs => { blobs with inner := change blobs.inner }

namespace Manager

/-- A manager whose blob store is given an empty ledger. -/
def withLedger (manager : Manager σ β) : Manager σ (Ledger β) :=
  { manager with blobs := { inner := manager.blobs } }

variable [BlobStore β]

/-- Managers that differ in a ledger only. -/
def SameButLedger (first : Manager σ (Ledger β)) (second : Manager σ β) : Prop :=
  Mirrors (.withoutLedger β) (fun _ => true) first second

theorem sameButLedger_withLedger (manager : Manager σ β) :
    SameButLedger manager.withLedger manager :=
  ⟨rfl, rfl, rfl, rfl, fun _ _ => rfl⟩

variable [GalleryTx τ] [GalleryStore σ τ] [ParentStore σ] {first : Manager σ (Ledger β)}
  {second : Manager σ β}

namespace SameButLedger

/-- What is called in a step is answered the same. -/
theorem events (same : SameButLedger first second) (step : Step ρ β) :
    (first.events step.onLedger).map (·.answer) = (second.events step).map (·.answer) := by
  cases step with
  | call operation => exact congrArg ([·]) (Mirrors.perform same operation).answer_eq
  | refuse refusals => rfl
  | disturb change => rfl

variable [Refusing σ ρ]

/-- A step does the same to both. -/
theorem step (same : SameButLedger first second) (step : Step ρ β) :
    SameButLedger (first.step step.onLedger) (second.step step) := by
  cases step with
  | call operation => exact (Mirrors.perform same operation).mirrors
  | refuse refusals =>
      have refused : Refusing.refuse first.store refusals =
          Refusing.refuse second.store refusals := by
        rw [same.store_eq]
      exact { same with store_eq := refused }
  | disturb change => exact { same with blobs_eq := congrArg change same.blobs_eq }

/-- A run does the same to both. -/
theorem run (same : SameButLedger first second) (steps : List (Step ρ β)) :
    SameButLedger (first.run (steps.map .onLedger)) (second.run steps) := by
  induction steps generalizing first second with
  | nil => exact same
  | cons step steps ih => exact ih (same.step step)

/-- All calls of a run are answered the same. -/
theorem history (same : SameButLedger first second) (steps : List (Step ρ β)) :
    (first.history (steps.map .onLedger)).map (·.answer) =
      (second.history steps).map (·.answer) := by
  induction steps generalizing first second with
  | nil => rfl
  | cons step steps ih =>
      rw [List.map_cons, Manager.history, Manager.history, List.map_append, List.map_append,
        same.events step, ih (same.step step)]

end SameButLedger

/-- All files that are saved in a run, in their order. -/
def filesSaved [Refusing σ ρ] (manager : Manager σ β) (steps : List (Step ρ β)) : List SavedBlob :=
  (manager.withLedger.run (steps.map .onLedger)).blobs.saved

end Manager

end ImageGallery
