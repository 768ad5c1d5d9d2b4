import ImageGallery.Proofs.Mirrors

/-!
# Managers that differ in counted requests

A service counts requests in the counters of its manager. No operation looks at a counter, so
managers that differ in these counters alone differ in nothing else after a call.
-/

namespace ImageGallery

/-- The counter counts requests. -/
def Counter.countsRequests : Counter → Bool
  | httpRequests .. | httpDurations .. => true
  | _ => false

namespace Manager

variable {σ τ β : Type}

/-- Managers that agree in everything but the counters of requests. -/
structure ButForRequests (first second : Manager σ β) : Prop where
  store_eq : first.store = second.store
  blobs_eq : first.blobs = second.blobs
  options_eq : first.options = second.options
  clock_eq : first.clock = second.clock
  value_eq : ∀ counter, counter.countsRequests = false →
    first.counters.value counter = second.counters.value counter

namespace ButForRequests

variable {first second third : Manager σ β}

theorem refl (manager : Manager σ β) : ButForRequests manager manager :=
  ⟨rfl, rfl, rfl, rfl, fun _ _ => rfl⟩

theorem trans (left : ButForRequests first second) (right : ButForRequests second third) :
    ButForRequests first third where
  store_eq := left.store_eq.trans right.store_eq
  blobs_eq := left.blobs_eq.trans right.blobs_eq
  options_eq := left.options_eq.trans right.options_eq
  clock_eq := left.clock_eq.trans right.clock_eq
  value_eq counter other := (left.value_eq counter other).trans (right.value_eq counter other)

/-- Raising a counter of requests. -/
theorem tally_request (manager : Manager σ β) {counter : Counter} (amount : Nat)
    (request : counter.countsRequests = true) :
    ButForRequests (manager.tally counter amount) manager where
  store_eq := rfl
  blobs_eq := rfl
  options_eq := rfl
  clock_eq := rfl
  value_eq other plain := by
    refine Counters.value_add_of_ne _ amount ?_
    rintro rfl
    rw [plain] at request
    cases request

end ButForRequests

variable [BlobStore β] {first second : Manager σ β}

theorem butForRequests_iff : ButForRequests first second ↔
    Mirrors (.plain β) (fun counter => !counter.countsRequests) first second := by
  constructor
  · rintro ⟨store, blobs, options, clock, values⟩
    exact ⟨store, blobs, options, clock, fun counter plain => values counter (by simpa using plain)⟩
  · rintro ⟨store, blobs, options, clock, values⟩
    exact ⟨store, blobs, options, clock, fun counter plain => values counter (by simp [plain])⟩

/-- Calls do the same, whatever requests were counted before. -/
theorem ButForRequests.perform [GalleryTx τ] [GalleryStore σ τ] [ParentStore σ]
    (same : ButForRequests first second) (call : Call) :
    ButForRequests (first.perform call).2 (second.perform call).2 :=
  butForRequests_iff.mpr ((butForRequests_iff.mp same).perform call).mirrors

end Manager

end ImageGallery
