import ImageGallery.Proofs.Adapter
import ImageGallery.Proofs.Registration
import ImageGallery.Proofs.Tallies

/-!
# Accounts of sessions

In a session a manager is called directly and over HTTP in turns. What its counters grew by since
the start of the session accounts for what happened: the images that are there now are those that
were counted at uploads and not at deletions, and each outcome is counted once. A request may be
refused before the manager is asked, and is no call then.
-/

namespace ImageGallery

variable {σ τ ρ β : Type}

/-! ## Sums over calls -/

section Sums

variable (events : List (Event σ β))

theorem sum_map_boole (selects : Event σ β → Bool) :
    (events.map fun event => if selects event then 1 else 0).sum = events.countP selects := by
  induction events with
  | nil => rfl
  | cons event events ih => rw [List.map_cons, List.sum_cons, ih, List.countP_cons, Nat.add_comm]

theorem sum_rise_operations (operation : Operation) (succeeded : Bool) :
    (events.map (·.rise (.operations operation succeeded))).sum =
      events.countP (·.isOf operation succeeded) := by
  simp only [Event.rise_operations, sum_map_boole]

theorem sum_rise_blobDeleteFailures :
    (events.map (·.rise .blobDeleteFailures)).sum = events.countP (·.leavesFile) := by
  simp only [Event.rise_blobDeleteFailures, sum_map_boole]

theorem sum_rise_imagesUploaded :
    (events.map (·.rise .imagesUploaded)).sum = (committed events).length := by
  simp only [Event.rise_imagesUploaded, committed, List.length_flatMap]

end Sums

/-! ## Balances -/

/-- The files that a call saved, also those of an upload that failed. -/
def Event.saved [GalleryTx τ] [GalleryStore σ τ] [ParentStore σ] [BlobStore β]
    (event : Event σ β) : List SavedBlob :=
  (event.before.withLedger.perform event.call).2.blobs.saved

namespace Manager

section Balanced

variable [GalleryTx τ] [GalleryStore σ τ] [ParentStore σ]

/-- What calls did to counters, images and files is what their answers tell. -/
structure Balanced (before after : Manager σ (Faulty LocalBlobs))
    (events : List (Event σ (Faulty LocalBlobs))) : Prop where
  values : ∀ counter, counter ≠ .imagesTruncated → counter.countsRequests = false →
    after.counters.value counter =
      before.counters.value counter + (events.map (·.rise counter)).sum
  bytes : after.blobs.inner.bytesWritten =
    before.blobs.inner.bytesWritten + totalSize (events.flatMap (·.saved))
  images : totalImages after.store + events.countP (·.isOf .delete true) =
    totalImages before.store + (committed events).length

namespace Balanced

variable {before middle after : Manager σ (Faulty LocalBlobs)}
  {past present : List (Event σ (Faulty LocalBlobs))}

/-- Without calls nothing is counted. -/
theorem idle (values : after.counters = before.counters)
    (bytes : after.blobs.inner.bytesWritten = before.blobs.inner.bytesWritten)
    (images : totalImages after.store = totalImages before.store) : Balanced before after [] where
  values counter _ _ := by rw [values]; rfl
  bytes := bytes
  images := images

theorem trans (first : Balanced before middle past) (second : Balanced middle after present) :
    Balanced before after (past ++ present) where
  values counter counted plain := by
    rw [second.values counter counted plain, first.values counter counted plain, List.map_append,
      List.sum_append, Nat.add_assoc]
  bytes := by
    rw [second.bytes, first.bytes, List.flatMap_append, totalSize_append, Nat.add_assoc]
  images := by
    have one := first.images
    have other := second.images
    rw [List.countP_append, committed_append, List.length_append]
    omega

/-- Counted requests do not show in a balance. -/
theorem of_butForRequests (balanced : Balanced before middle present)
    (same : ButForRequests after middle) : Balanced before after present where
  values counter counted plain := by
    rw [same.value_eq counter plain, balanced.values counter counted plain]
  bytes := by rw [same.blobs_eq, balanced.bytes]
  images := by rw [same.store_eq, balanced.images]

end Balanced

end Balanced

section Calls

variable [GalleryTx τ] [TxView τ] [LawfulTx τ] [GalleryStore σ τ] [ParentStore σ] [StoreView σ τ]
  [LawfulStore σ τ] {manager : Manager σ (Faulty LocalBlobs)}

/-- The bytes that a call counts are those of the files that it saves. -/
theorem bytesWritten_perform
    (distinct : ∀ parent, ((StoreView.images manager.store parent).map (·.id)).Nodup)
    (call : Call) : (manager.perform call).2.blobs.inner.bytesWritten =
      manager.blobs.inner.bytesWritten + totalSize (manager.event call).saved := by
  have weighed : Weighed manager.blobs.inner.bytesWritten manager.withLedger.blobs := rfl
  have after : Weighed manager.blobs.inner.bytesWritten
      (manager.withLedger.perform call).2.blobs :=
    (weighed_keptByFiles _).perform distinct weighed call
  have same : (manager.withLedger.perform call).2.blobs.inner = (manager.perform call).2.blobs :=
    (Mirrors.perform (sameButLedger_withLedger manager) call).mirrors.blobs_eq
  rw [← same]
  exact after

variable [OwnersListed σ]

/-- A call is balanced. -/
theorem balanced_perform
    (distinct : ∀ parent, ((StoreView.images manager.store parent).map (·.id)).Nodup)
    (call : Call) : Balanced manager (manager.perform call).2 [manager.event call] where
  values counter counted _ := by
    rw [raises_perform manager call counter counted]
    simp
  bytes := by
    rw [bytesWritten_perform distinct, List.flatMap_singleton]
  images := by
    rw [committed_singleton, List.countP_singleton]
    exact totalImages_perform distinct call

variable [Refusing σ ρ] [LawfulRefusing σ τ ρ]

/-- A step of the process is balanced. -/
theorem balanced_step (ordered : GalleriesInOrder manager.options manager.store)
    (step : ProcessStep ρ) :
    Balanced manager (manager.step step.toStep) (manager.events step.toStep) := by
  cases step with
  | call operation => exact balanced_perform (fun parent => (ordered parent).distinct) operation
  | refuse refusals =>
      refine .idle rfl rfl (totalImages_congr fun parent => ?_)
      exact congrFun (LawfulRefusing.images_refuse _ _) parent
  | upkeep work =>
      refine .idle rfl ?_ rfl
      cases work with
      | sweep => exact LocalBlobs.bytesWritten_sweep _
      | failSaves failAfter => rfl
  | change edit => exact .idle rfl rfl rfl

end Calls

/-! ## Accounts -/

section Accounts

variable [GalleryTx τ] [GalleryStore σ τ] [ParentStore σ]

/-- The growth of a counter. -/
def growth (start after : Manager σ β) (counter : Counter) : Int :=
  after.counters.value counter - start.counters.value counter

/-- What the counters grew by accounts for the store and for the calls that were made. -/
structure Accounts (start after : Manager σ (Faulty LocalBlobs))
    (events : List (Event σ (Faulty LocalBlobs))) : Prop where
  /-- Images that were uploaded and not deleted are there. -/
  images : growth start after .imagesUploaded - growth start after (.operations .delete true) =
    totalImages after.store
  /-- Each call of an operation is counted once, by its outcome. -/
  operations : ∀ operation succeeded, growth start after (.operations operation succeeded) =
    events.countP (·.isOf operation succeeded)
  /-- Each deletion that left a file behind is counted. -/
  failures : growth start after .blobDeleteFailures = events.countP (·.leavesFile)
  /-- The bytes of all files that were saved are counted. -/
  bytes : (after.blobs.inner.bytesWritten : Int) - start.blobs.inner.bytesWritten =
    totalSize (events.flatMap (·.saved))

/-- A balance of a store that was empty accounts for everything. -/
theorem Balanced.accounts {start after : Manager σ (Faulty LocalBlobs)}
    {events : List (Event σ (Faulty LocalBlobs))} (balanced : Balanced start after events)
    (empty : totalImages start.store = 0) : Accounts start after events where
  images := by
    have total := balanced.images
    rw [empty, Nat.zero_add, ← sum_rise_imagesUploaded, ← sum_rise_operations] at total
    rw [growth, growth, balanced.values _ (by simp) rfl, balanced.values _ (by simp) rfl]
    omega
  operations operation succeeded := by
    rw [growth, balanced.values _ (by simp) rfl, sum_rise_operations]
    omega
  failures := by
    rw [growth, balanced.values _ (by simp) rfl, sum_rise_blobDeleteFailures]
    omega
  bytes := by
    rw [balanced.bytes]
    omega

end Accounts

end Manager

namespace Http

/-! ## Sessions -/

/-- A turn of a session: a step of the process, or a request. -/
inductive Turn (ρ : Type) where
  | direct (step : Manager.ProcessStep ρ)
  | request (request : Request)

namespace Service

variable [GalleryTx τ] [GalleryStore σ τ] [ParentStore σ] [Refusing σ ρ]

/-- Take a turn. -/
def turn (service : Service σ (Faulty LocalBlobs)) : Turn ρ → Service σ (Faulty LocalBlobs)
  | .direct step => { service with manager := service.manager.step step.toStep }
  | .request request => (service.handle request).2

/-- Take turns one after the other. -/
def session (service : Service σ (Faulty LocalBlobs)) (turns : List (Turn ρ)) :
    Service σ (Faulty LocalBlobs) :=
  turns.foldl turn service

/-- The calls that a turn makes. A request makes the call that it asks for, if it asks for one. -/
inductive Makes (service : Service σ (Faulty LocalBlobs)) :
    Turn ρ → List (Event σ (Faulty LocalBlobs)) → Prop where
  | direct (step : Manager.ProcessStep ρ) :
      Makes service (.direct step) (service.manager.events step.toStep)
  | asked {request : Request} {call : Call} (asked : Asks service.maxBodyBytes request call) :
      Makes service (.request request) [service.manager.event call]
  | idle {request : Request} (unasked : ¬∃ call, Asks service.maxBodyBytes request call) :
      Makes service (.request request) []

/-- The calls that a session makes. -/
inductive MakesAll : Service σ (Faulty LocalBlobs) → List (Turn ρ) →
    List (Event σ (Faulty LocalBlobs)) → Prop where
  | nil {service : Service σ (Faulty LocalBlobs)} : MakesAll service [] []
  | cons {service : Service σ (Faulty LocalBlobs)} {turn : Turn ρ} {turns : List (Turn ρ)}
      {events later : List (Event σ (Faulty LocalBlobs))} (first : service.Makes turn events)
      (others : MakesAll (service.turn turn) turns later) :
      MakesAll service (turn :: turns) (events ++ later)

omit [Refusing σ ρ] in
theorem exists_makes (service : Service σ (Faulty LocalBlobs)) (turn : Turn ρ) :
    ∃ events, service.Makes turn events := by
  cases turn with
  | direct step => exact ⟨_, .direct step⟩
  | request request =>
      by_cases asking : ∃ call, Asks service.maxBodyBytes request call
      · obtain ⟨call, asked⟩ := asking
        exact ⟨_, .asked asked⟩
      · exact ⟨_, .idle asking⟩

theorem exists_makesAll (service : Service σ (Faulty LocalBlobs)) (turns : List (Turn ρ)) :
    ∃ events, service.MakesAll turns events := by
  induction turns generalizing service with
  | nil => exact ⟨[], .nil⟩
  | cons turn turns ih =>
      obtain ⟨events, first⟩ := exists_makes service turn
      obtain ⟨later, others⟩ := ih (service.turn turn)
      exact ⟨events ++ later, .cons first others⟩

/-- The counters account for a session, which makes its calls one after the other. -/
def Accounted (service : Service σ (Faulty LocalBlobs)) (turns : List (Turn ρ)) : Prop :=
  (∃ events, service.MakesAll turns events) ∧
    ∀ events, service.MakesAll turns events →
      Manager.Accounts service.manager (service.session turns).manager events

section Lawful

variable [TxView τ] [LawfulTx τ] [StoreView σ τ] [LawfulStore σ τ] [LawfulRefusing σ τ ρ]
  [OwnersListed σ] {service : Service σ (Faulty LocalBlobs)}

/-- A turn is balanced and keeps galleries in order. -/
theorem balanced_turn
    (ordered : Manager.GalleriesInOrder service.manager.options service.manager.store)
    {turn : Turn ρ} {events : List (Event σ (Faulty LocalBlobs))}
    (made : service.Makes turn events) :
    Manager.Balanced service.manager (service.turn turn).manager events ∧
      Manager.GalleriesInOrder (service.turn turn).manager.options
        (service.turn turn).manager.store := by
  cases made with
  | direct step =>
      exact ⟨Manager.balanced_step ordered step, (Manager.inOrder_step ordered _).1⟩
  | @asked request call asked =>
      have state := (performs_of_asks asked).state
      obtain ⟨kept, sameOptions⟩ := Manager.inOrder_perform ordered call
      refine ⟨(Manager.balanced_perform (fun parent => (ordered parent).distinct)
        call).of_butForRequests state, ?_⟩
      rw [turn, state.options_eq, state.store_eq, sameOptions]
      exact kept
  | @idle request unasked =>
      have state := handle_manager service request
      rw [dispatch_of_not_asks _ unasked] at state
      refine ⟨(Manager.Balanced.idle rfl rfl rfl).of_butForRequests state, ?_⟩
      rw [turn, state.options_eq, state.store_eq]
      exact ordered

/-- A session is balanced. -/
theorem balanced_session
    (ordered : Manager.GalleriesInOrder service.manager.options service.manager.store)
    {turns : List (Turn ρ)} {events : List (Event σ (Faulty LocalBlobs))}
    (made : service.MakesAll turns events) :
    Manager.Balanced service.manager (service.session turns).manager events := by
  induction made with
  | nil => exact .idle rfl rfl rfl
  | cons first others ih =>
      obtain ⟨balanced, kept⟩ := balanced_turn ordered first
      exact balanced.trans (ih kept)

/-- The counters account for every session from an empty store. -/
theorem accounted_of_empty
    (empty : ∀ parent, GalleryStore.listImages service.manager.store parent = [])
    (turns : List (Turn ρ)) : service.Accounted turns := by
  have vacant (parent : String) : StoreView.images service.manager.store parent = [] :=
    listImages_eq_nil_iff.mp (empty parent)
  have ordered : Manager.GalleriesInOrder service.manager.options service.manager.store := by
    intro parent
    rw [vacant]
    exact .empty _ _
  refine ⟨exists_makesAll service turns, fun events made => ?_⟩
  exact (balanced_session ordered made).accounts (totalImages_of_empty vacant)

end Lawful

/-- Two images are uploaded, then an upload fails at its second file, and the first image is deleted
over HTTP. -/
def mixedTurns : List (Turn ρ) :=
  [ .direct (.call (.register "p" "s")),
    .direct (.call (.upload "p" [.ofHeld "a.png" none [1], .ofHeld "b.png" none [2]])),
    .direct (.upkeep (.failSaves (some 1))),
    .direct (.call (.upload "p" [.ofHeld "c.png" none [3], .ofHeld "d.png" none [4]])),
    .request { method := .delete, target := "/parents/p/images/1", headers := [], body := [] },
    .request { method := .get, target := "/metrics", headers := [], body := [] } ]

end Service

end Http

end ImageGallery
