import ImageGallery.Proofs.Agreement
import ImageGallery.Proofs.Owners

/-!
# Transactions read their own writes, and end in all or nothing

The records that a transaction sees are the committed ones with its own writes applied, one after
the other. Each read is computed from these records, as long as no write failed, and leaves them
alone. A transaction that is dropped, or whose commit is refused, leaves the store as it was. A
commit makes the parent's records exactly those of the transaction, and leaves the other parents
alone.

Two provisos concern numbers of 32 bits. Where an image stands at the last position there is no
next one, and memory starts again from zero. A gallery with more images than 32 bits can count is
not counted.
-/

namespace ImageGallery

namespace GalleryCall

/-- The call is to change the transaction. -/
def writes : GalleryCall → Bool
  | insert _ | setSortOrder .. | assignExclusiveCover _ | delete _ => true
  | count | nextOrder | hasCover | list | get _ => false

/-- The position that a call writes. -/
def order? : GalleryCall → Option UInt32
  | insert image => some image.sortOrder
  | setSortOrder _ order => some order
  | _ => none

/-- Calls one after the other, each with its answer. -/
def trace {τ : Type} [GalleryTx τ] (tx : τ) (calls : List GalleryCall) :
    List (GalleryCall × Except StoreError GalleryAnswer) :=
  calls.zip (answerAll tx calls).1

end GalleryCall

/-! ## Records with writes applied -/

namespace Draft

/-- A draft after a write that succeeded. -/
def write (draft : Draft) : GalleryCall → Draft
  | .insert image => draft.insert image
  | .setSortOrder id order => draft.move id order
  | .assignExclusiveCover id => draft.cover id
  | .delete id => draft.remove id
  | _ => draft

/-- A draft after some calls. -/
def writeAll (draft : Draft) (calls : List GalleryCall) : Draft :=
  calls.foldl write draft

/-- The answer to a read, computed from the records of a draft. -/
def Answers (draft : Draft) (call : GalleryCall) (result : Except StoreError GalleryAnswer) :
    Prop :=
  match call with
  | .count =>
    (∃ number : UInt32, result = .ok (.number number) ∧ number.toNat = draft.images.length) ∨
      ∃ error : StoreError, result = .error error ∧ error.Overflow draft.images.length
  | .nextOrder =>
    ∃ order : UInt32, result = .ok (.number order) ∧
      (∀ image ∈ draft.images, image.sortOrder.toNat < order.toNat) ∧
      (order = 0 ∨ ∃ image ∈ draft.images, order.toNat = image.sortOrder.toNat + 1)
  | .hasCover =>
    ∃ flag, result = .ok (.flag flag) ∧
      (flag = true ↔ ∃ image ∈ draft.images, image.isCover = true)
  | .list =>
    ∃ images : List ImageRecord, result = .ok (.images images) ∧ images.Perm draft.images ∧
      images.Pairwise fun first second =>
        first.sortOrder < second.sortOrder ∨
          first.sortOrder = second.sortOrder ∧ first.id ≤ second.id
  | .get id =>
    (∃ image ∈ draft.images, image.id = id ∧ result = .ok (.found (some image))) ∨
      (∀ image ∈ draft.images, image.id ≠ id) ∧ result = .ok (.found none)
  | _ => True

/-- The next position is above all others, and one above the greatest. -/
theorem le_foldl_nextOrder (images : List ImageRecord) (greatest : Nat) :
    greatest ≤ images.foldl (fun greatest image => max greatest (image.sortOrder.toNat + 1))
        greatest ∧
      (∀ image ∈ images, image.sortOrder.toNat <
        images.foldl (fun greatest image => max greatest (image.sortOrder.toNat + 1)) greatest) ∧
      (images.foldl (fun greatest image => max greatest (image.sortOrder.toNat + 1)) greatest =
          greatest ∨
        ∃ image ∈ images, images.foldl
          (fun greatest image => max greatest (image.sortOrder.toNat + 1)) greatest =
            image.sortOrder.toNat + 1) := by
  induction images generalizing greatest with
  | nil => simp
  | cons image images ih =>
      obtain ⟨above, greater, reached⟩ := ih (max greatest (image.sortOrder.toNat + 1))
      rw [List.foldl_cons]
      refine ⟨by omega, ?_, ?_⟩
      · rw [List.forall_mem_cons]
        exact ⟨by omega, greater⟩
      · rcases reached with same | ⟨other, mem, same⟩
        · rcases Nat.le_total greatest (image.sortOrder.toNat + 1) with less | less
          · exact .inr ⟨image, by simp, by omega⟩
          · exact .inl (by omega)
        · exact .inr ⟨other, List.mem_cons_of_mem _ mem, same⟩

end Draft

theorem Roomy.write {draft : Draft} (roomy : Roomy draft.images) {call : GalleryCall}
    (fits : call.order? ≠ some 4294967295) : Roomy (draft.write call).images := by
  cases call with
  | insert image => exact roomy.insert fun last => fits (congrArg some last)
  | setSortOrder id order => exact roomy.move id fun last => fits (congrArg some last)
  | assignExclusiveCover id => exact roomy.cover id
  | delete id => exact roomy.remove id
  | count | nextOrder | hasCover | list | get => exact roomy

/-! ## Reads -/

section Reads

variable {τ : Type} [GalleryTx τ] [TxView τ]

/-- The transaction refuses no read, but for galleries too large to count. -/
structure Legible (tx : τ) : Prop where
  count : (∃ number, GalleryTx.count tx = .ok number) ∨
    ∃ error, GalleryTx.count tx = .error error ∧ error.Overflow (TxView.draft tx).images.length
  nextOrder : Roomy (TxView.draft tx).images → ∃ order, GalleryTx.nextOrder tx = .ok order

theorem PredictableTx.legible [PredictableTx τ] (tx : τ) : Legible tx where
  count := by
    rcases Nat.lt_or_ge (TxView.draft tx).images.length UInt32.size with small | large
    · exact .inl (PredictableTx.exists_count small)
    · exact .inr (PredictableTx.count_of_large large)
  nextOrder roomy := PredictableTx.exists_nextOrder roomy.small

/-- Reads are never refused. -/
def Refusals.SparesReads (refusals : Refusals) : Prop :=
  ∀ tried, refusals .count tried = none ∧ refusals .nextOrder tried = none

theorem FallibleTx.legible {tx : FallibleTx τ} (spared : Refusals.SparesReads tx.refusals)
    (inner : Legible tx.inner) : Legible tx where
  count := by
    have asked : GalleryTx.count tx = GalleryTx.count tx.inner := by
      change tx.ask .count _ = _
      rw [ask, (spared tx.tried).1]
    rw [asked]
    exact inner.count
  nextOrder roomy := by
    have asked : GalleryTx.nextOrder tx = GalleryTx.nextOrder tx.inner := by
      change tx.ask .nextOrder _ = _
      rw [ask, (spared tx.tried).2]
    rw [asked]
    exact inner.nextOrder roomy

variable [LawfulTx τ]

/-- A read answers from the draft. -/
theorem answers_run {tx : τ} (legible : Legible tx) (roomy : Roomy (TxView.draft tx).images)
    (call : GalleryCall) : (TxView.draft tx).Answers call (call.run tx).1 := by
  cases call with
  | count =>
      rcases legible.count with ⟨number, counted⟩ | ⟨error, refused, large⟩
      · exact .inl ⟨number, by simp [GalleryCall.run, counted, Except.map],
          LawfulTx.count_of_ok counted⟩
      · exact .inr ⟨error, by simp [GalleryCall.run, refused, Except.map], large⟩
  | nextOrder =>
      obtain ⟨order, answered⟩ := legible.nextOrder roomy
      have computed := LawfulTx.nextOrder_of_ok answered roomy.small
      obtain ⟨-, above, reached⟩ := Draft.le_foldl_nextOrder (TxView.draft tx).images 0
      rw [← Draft.nextOrder, ← computed] at above reached
      refine ⟨order, by simp [GalleryCall.run, answered, Except.map], above, ?_⟩
      exact reached.imp_left fun zero => UInt32.toNat_inj.mp zero
  | hasCover =>
      refine ⟨_, rfl, ?_⟩
      rw [LawfulTx.hasCover_eq, List.any_eq_true]
  | list =>
      refine ⟨_, rfl, ?_, ?_⟩
      · rw [LawfulTx.list_eq]
        exact arrange_perm _
      · rw [LawfulTx.list_eq, arrange_eq_rankedBy]
        apply (pairwise_rankedBy _ _).imp
        intro first second before
        rw [ranksBefore_iff] at before
        rwa [UInt32.lt_iff_toNat_lt, ← UInt32.toNat_inj]
  | get id =>
      have answered : (GalleryCall.run tx (.get id)).1 = .ok (.found (GalleryTx.get? tx id)) := rfl
      rw [LawfulTx.get?_eq] at answered
      cases found : (TxView.draft tx).images.find? fun image => image.id = id with
      | none =>
          rw [found] at answered
          exact .inr ⟨by simpa using found, answered⟩
      | some image =>
          rw [found] at answered
          exact .inl ⟨image, List.mem_of_find?_eq_some found,
            by simpa using List.find?_some found, answered⟩
  | insert | setSortOrder | assignExclusiveCover | delete => trivial

omit [GalleryTx τ] [TxView τ] [LawfulTx τ] in
theorem exists_of_map_eq_ok {α : Type} {wrap : α → GalleryAnswer} {result : Except StoreError α}
    {answer : GalleryAnswer} (answered : result.map wrap = .ok answer) :
    ∃ value, result = .ok value := by
  cases result with
  | error error => cases answered
  | ok value => exact ⟨value, rfl⟩

/-- Writes that succeed change the draft, and reads leave it alone. -/
theorem draft_run {tx : τ} {call : GalleryCall}
    (written : call.writes = true → ∃ answer, (call.run tx).1 = .ok answer) :
    TxView.draft (call.run tx).2 = (TxView.draft tx).write call := by
  cases call with
  | count | nextOrder | hasCover | list | get => rfl
  | insert image =>
      obtain ⟨answer, answered⟩ := written rfl
      obtain ⟨record, inserted⟩ := exists_of_map_eq_ok answered
      exact (LawfulTx.insert_of_ok (Prod.ext inserted rfl)).2
  | setSortOrder id order =>
      obtain ⟨answer, answered⟩ := written rfl
      obtain ⟨_, moved⟩ := exists_of_map_eq_ok answered
      exact LawfulTx.setSortOrder_of_ok (Prod.ext moved rfl)
  | assignExclusiveCover id =>
      obtain ⟨answer, answered⟩ := written rfl
      obtain ⟨_, assigned⟩ := exists_of_map_eq_ok answered
      exact LawfulTx.assignExclusiveCover_of_ok (Prod.ext assigned rfl)
  | delete id => exact LawfulTx.draft_delete tx id

/-- No write among some calls failed. -/
def Unfailing (trace : List (GalleryCall × Except StoreError GalleryAnswer)) : Prop :=
  ∀ step ∈ trace, step.1.writes = true → ∃ answer, step.2 = .ok answer

omit [TxView τ] [LawfulTx τ] in
@[simp]
theorem trace_cons (tx : τ) (call : GalleryCall) (calls : List GalleryCall) :
    GalleryCall.trace tx (call :: calls) =
      (call, (call.run tx).1) :: GalleryCall.trace (call.run tx).2 calls :=
  rfl

/-- Each read among some calls answers from the draft with the writes before it applied. What the
calls keep makes reads succeed. -/
theorem answers_trace {kept : τ → Prop} (legible : ∀ tx, kept tx → Legible tx)
    (keeps : ∀ tx (call : GalleryCall), kept tx → kept (call.run tx).2) {tx : τ} (start : kept tx)
    (roomy : Roomy (TxView.draft tx).images) {calls : List GalleryCall}
    {earlier later : List (GalleryCall × Except StoreError GalleryAnswer)} {call : GalleryCall}
    {result : Except StoreError GalleryAnswer}
    (traced : GalleryCall.trace tx calls = earlier ++ (call, result) :: later)
    (written : Unfailing earlier) (fits : ∀ step ∈ earlier, step.1.order? ≠ some 4294967295) :
    ((TxView.draft tx).writeAll (earlier.map (·.1))).Answers call result := by
  induction earlier generalizing tx calls with
  | nil =>
      cases calls with
      | nil => cases traced
      | cons first calls =>
          rw [trace_cons] at traced
          cases traced
          exact answers_run (legible tx start) roomy call
  | cons step earlier ih =>
      cases calls with
      | nil => cases traced
      | cons first calls =>
          rw [trace_cons, List.cons_append, List.cons_eq_cons] at traced
          obtain ⟨rfl, traced⟩ := traced
          have changed := draft_run (written _ List.mem_cons_self)
          have later := ih (keeps tx first start)
            (changed ▸ roomy.write (fits _ List.mem_cons_self)) traced
            (fun step mem => written step (List.mem_cons_of_mem _ mem))
            (fun step mem => fits step (List.mem_cons_of_mem _ mem))
          rw [changed] at later
          exact later

/-- If no write failed, the draft at the end has all of them applied. -/
theorem draft_answerAll {tx : τ} {calls : List GalleryCall}
    (written : Unfailing (GalleryCall.trace tx calls)) :
    TxView.draft (GalleryCall.answerAll tx calls).2 = (TxView.draft tx).writeAll calls := by
  induction calls generalizing tx with
  | nil => rfl
  | cons call calls ih =>
      rw [trace_cons] at written
      have changed := draft_run (written _ List.mem_cons_self)
      have later := ih fun step mem => written step (List.mem_cons_of_mem _ mem)
      rw [changed] at later
      exact later

end Reads

/-! ## Endings -/

section Endings

variable {σ τ β : Type} [GalleryTx τ] [TxView τ] [GalleryStore σ τ] [ParentStore σ]
  [StoreView σ τ]

theorem open_run [LawfulStore σ τ] {store : σ} {tx : τ} (opened : StoreView.Open store tx)
    (call : GalleryCall) : StoreView.Open store (call.run tx).2 := by
  cases call with
  | count | nextOrder | hasCover | list | get => exact opened
  | insert image => exact LawfulStore.open_insert image opened
  | setSortOrder id order => exact LawfulStore.open_setSortOrder id order opened
  | assignExclusiveCover id => exact LawfulStore.open_assignExclusiveCover id opened
  | delete id => exact LawfulStore.open_delete id opened

theorem open_answerAll [LawfulStore σ τ] {store : σ} {tx : τ} (opened : StoreView.Open store tx)
    (calls : List GalleryCall) : StoreView.Open store (GalleryCall.answerAll tx calls).2 := by
  induction calls generalizing tx with
  | nil => exact opened
  | cons call calls ih => exact ih (open_run opened call)

/-- The parent's records are those of the transaction, the other parents' are as before, and a
parent is listed if it has records. -/
structure Commits (store after : σ) (parent : String) (tx : τ) : Prop where
  own : GalleryStore.listImages after parent = GalleryTx.list tx
  others : ∀ other, other ≠ parent →
    GalleryStore.listImages after other = GalleryStore.listImages store other
  listed : parent ∈ GalleryStore.galleryParentIds after ↔
    GalleryStore.listImages after parent ≠ []
  othersListed : ∀ other, other ≠ parent →
    (other ∈ GalleryStore.galleryParentIds after ↔ other ∈ GalleryStore.galleryParentIds store)
  lastId_eq : StoreView.lastId after = (TxView.draft tx).lastId
  registry_eq : ParentStore.registry after = ParentStore.registry store

/-- What a transaction with some calls on a parent reads: the committed records with the writes
before applied. -/
def ReadsOwnWrites (manager : Manager σ β) (parent : String) (calls : List GalleryCall) : Prop :=
  ∀ earlier call result later,
    GalleryCall.trace (GalleryStore.start manager.store parent) calls =
        earlier ++ (call, result) :: later →
      Roomy (StoreView.images manager.store parent) →
      (∀ step ∈ earlier, step.1.order? ≠ some 4294967295) → Unfailing earlier →
      (Draft.writeAll
        ⟨parent, StoreView.images manager.store parent, StoreView.lastId manager.store⟩
        (earlier.map (·.1))).Answers call result

/-- What a transaction with some calls on a parent leaves, however it ends. -/
structure AllOrNothing [BlobStore β] (manager : Manager σ β) (parent : String)
    (calls : List GalleryCall) : Prop where
  dropped : (manager.take (.transaction parent calls false)).2 = manager
  refused : ∀ answers error,
    (manager.take (.transaction parent calls true)).1 = .committed answers (.error error) →
      (manager.take (.transaction parent calls true)).2 = manager
  committed : ∀ answers,
    (manager.take (.transaction parent calls true)).1 = .committed answers (.ok ()) →
      Commits manager.store (manager.take (.transaction parent calls true)).2.store parent
        (GalleryCall.answerAll (GalleryStore.start manager.store parent) calls).2
  /-- If no write failed, the records committed are the former ones with all writes applied. -/
  written : ∀ answers,
    (manager.take (.transaction parent calls true)).1 = .committed answers (.ok ()) →
      Unfailing (GalleryCall.trace (GalleryStore.start manager.store parent) calls) →
      StoreView.images (manager.take (.transaction parent calls true)).2.store parent =
        (Draft.writeAll
          ⟨parent, StoreView.images manager.store parent, StoreView.lastId manager.store⟩
          calls).images

variable [LawfulTx τ] [LawfulStore σ τ] [BlobStore β]

theorem commits_of_published {store after : σ} {parent : String} {tx : τ}
    (own : (TxView.draft tx).parent = parent) (published : Published store after (TxView.draft tx))
    (relisted : Relisted store after (TxView.draft tx)) : Commits store after parent tx := by
  subst own
  have records : GalleryStore.listImages after (TxView.draft tx).parent = GalleryTx.list tx := by
    rw [LawfulStore.listImages_eq, published.images_self, LawfulTx.list_eq]
  constructor
  · exact records
  · intro other differ
    rw [LawfulStore.listImages_eq, LawfulStore.listImages_eq, published.images_other other differ]
  · rw [relisted.own, LawfulStore.listImages_eq, published.images_self, ne_eq, ne_eq,
      ← List.length_eq_zero_iff, ← List.length_eq_zero_iff, (arrange_perm _).length_eq]
  · exact relisted.others
  · exact published.lastId_eq
  · exact published.registry_eq

omit [TxView τ] [LawfulTx τ] in
theorem kept_answerAll {kept : τ → Prop}
    (keeps : ∀ tx (call : GalleryCall), kept tx → kept (call.run tx).2) {tx : τ} (start : kept tx)
    (calls : List GalleryCall) : kept (GalleryCall.answerAll tx calls).2 := by
  induction calls generalizing tx with
  | nil => exact start
  | cons call calls ih => exact ih (keeps tx call start)

omit [BlobStore β] in
/-- Transactions whose reads succeed read their own writes. -/
theorem readsOwnWrites (kept : τ → Prop) (legible : ∀ tx, kept tx → Legible tx)
    (keeps : ∀ tx (call : GalleryCall), kept tx → kept (call.run tx).2) (manager : Manager σ β)
    (parent : String) (start : kept (GalleryStore.start manager.store parent))
    (calls : List GalleryCall) : ReadsOwnWrites manager parent calls := by
  intro earlier call result later traced roomy fits written
  have started := LawfulStore.draft_start manager.store parent
  rw [← started]
  refine answers_trace legible keeps start ?_ traced written fits
  rw [started]
  exact roomy

/-- Transactions of one parent, whose commits list the parents anew, are all or nothing. -/
theorem allOrNothing (manager : Manager σ β) (parent : String) (kept : τ → Prop)
    (keeps : ∀ tx (call : GalleryCall), kept tx → kept (call.run tx).2)
    (owned : ∀ tx, kept tx → (TxView.draft tx).parent = parent)
    (start : kept (GalleryStore.start manager.store parent))
    (relisted : ∀ (tx : τ) (after : σ), StoreView.Open manager.store tx →
      GalleryStore.commit tx manager.store = (.ok (), after) →
        Relisted manager.store after (TxView.draft tx)) (calls : List GalleryCall) :
    AllOrNothing manager parent calls := by
  have started := LawfulStore.draft_start manager.store parent
  have opened := open_answerAll (LawfulStore.open_start manager.store parent) calls
  have own := owned _ (kept_answerAll keeps start calls)
  cases ending : GalleryStore.commit
      (GalleryCall.answerAll (GalleryStore.start manager.store parent) calls).2
      manager.store with
  | mk result after =>
      have taken : manager.take (.transaction parent calls true) =
          (.committed (GalleryCall.answerAll (GalleryStore.start manager.store parent) calls).1
            result, { manager with store := after }) := by
        simp [Manager.take, ending]
      constructor
      · rfl
      · intro answers error answered
        rw [taken] at answered ⊢
        cases answered
        rw [LawfulStore.commit_of_error ending]
      · intro answers answered
        rw [taken] at answered ⊢
        cases answered
        exact commits_of_published own (LawfulStore.commit_of_ok opened ending)
          (relisted _ _ opened ending)
      · intro answers answered written
        rw [taken] at answered ⊢
        cases answered
        have published := LawfulStore.commit_of_ok opened ending
        have images := published.images_self
        rw [own] at images
        rw [images, draft_answerAll written, started]

end Endings

/-! ## Both stores -/

theorem MemoryTx.parent_run (tx : MemoryTx) (call : GalleryCall) :
    (call.run tx).2.parent = tx.parent := by
  cases call with
  | count | nextOrder | hasCover | list | get | insert | delete => rfl
  | setSortOrder id order =>
      simp only [GalleryCall.run, GalleryTx.setSortOrder, update]
      split <;> rfl
  | assignExclusiveCover id =>
      simp only [GalleryCall.run, GalleryTx.assignExclusiveCover, assignExclusiveCover]
      split <;> rfl

namespace DatabaseTx

theorem parent_touch (tx : DatabaseTx) (id : Int) (change : ImageRecord → ImageRecord) :
    (tx.touch id change).2.parent = tx.parent := by
  unfold touch
  split <;> rfl

theorem parent_insert (tx : DatabaseTx) (image : NewImage) :
    (tx.insert image).2.parent = tx.parent := by
  unfold insert
  split <;> rfl

end DatabaseTx

namespace FallibleTx

theorem refusals_attempt {τ α : Type} (tx : FallibleTx τ) (call : TxCall)
    (result : Except StoreError α × τ) : (tx.attempt call result).2.refusals = tx.refusals := by
  unfold attempt
  split <;> rfl

theorem refusals_run {τ : Type} [GalleryTx τ] (tx : FallibleTx τ) (call : GalleryCall) :
    (call.run tx).2.refusals = tx.refusals := by
  cases call with
  | count | nextOrder | hasCover | list | get | delete => rfl
  | insert | setSortOrder | assignExclusiveCover => exact refusals_attempt tx _ _

theorem parent_attempt {α : Type} {tx : FallibleTx DatabaseTx} (call : TxCall)
    {result : Except StoreError α × DatabaseTx} (same : result.2.parent = tx.inner.parent) :
    (tx.attempt call result).2.inner.parent = tx.inner.parent := by
  unfold attempt
  split
  · rfl
  · exact same

theorem parent_run (tx : FallibleTx DatabaseTx) (call : GalleryCall) :
    (call.run tx).2.inner.parent = tx.inner.parent := by
  cases call with
  | count | nextOrder | hasCover | list | get | delete => rfl
  | insert image => exact parent_attempt .insert (tx.inner.parent_insert image)
  | setSortOrder id order => exact parent_attempt .setSortOrder (tx.inner.parent_touch id _)
  | assignExclusiveCover id =>
      exact parent_attempt .assignExclusiveCover (DatabaseTx.parent_touch _ id _)

end FallibleTx

/-- Transactions of both stores end in all or nothing, whatever is refused, and read their own
writes. A database may refuse any writes and commits for that, but no reads. -/
theorem transactional_of_bothStores {β : Type} [BlobStore β] :
    (∀ (manager : Manager MemoryStore β) (parent : String) (calls : List GalleryCall),
      ReadsOwnWrites manager parent calls ∧ AllOrNothing manager parent calls) ∧
    ∀ (manager : Manager (Fallible Database) β) (parent : String) (calls : List GalleryCall),
      (Refusals.SparesReads manager.store.refusals → ReadsOwnWrites manager parent calls) ∧
        AllOrNothing manager parent calls := by
  constructor
  · intro manager parent calls
    constructor
    · exact readsOwnWrites (fun _ => True) (fun tx _ => PredictableTx.legible tx)
        (fun _ _ _ => trivial) manager parent trivial calls
    · refine allOrNothing manager parent (fun tx => tx.parent = parent) ?_ (fun _ own => own) rfl
        ?_ calls
      · intro tx call own
        exact (tx.parent_run call).trans own
      · intro tx after _ committed
        cases MemoryStore.commit_eq_ok committed
        exact manager.store.relisted_publish (TxView.draft tx)
  · intro manager parent calls
    constructor
    · intro spared
      refine readsOwnWrites (fun tx => Refusals.SparesReads tx.refusals)
        (fun tx kept => FallibleTx.legible kept (PredictableTx.legible tx.inner)) ?_ manager
        parent spared calls
      intro tx call kept
      exact (tx.refusals_run call).symm ▸ kept
    · refine allOrNothing manager parent (fun tx => tx.inner.parent = parent) ?_
        (fun _ own => own) rfl ?_ calls
      · intro tx call own
        exact (tx.parent_run call).trans own
      · intro tx after opened committed
        exact (LawfulStore.commit_of_ok opened committed).relisted
          (Fallible.listsOwners (Database.listsOwners _))
          (Fallible.listsOwners (Database.listsOwners _))

/-- A disk that has no room for a third write and for commits. -/
def fullDisk : Refusals := fun call tried =>
  match call with
  | .commit => some .commitRefused
  | .insert => if tried < 2 then none else some .commitRefused
  | _ => none

theorem transactional_fullDisk :
    Refusals.SparesReads fullDisk ∧
      ReadsOwnWrites (Manager.inDatabase fullDisk {} (Manager.lettered "a") ⟨id, 0⟩) "p"
        [.insert (Manager.fileless true 0), .insert (Manager.fileless false 1), .delete 1,
          .list] ∧
      AllOrNothing (Manager.inDatabase fullDisk {} (Manager.lettered "a") ⟨id, 0⟩) "p"
        [.insert (Manager.fileless true 0), .insert (Manager.fileless false 1), .delete 1,
          .list] := by
  have spared : Refusals.SparesReads fullDisk := fun _ => ⟨rfl, rfl⟩
  obtain ⟨reads, ends⟩ := transactional_of_bothStores.2
    (Manager.inDatabase fullDisk {} (Manager.lettered "a") ⟨id, 0⟩) "p"
    [.insert (Manager.fileless true 0), .insert (Manager.fileless false 1), .delete 1, .list]
  exact ⟨spared, reads spared, ends⟩

end ImageGallery
