import ImageGallery.Proofs.Stores

/-!
# Calls of a transaction that fail

A transaction is not over when one of its calls fails: its owner may go on and commit. In memory a
failing call leaves the transaction as it was. In a database this holds of all calls but one. The
cover is assigned by two statements, and if the second one finds no image, the first one has
already taken the flag from the cover.
-/

namespace ImageGallery

/-- A call of a transaction. -/
inductive GalleryCall where
  | count
  | nextOrder
  | hasCover
  | list
  | get (id : Int)
  | insert (image : NewImage)
  | setSortOrder (id : Int) (order : UInt32)
  | assignExclusiveCover (id : Int)
  | delete (id : Int)
deriving DecidableEq, Inhabited

/-- What a call of a transaction answers when it succeeds. -/
inductive GalleryAnswer where
  | number (value : UInt32)
  | flag (value : Bool)
  | images (images : List ImageRecord)
  | found (image : Option ImageRecord)
  | inserted (image : ImageRecord)
  | done
deriving DecidableEq, Inhabited

namespace GalleryCall

section Run

variable {τ : Type} [GalleryTx τ]

/-- Carry a call out. -/
def run (tx : τ) : GalleryCall → Except StoreError GalleryAnswer × τ
  | count => ((GalleryTx.count tx).map .number, tx)
  | nextOrder => ((GalleryTx.nextOrder tx).map .number, tx)
  | hasCover => (.ok (.flag (GalleryTx.hasCover tx)), tx)
  | list => (.ok (.images (GalleryTx.list tx)), tx)
  | get id => (.ok (.found (GalleryTx.get? tx id)), tx)
  | insert image => ((GalleryTx.insert tx image).1.map .inserted, (GalleryTx.insert tx image).2)
  | setSortOrder id order =>
    ((GalleryTx.setSortOrder tx id order).1.map fun _ => .done,
      (GalleryTx.setSortOrder tx id order).2)
  | assignExclusiveCover id =>
    ((GalleryTx.assignExclusiveCover tx id).1.map fun _ => .done,
      (GalleryTx.assignExclusiveCover tx id).2)
  | delete id => (.ok .done, GalleryTx.delete tx id)

/-- The transaction after some calls, whether they succeed or fail. -/
def runAll (tx : τ) (calls : List GalleryCall) : τ :=
  calls.foldl (fun tx call => (call.run tx).2) tx

end Run

/-- A transaction that shows what another one shows, and publishes what that one publishes. -/
structure Unaltered (σ : Type) {τ : Type} [GalleryTx τ] [GalleryStore σ τ] (tx after : τ) :
    Prop where
  list : GalleryTx.list after = GalleryTx.list tx
  count : GalleryTx.count after = GalleryTx.count tx
  nextOrder : GalleryTx.nextOrder after = GalleryTx.nextOrder tx
  hasCover : GalleryTx.hasCover after = GalleryTx.hasCover tx
  /-- Whatever is called before the commit. -/
  published : ∀ (calls : List GalleryCall) (store : σ),
    GalleryStore.commit (runAll after calls) store = GalleryStore.commit (runAll tx calls) store

theorem Unaltered.refl (σ : Type) {τ : Type} [GalleryTx τ] [GalleryStore σ τ] (tx : τ) :
    Unaltered σ tx tx :=
  ⟨rfl, rfl, rfl, rfl, fun _ _ => rfl⟩

theorem map_eq_error {α β : Type} {wrap : α → β} {result : Except StoreError α}
    {error : StoreError} (failed : result.map wrap = .error error) : result = .error error := by
  cases result with
  | ok value => cases failed
  | error other =>
      cases failed
      rfl

end GalleryCall

/-! ## In memory -/

namespace MemoryTx

theorem update_eq_error {tx after : MemoryTx} {id : Int} {change : ImageRecord → ImageRecord}
    {error : StoreError} (failed : tx.update id change = (.error error, after)) : after = tx := by
  unfold update at failed
  split at failed
  · cases failed
  · exact (Prod.mk.inj failed).2.symm

theorem assignExclusiveCover_eq_error {tx after : MemoryTx} {id : Int} {error : StoreError}
    (failed : tx.assignExclusiveCover id = (.error error, after)) : after = tx := by
  unfold assignExclusiveCover at failed
  split at failed
  · cases failed
  · exact (Prod.mk.inj failed).2.symm

/-- A failing call leaves the transaction as it was. -/
theorem eq_of_run_eq_error {tx after : MemoryTx} {call : GalleryCall} {error : StoreError}
    (failed : call.run tx = (.error error, after)) : after = tx := by
  obtain ⟨refused, same⟩ := Prod.mk.inj failed
  cases call with
  | count | nextOrder => exact same.symm
  | hasCover | list | get | delete => cases refused
  | insert image => cases refused
  | setSortOrder id order =>
      exact update_eq_error (Prod.ext (GalleryCall.map_eq_error refused) same)
  | assignExclusiveCover id =>
      exact assignExclusiveCover_eq_error (Prod.ext (GalleryCall.map_eq_error refused) same)

end MemoryTx

/-! ## In a database -/

namespace DatabaseTx

/-- The transaction without covers. -/
def uncovered (tx : DatabaseTx) : DatabaseTx :=
  { tx with
    working := tx.working.update (fun image => image.parentId = tx.parent)
      fun image => { image with isCover := false } }

theorem hasCover_uncovered (tx : DatabaseTx) : GalleryTx.hasCover tx.uncovered = false := by
  have rows : tx.uncovered.rows = _ := Database.rowsOf_update tx.working tx.parent
    (fun image => image.parentId = tx.parent) (fun image => { image with isCover := false })
    fun _ => rfl
  change tx.uncovered.rows.any (·.isCover) = false
  rw [rows, List.any_map, List.any_eq_false]
  intro image mem
  simp [Database.parentId_of_mem_rowsOf mem]

/-- Without covers there is no flag to take away. -/
theorem uncovered_eq_self {tx : DatabaseTx} (coverless : GalleryTx.hasCover tx = false) :
    tx.uncovered = tx := by
  change tx.rows.any (·.isCover) = false at coverless
  rw [List.any_eq_false] at coverless
  have same : tx.working.images.map (fun image =>
      if decide (image.parentId = tx.parent) then { image with isCover := false } else image) =
        tx.working.images := by
    conv_rhs => rw [← List.map_id tx.working.images]
    apply List.map_congr_left
    intro image mem
    split
    · rename_i own
      have flag := coverless image (List.mem_filter.mpr ⟨mem, own⟩)
      rw [Bool.not_eq_true] at flag
      rw [← flag]
      rfl
    · rfl
  rw [uncovered, Database.update, same]

theorem touch_eq_error {tx after : DatabaseTx} {id : Int} {change : ImageRecord → ImageRecord}
    {error : StoreError} (failed : tx.touch id change = (.error error, after)) : after = tx := by
  unfold touch at failed
  split at failed
  · cases failed
  · exact (Prod.mk.inj failed).2.symm

theorem insert_eq_error {tx after : DatabaseTx} {image : NewImage} {error : StoreError}
    (failed : tx.insert image = (.error error, after)) : after = tx := by
  unfold insert at failed
  split at failed
  · exact (Prod.mk.inj failed).2.symm
  · cases failed

/-- A failing call leaves the transaction as it was, or without covers if it was to assign one. -/
theorem cases_of_run_eq_error {tx after : DatabaseTx} {call : GalleryCall} {error : StoreError}
    (failed : call.run tx = (.error error, after)) :
    (∃ id, call = .assignExclusiveCover id) ∧ after = tx.uncovered ∨
      (¬∃ id, call = .assignExclusiveCover id) ∧ after = tx := by
  obtain ⟨refused, same⟩ := Prod.mk.inj failed
  cases call with
  | count | nextOrder => exact .inr ⟨by simp, same.symm⟩
  | hasCover | list | get | delete => cases refused
  | insert image =>
      exact .inr ⟨by simp, insert_eq_error (Prod.ext (GalleryCall.map_eq_error refused) same)⟩
  | setSortOrder id order =>
      exact .inr ⟨by simp, touch_eq_error (Prod.ext (GalleryCall.map_eq_error refused) same)⟩
  | assignExclusiveCover id =>
      exact .inl ⟨⟨id, rfl⟩, touch_eq_error (Prod.ext (GalleryCall.map_eq_error refused) same)⟩

end DatabaseTx

namespace GalleryCall

/-- A failing call alters nothing in memory. In a database it alters the transaction exactly if it
was to assign the cover and there was one. -/
theorem unaltered_of_error_iff (call : GalleryCall) (memory : MemoryTx) (database : DatabaseTx) :
    (∀ (error : StoreError) (after : MemoryTx),
      call.run memory = (.error error, after) → Unaltered MemoryStore memory after) ∧
    ∀ (error : StoreError) (after : DatabaseTx),
      call.run database = (.error error, after) →
        (Unaltered Database database after ↔
          ¬((∃ id, call = .assignExclusiveCover id) ∧ GalleryTx.hasCover database = true)) := by
  constructor
  · intro error after failed
    rw [MemoryTx.eq_of_run_eq_error failed]
    exact .refl MemoryStore memory
  · intro error after failed
    rcases DatabaseTx.cases_of_run_eq_error failed with ⟨assigning, rfl⟩ | ⟨other, rfl⟩
    · cases covered : GalleryTx.hasCover database with
      | false =>
          rw [DatabaseTx.uncovered_eq_self covered]
          exact ⟨fun _ both => Bool.false_ne_true both.2, fun _ => .refl Database database⟩
      | true =>
          refine ⟨fun unaltered => ?_, fun kept => absurd ⟨assigning, rfl⟩ kept⟩
          have flag := unaltered.hasCover
          rw [DatabaseTx.hasCover_uncovered, covered] at flag
          cases flag
    · exact ⟨fun _ both => other both.1, fun _ => .refl Database after⟩

/-- A database after one image, a cover, was inserted and committed. -/
def oneCover : Database :=
  let tx : DatabaseTx := GalleryStore.start ({} : Database) "p"
  (GalleryStore.commit (GalleryTx.insert tx
    { url := "u", storageKey := "k", isCover := true, sortOrder := 0, createdAt := "t" }).2
      ({} : Database)).2

/-- A position for an image that is not there. -/
theorem unaltered_setSortOrder_oneCover :
    (run (GalleryStore.start oneCover "p") (.setSortOrder 9 0)).1 =
        .error (.notMember 9 "p") ∧
      Unaltered Database (GalleryStore.start oneCover "p")
        (run (GalleryStore.start oneCover "p") (.setSortOrder 9 0)).2 := by
  have failed : (run (GalleryStore.start oneCover "p") (.setSortOrder 9 0)).1 =
    .error (.notMember 9 "p") := by decide
  have kept := (unaltered_of_error_iff (.setSortOrder 9 0)
    (GalleryStore.start ({} : MemoryStore) "p") (GalleryStore.start oneCover "p")).2 _ _
    (Prod.ext failed rfl)
  exact ⟨failed, kept.mpr (by simp)⟩

/-- The cover for an image that is not there: the transaction has no cover afterwards, and its
commit publishes that. -/
theorem assignExclusiveCover_oneCover :
    (run (GalleryStore.start oneCover "p") (.assignExclusiveCover 9)).1 =
        .error (.notMember 9 "p") ∧
      GalleryTx.hasCover (GalleryStore.start oneCover "p") = true ∧
      GalleryTx.hasCover (run (GalleryStore.start oneCover "p") (.assignExclusiveCover 9)).2 =
        false ∧
      (GalleryStore.commit
          (run (GalleryStore.start oneCover "p") (.assignExclusiveCover 9)).2 oneCover).2 ≠
        (GalleryStore.commit (GalleryStore.start oneCover "p") oneCover).2 := by
  decide

end GalleryCall

end ImageGallery
