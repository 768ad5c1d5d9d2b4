import ImageGallery.Proofs.Draft
import ImageGallery.Store.Fallible

/-!
# The stores keep the laws

The store in memory, the database, and either of them when it may refuse calls.
-/

namespace ImageGallery

/-! ## In memory -/

namespace MemoryTx

instance : TxView MemoryTx where
  draft tx := ⟨tx.parent, tx.staged, tx.lastId⟩

theorem count_eq_ok {tx : MemoryTx} {count : UInt32} (counted : tx.count = .ok count) :
    count.toNat = tx.staged.length := by
  unfold MemoryTx.count at counted
  split at counted
  · rename_i small
    cases counted
    exact UInt32.toNat_ofNat_of_lt' small
  · cases counted

/-- Without overflow the next position is that of the natural numbers. -/
theorem toNat_foldl_nextOrder (images : List ImageRecord) (greatest : UInt32)
    (small : ∀ image ∈ images, image.sortOrder.toNat + 1 < UInt32.size) :
    (images.foldl (fun greatest image => max greatest (image.sortOrder + 1)) greatest).toNat =
      images.foldl (fun greatest image => max greatest (image.sortOrder.toNat + 1))
        greatest.toNat := by
  induction images generalizing greatest with
  | nil => rfl
  | cons image images ih =>
      rw [List.forall_mem_cons] at small
      have succ : (image.sortOrder + 1).toNat = image.sortOrder.toNat + 1 := by
        rw [UInt32.toNat_add]
        exact Nat.mod_eq_of_lt small.1
      have greater : (max greatest (image.sortOrder + 1)).toNat =
          max greatest.toNat (image.sortOrder.toNat + 1) := by
        have unfolded : max greatest (image.sortOrder + 1) =
            if greatest ≤ image.sortOrder + 1 then image.sortOrder + 1 else greatest := rfl
        rw [unfolded, Nat.max_def, ← succ]
        simp only [UInt32.le_iff_toNat_le]
        split <;> rfl
      rw [List.foldl_cons, List.foldl_cons, ih _ small.2, greater]

theorem update_eq_ok {tx next : MemoryTx} {id : Int} {change : ImageRecord → ImageRecord}
    (updated : tx.update id change = (.ok (), next)) :
    next = { tx with
      staged := tx.staged.map fun image => if image.id = id then change image else image } := by
  unfold update at updated
  split at updated
  · exact (Prod.mk.inj updated).2.symm
  · cases updated

theorem assignExclusiveCover_eq_ok {tx next : MemoryTx} {id : Int}
    (assigned : tx.assignExclusiveCover id = (.ok (), next)) :
    next = { tx with
      staged := tx.staged.map fun image => { image with isCover := decide (image.id = id) } } := by
  unfold assignExclusiveCover at assigned
  split at assigned
  · exact (Prod.mk.inj assigned).2.symm
  · cases assigned

instance : LawfulTx MemoryTx where
  list_eq _ := rfl
  hasCover_eq _ := rfl
  get?_eq _ _ := rfl
  count_of_ok counted := count_eq_ok counted
  nextOrder_of_ok answered small := by
    cases answered
    exact toNat_foldl_nextOrder _ 0 small
  insert_of_ok inserted := by
    cases inserted
    exact ⟨rfl, rfl⟩
  setSortOrder_of_ok moved := by
    cases update_eq_ok moved
    rfl
  assignExclusiveCover_of_ok assigned := by
    cases assignExclusiveCover_eq_ok assigned
    rfl
  draft_delete _ _ := rfl

end MemoryTx

namespace MemoryStore

instance : StoreView MemoryStore MemoryTx where
  images := gallery
  lastId := lastId
  Open _ _ := True

theorem gallery_publish_self (store : MemoryStore) (parent : String) (images : List ImageRecord) :
    (store.publish parent images).gallery parent = images := by
  unfold publish gallery
  split
  · rename_i empty
    have unnamed : (store.galleries.filter fun entry => entry.1 ≠ parent).find?
        (fun entry => entry.1 = parent) = none := by
      rw [List.find?_eq_none]
      intro entry mem
      simpa using (List.mem_filter.mp mem).2
    rw [unnamed, List.isEmpty_iff.mp empty]
    rfl
  · simp

theorem gallery_publish_of_ne (store : MemoryStore) {parent other : String}
    (images : List ImageRecord) (differ : other ≠ parent) :
    (store.publish parent images).gallery other = store.gallery other := by
  have kept : (store.galleries.filter fun entry => entry.1 ≠ parent).find?
      (fun entry => entry.1 = other) = store.galleries.find? fun entry => entry.1 = other := by
    rw [List.find?_filter]
    congr 1
    funext entry
    by_cases named : entry.1 = other <;> simp [named, differ]
  unfold publish gallery
  split
  · rw [kept]
  · have unnamed : ¬parent = other := fun same => differ same.symm
    simp only [List.find?_cons, unnamed, decide_false]
    rw [kept]

theorem commit_eq_error {tx : MemoryTx} {store after : MemoryStore} {error : StoreError}
    (refused : commit tx store = (.error error, after)) : after = store := by
  unfold commit at refused
  split at refused
  · exact (Prod.mk.inj refused).2.symm
  · cases refused

theorem commit_eq_ok {tx : MemoryTx} {store after : MemoryStore}
    (committed : commit tx store = (.ok (), after)) :
    after = { store.publish tx.parent tx.staged with lastId := tx.lastId } := by
  unfold commit at committed
  split at committed
  · cases committed
  · exact (Prod.mk.inj committed).2.symm

instance : LawfulStore MemoryStore MemoryTx where
  listImages_eq _ _ := rfl
  draft_start _ _ := rfl
  open_start _ _ := trivial
  open_insert _ _ := trivial
  open_setSortOrder _ _ _ := trivial
  open_assignExclusiveCover _ _ := trivial
  open_delete _ _ := trivial
  commit_of_error refused := commit_eq_error refused
  commit_of_ok {store _ tx} _ committed := by
    cases commit_eq_ok committed
    exact
      { images_self := gallery_publish_self store tx.parent tx.staged
        images_other := fun _ differ => gallery_publish_of_ne store tx.staged differ
        lastId_eq := rfl
        registry_eq := rfl }
  registry_withRegistry _ _ := rfl
  images_withRegistry _ _ := rfl
  lastId_withRegistry _ _ := rfl

end MemoryStore

/-! ## In a database -/

namespace Database

theorem answer_eq_ok {value : Nat} {number : UInt32} (answered : answer value = .ok number) :
    number.toNat = value := by
  unfold answer at answered
  split at answered
  · rename_i small
    cases answered
    exact UInt32.toNat_ofNat_of_lt' small
  · cases answered

/-- Changing rows that are selected among those of one parent, without changing their parent. -/
theorem rowsOf_update (database : Database) (parent : String) (selects : ImageRecord → Bool)
    (change : ImageRecord → ImageRecord)
    (kept : ∀ image, (change image).parentId = image.parentId) :
    (database.update selects change).rowsOf parent =
      (database.rowsOf parent).map fun image =>
        if selects image then change image else image := by
  unfold update rowsOf
  rw [List.filter_map]
  congr 2
  funext image
  simp only [Function.comp_apply]
  split <;> simp [kept]

theorem parentId_of_mem_rowsOf {database : Database} {parent : String} {image : ImageRecord}
    (mem : image ∈ database.rowsOf parent) : image.parentId = parent := by
  simpa using (List.mem_filter.mp mem).2

/-- Changes of one parent's rows do not show in another's. -/
theorem rowsOf_update_of_ne (database : Database) {parent other : String}
    {selects : ImageRecord → Bool} (change : ImageRecord → ImageRecord)
    (kept : ∀ image, (change image).parentId = image.parentId)
    (own : ∀ image, selects image = true → image.parentId = parent) (differ : other ≠ parent) :
    (database.update selects change).rowsOf other = database.rowsOf other := by
  rw [rowsOf_update database other selects change kept]
  conv_rhs => rw [← List.map_id (database.rowsOf other)]
  apply List.map_congr_left
  intro image mem
  rw [if_neg]
  · rfl
  · intro selected
    apply differ
    rw [← own image selected, parentId_of_mem_rowsOf mem]

end Database

namespace DatabaseTx

instance : TxView DatabaseTx where
  draft tx := ⟨tx.parent, tx.rows, tx.working.sequence⟩

/-- Touching an image changes the rows of the parent that have its id. -/
theorem rows_of_touch {tx next : DatabaseTx} {id : Int} {change : ImageRecord → ImageRecord}
    (touched : tx.touch id change = (.ok (), next))
    (kept : ∀ image, (change image).parentId = image.parentId) :
    next.rows = tx.rows.map (fun image => if image.id = id then change image else image) ∧
      next.parent = tx.parent ∧ next.working.sequence = tx.working.sequence := by
  unfold touch at touched
  split at touched
  · cases (Prod.mk.inj touched).2
    refine ⟨?_, rfl, rfl⟩
    apply (Database.rowsOf_update _ _ _ _ kept).trans
    apply List.map_congr_left
    intro image mem
    simp [Database.parentId_of_mem_rowsOf mem]
  · cases touched

/-- Inserting an image adds its record to the rows. -/
theorem insert_eq_ok {tx next : DatabaseTx} {image : NewImage} {record : ImageRecord}
    (inserted : tx.insert image = (.ok record, next)) :
    record = { image with id := tx.working.sequence + 1, parentId := tx.parent } ∧
      next = { tx with
        working := { tx.working with
          images := tx.working.images ++ [record], sequence := record.id } } := by
  unfold insert at inserted
  split at inserted
  · cases inserted
  · cases inserted
    exact ⟨rfl, rfl⟩

theorem rows_delete (tx : DatabaseTx) (id : Int) :
    (tx.delete id).rows = tx.rows.filter fun image => image.id ≠ id := by
  unfold delete rows Database.rowsOf
  rw [List.filter_filter, List.filter_filter]
  apply List.filter_congr
  intro image _
  by_cases own : image.parentId = tx.parent <;> simp [own]

theorem assignExclusiveCover_eq_ok {tx next : DatabaseTx} {id : Int}
    (assigned : tx.assignExclusiveCover id = (.ok (), next)) :
    next.rows = tx.rows.map (fun image => { image with isCover := decide (image.id = id) }) ∧
      next.parent = tx.parent ∧ next.working.sequence = tx.working.sequence := by
  unfold assignExclusiveCover at assigned
  obtain ⟨rows, parent, sequence⟩ := rows_of_touch assigned fun _ => rfl
  have cleared : (tx.working.update (fun image => image.parentId = tx.parent)
      fun image => { image with isCover := false }).rowsOf tx.parent =
      tx.rows.map fun image =>
        if decide (image.parentId = tx.parent) then { image with isCover := false } else image :=
    Database.rowsOf_update _ _ _ _ fun _ => rfl
  refine ⟨?_, parent, sequence⟩
  rw [rows]
  apply (congrArg (List.map _) cleared).trans
  rw [List.map_map]
  apply List.map_congr_left
  intro image mem
  by_cases chosen : image.id = id <;> simp [Database.parentId_of_mem_rowsOf mem, chosen]

instance : LawfulTx DatabaseTx where
  list_eq _ := rfl
  hasCover_eq _ := rfl
  get?_eq _ _ := rfl
  count_of_ok counted := Database.answer_eq_ok counted
  nextOrder_of_ok answered _ := Database.answer_eq_ok answered
  insert_of_ok {tx _ _ _} inserted := by
    obtain ⟨rfl, rfl⟩ := insert_eq_ok inserted
    refine ⟨rfl, ?_⟩
    simp [TxView.draft, Draft.insert, Draft.recordOf, rows, Database.rowsOf]
  setSortOrder_of_ok moved := by
    obtain ⟨rows, parent, sequence⟩ := rows_of_touch moved fun _ => rfl
    simp [TxView.draft, Draft.move, rows, parent, sequence]
  assignExclusiveCover_of_ok assigned := by
    obtain ⟨rows, parent, sequence⟩ := assignExclusiveCover_eq_ok assigned
    simp [TxView.draft, Draft.cover, rows, parent, sequence]
  draft_delete tx id := by
    simp only [TxView.draft, Draft.remove, ← rows_delete]
    rfl

end DatabaseTx

namespace Database

instance : StoreView Database DatabaseTx where
  images := rowsOf
  lastId := sequence
  Open database tx :=
    (∀ other, other ≠ tx.parent → tx.working.rowsOf other = database.rowsOf other) ∧
      tx.working.parents = database.parents

theorem open_update {database : Database} {tx : DatabaseTx} {selects : ImageRecord → Bool}
    {change : ImageRecord → ImageRecord} (opened : StoreView.Open database tx)
    (kept : ∀ image, (change image).parentId = image.parentId)
    (own : ∀ image, selects image = true → image.parentId = tx.parent) :
    StoreView.Open database { tx with working := tx.working.update selects change } := by
  refine ⟨fun other differ => ?_, opened.2⟩
  exact (rowsOf_update_of_ne tx.working change kept own differ).trans (opened.1 other differ)

theorem open_touch {database : Database} {tx : DatabaseTx} (id : Int)
    {change : ImageRecord → ImageRecord} (opened : StoreView.Open database tx)
    (kept : ∀ image, (change image).parentId = image.parentId) :
    StoreView.Open database (tx.touch id change).2 := by
  unfold DatabaseTx.touch
  split
  · apply open_update opened kept
    intro image selected
    simp only [Bool.and_eq_true, decide_eq_true_eq] at selected
    exact selected.1
  · exact opened

instance : LawfulStore Database DatabaseTx where
  listImages_eq _ _ := rfl
  draft_start _ _ := rfl
  open_start _ _ := ⟨fun _ _ => rfl, rfl⟩
  open_insert {database tx} image opened := by
    simp only [GalleryTx.insert, DatabaseTx.insert]
    split
    · exact opened
    · refine ⟨fun other differ => ?_, opened.2⟩
      rw [← opened.1 other differ]
      simp [rowsOf, Ne.symm differ]
  open_setSortOrder id _ opened := open_touch id opened fun _ => rfl
  open_assignExclusiveCover id opened := by
    refine open_touch id (open_update opened (fun _ => rfl) fun image selected => ?_) fun _ => rfl
    simpa using selected
  open_delete {database tx} id opened := by
    refine ⟨fun other differ => ?_, opened.2⟩
    rw [← opened.1 other differ]
    simp only [GalleryTx.delete, DatabaseTx.delete, rowsOf, List.filter_filter]
    apply List.filter_congr
    intro image _
    by_cases own : image.parentId = other
    · subst own
      have foreign : ¬image.parentId = tx.parent := differ
      simp [foreign]
    · simp [own]
  commit_of_error refused := by cases refused
  commit_of_ok opened committed := by
    cases committed
    exact
      { images_self := rfl
        images_other := opened.1
        lastId_eq := rfl
        registry_eq := opened.2 }
  registry_withRegistry _ _ := rfl
  images_withRegistry _ _ := rfl
  lastId_withRegistry _ _ := rfl

end Database

/-! ## With refusals -/

namespace FallibleTx

variable {τ : Type}

instance [TxView τ] : TxView (FallibleTx τ) where
  draft tx := TxView.draft tx.inner

theorem ask_eq_ok {α : Type} {tx : FallibleTx τ} {call : TxCall} {answer : Except StoreError α}
    {value : α} (answered : tx.ask call answer = .ok value) : answer = .ok value := by
  unfold ask at answered
  split at answered
  · cases answered
  · exact answered

/-- An attempt that succeeds is the call of the transaction inside. -/
theorem attempt_eq_ok {α : Type} {tx next : FallibleTx τ} {call : TxCall}
    {result : Except StoreError α × τ} {value : α}
    (answered : tx.attempt call result = (.ok value, next)) : result = (.ok value, next.inner) := by
  unfold attempt at answered
  split at answered
  · cases answered
  · obtain ⟨value, rfl⟩ := Prod.mk.inj answered
    exact Prod.ext value rfl

/-- What holds of a transaction and is kept by a call is kept by an attempt. -/
theorem attempt_keeps {α : Type} {tx : FallibleTx τ} {call : TxCall}
    {result : Except StoreError α × τ} {kept : τ → Prop} (before : kept tx.inner)
    (after : kept result.2) : kept (tx.attempt call result).2.inner := by
  unfold attempt
  split
  · exact before
  · exact after

instance [GalleryTx τ] [TxView τ] [LawfulTx τ] : LawfulTx (FallibleTx τ) where
  list_eq tx := LawfulTx.list_eq tx.inner
  hasCover_eq tx := LawfulTx.hasCover_eq tx.inner
  get?_eq tx id := LawfulTx.get?_eq tx.inner id
  count_of_ok counted := by
    have inner := LawfulTx.count_of_ok (ask_eq_ok counted)
    exact inner
  nextOrder_of_ok answered small := by
    have inner := LawfulTx.nextOrder_of_ok (ask_eq_ok answered) small
    exact inner
  insert_of_ok inserted := by
    have inner := LawfulTx.insert_of_ok (attempt_eq_ok inserted)
    exact inner
  setSortOrder_of_ok moved := by
    have inner := LawfulTx.setSortOrder_of_ok (attempt_eq_ok moved)
    exact inner
  assignExclusiveCover_of_ok assigned := by
    have inner := LawfulTx.assignExclusiveCover_of_ok (attempt_eq_ok assigned)
    exact inner
  draft_delete tx id := LawfulTx.draft_delete tx.inner id

end FallibleTx

namespace Fallible

variable {σ τ : Type} [GalleryTx τ] [TxView τ] [GalleryStore σ τ] [ParentStore σ] [StoreView σ τ]

instance : StoreView (Fallible σ) (FallibleTx τ) where
  images store := StoreView.images store.inner
  lastId store := StoreView.lastId store.inner
  Open store tx := StoreView.Open store.inner tx.inner

omit [TxView τ] [ParentStore σ] [StoreView σ τ] in
theorem commit_eq_ok {store after : Fallible σ} {tx : FallibleTx τ}
    (committed : GalleryStore.commit tx store = (.ok (), after)) :
    GalleryStore.commit tx.inner store.inner = (.ok (), after.inner) := by
  simp only [GalleryStore.commit] at committed
  split at committed
  · cases committed
  · obtain ⟨value, rfl⟩ := Prod.mk.inj committed
    exact Prod.ext value rfl

instance [LawfulStore σ τ] : LawfulStore (Fallible σ) (FallibleTx τ) where
  listImages_eq store parent := LawfulStore.listImages_eq store.inner parent
  draft_start store parent := LawfulStore.draft_start store.inner parent
  open_start store parent := LawfulStore.open_start store.inner parent
  open_insert image opened :=
    FallibleTx.attempt_keeps opened (LawfulStore.open_insert image opened)
  open_setSortOrder id order opened :=
    FallibleTx.attempt_keeps opened (LawfulStore.open_setSortOrder id order opened)
  open_assignExclusiveCover id opened :=
    FallibleTx.attempt_keeps opened (LawfulStore.open_assignExclusiveCover id opened)
  open_delete {store tx} id opened := by
    have inner : StoreView.Open store.inner tx.inner := opened
    have kept := LawfulStore.open_delete id inner
    exact kept
  commit_of_error {store after tx error} refused := by
    simp only [GalleryStore.commit] at refused
    split at refused
    · exact (Prod.mk.inj refused).2.symm
    · obtain ⟨result, rfl⟩ := Prod.mk.inj refused
      have refused : GalleryStore.commit tx.inner store.inner =
          (.error error, (GalleryStore.commit tx.inner store.inner).2) := Prod.ext result rfl
      have inner := LawfulStore.commit_of_error refused
      exact congrArg (fun inner => { store with inner }) inner
  commit_of_ok {store _ tx} opened committed := by
    have inner : StoreView.Open store.inner tx.inner := opened
    have published := LawfulStore.commit_of_ok inner (commit_eq_ok committed)
    exact
      { images_self := published.images_self
        images_other := published.images_other
        lastId_eq := published.lastId_eq
        registry_eq := published.registry_eq }
  registry_withRegistry store registry := LawfulStore.registry_withRegistry store.inner registry
  images_withRegistry store registry := LawfulStore.images_withRegistry store.inner registry
  lastId_withRegistry store registry := LawfulStore.lastId_withRegistry store.inner registry

end Fallible

/-! ## What refusing does not touch -/

/-- Telling a store what to refuse changes nothing that it holds. -/
class LawfulRefusing (σ : Type) (τ ρ : outParam Type) [ParentStore σ] [StoreView σ τ]
    [Refusing σ ρ] : Prop where
  images_refuse (store : σ) (refusals : ρ) :
    StoreView.images (Refusing.refuse store refusals) = StoreView.images store
  lastId_refuse (store : σ) (refusals : ρ) :
    StoreView.lastId (Refusing.refuse store refusals) = StoreView.lastId store
  registry_refuse (store : σ) (refusals : ρ) :
    ParentStore.registry (Refusing.refuse store refusals) = ParentStore.registry store

instance : LawfulRefusing MemoryStore MemoryTx Bool where
  images_refuse _ _ := rfl
  lastId_refuse _ _ := rfl
  registry_refuse _ _ := rfl

instance {σ τ : Type} [ParentStore σ] [StoreView σ τ] :
    LawfulRefusing (Fallible σ) (FallibleTx τ) Refusals where
  images_refuse _ _ := rfl
  lastId_refuse _ _ := rfl
  registry_refuse _ _ := rfl

end ImageGallery
