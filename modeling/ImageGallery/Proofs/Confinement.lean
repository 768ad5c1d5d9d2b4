import ImageGallery.Proofs.Deleting
import ImageGallery.Proofs.PayloadValidation

/-!
# Operations keep to their parent

Ids are numbered across all galleries, but each operation is a transaction on the gallery of one
parent. Whether it succeeds or fails, the images and the record of every other parent stay as they
are. An image of another parent is not found by its id, and a payload can name it to no effect.

That no two parents ever share an id follows along the way: the images of a gallery are changed in
place or numbered anew.
-/

namespace ImageGallery

variable {σ τ ρ β : Type}

/-! ## What becomes of a draft -/

/-- The draft of the same parent later on: its images have ids from before, or new ones above the
greatest id from before. -/
structure Draft.Descends (draft next : Draft) : Prop where
  parent_eq : next.parent = draft.parent
  lastId_le : draft.lastId ≤ next.lastId
  ids : ∀ image ∈ next.images, image.id ∈ draft.images.map (·.id) ∨
    draft.lastId < image.id ∧ image.id ≤ next.lastId

namespace Draft

variable {draft next last : Draft}

theorem Descends.refl (draft : Draft) : draft.Descends draft :=
  ⟨rfl, Int.le_refl _, fun _ mem => .inl (List.mem_map_of_mem mem)⟩

theorem Descends.trans (earlier : draft.Descends next) (later : next.Descends last) :
    draft.Descends last where
  parent_eq := later.parent_eq.trans earlier.parent_eq
  lastId_le := Int.le_trans earlier.lastId_le later.lastId_le
  ids image mem := by
    have grown := later.lastId_le
    have start := earlier.lastId_le
    rcases later.ids image mem with known | new
    · obtain ⟨origin, originMem, same⟩ := List.mem_map.mp known
      rw [← same]
      exact (earlier.ids origin originMem).imp_right fun bounds => by omega
    · exact .inr (by omega)

/-- Images that keep their ids, some of which may be gone. -/
theorem Descends.of_ids {images : List ImageRecord}
    (old : images.map (·.id) ⊆ draft.images.map (·.id)) :
    draft.Descends { draft with images } :=
  ⟨rfl, Int.le_refl _, fun _ mem => .inl (old (List.mem_map_of_mem mem))⟩

/-- Images that are changed one by one without their ids. -/
theorem Descends.of_map {change : ImageRecord → ImageRecord}
    (kept : ∀ image, (change image).id = image.id) :
    draft.Descends { draft with images := draft.images.map change } := by
  refine .of_ids fun id mem => ?_
  rwa [List.map_map, Function.comp_def, funext kept] at mem

/-- A write keeps ids, takes some away or adds the next one. -/
theorem descends_write (draft : Draft) (call : GalleryCall) :
    draft.Descends (draft.write call) := by
  cases call with
  | count | nextOrder | hasCover | list | get => exact .refl draft
  | setSortOrder id order =>
      refine .of_map fun image => ?_
      split <;> rfl
  | assignExclusiveCover id => exact .of_map fun _ => rfl
  | delete id => exact .of_ids (List.filter_sublist.map _).subset
  | insert image =>
      refine ⟨rfl, Int.le_of_lt (Int.lt_succ _), fun other mem => ?_⟩
      rcases List.mem_append.mp mem with known | new
      · exact .inl (List.mem_map_of_mem known)
      · rw [List.mem_singleton.mp new]
        exact .inr ⟨Int.lt_succ _, Int.le_refl _⟩

end Draft

/-- Calls of a transaction leave a descendant of its draft, whether they succeed or fail. -/
class Descending (τ : Type) [GalleryTx τ] [TxView τ] : Prop where
  descends_run (tx : τ) (call : GalleryCall) :
    (TxView.draft tx).Descends (TxView.draft (call.run tx).2)

section Instances

/-- What is left to show for a transaction is what a call that fails does to its draft. -/
theorem Descending.of_error [GalleryTx τ] [TxView τ] [LawfulTx τ]
    (failed : ∀ {tx after : τ} {call : GalleryCall} {error : StoreError},
      call.run tx = (.error error, after) → (TxView.draft tx).Descends (TxView.draft after)) :
    Descending τ where
  descends_run tx call := by
    rcases ran : call.run tx with ⟨error | answer, after⟩
    · exact failed ran
    · have written : TxView.draft (call.run tx).2 = (TxView.draft tx).write call :=
        draft_run fun _ => ⟨answer, by rw [ran]⟩
      rw [ran] at written
      rw [written]
      exact Draft.descends_write _ call

instance : Descending MemoryTx := .of_error fun failed => by
  rw [MemoryTx.eq_of_run_eq_error failed]
  exact .refl _

/-- Also without covers the rows are those of before. -/
theorem DatabaseTx.descends_uncovered (tx : DatabaseTx) :
    (TxView.draft tx).Descends (TxView.draft tx.uncovered) := by
  have rows : tx.uncovered.rows = _ := Database.rowsOf_update tx.working tx.parent
    (fun image => image.parentId = tx.parent) (fun image => { image with isCover := false })
    fun _ => rfl
  change (TxView.draft tx).Descends ⟨tx.parent, tx.uncovered.rows, tx.working.sequence⟩
  rw [rows]
  exact .of_map fun image => by split <;> rfl

instance : Descending DatabaseTx := .of_error fun failed => by
  rcases DatabaseTx.cases_of_run_eq_error failed with ⟨-, rfl⟩ | ⟨-, rfl⟩
  · exact DatabaseTx.descends_uncovered _
  · exact .refl _

instance [GalleryTx τ] [TxView τ] [Descending τ] : Descending (FallibleTx τ) where
  descends_run tx call := by
    have inner := Descending.descends_run tx.inner call
    cases call with
    | count | nextOrder | hasCover | list | get => exact .refl _
    | delete id => exact inner
    | insert | setSortOrder | assignExclusiveCover =>
        exact @FallibleTx.attempt_keeps τ _ tx _ _
          (fun next => (TxView.draft tx.inner).Descends (TxView.draft next)) (.refl _) inner

end Instances

/-! ## What becomes of a store -/

/-- A store after something was done to the gallery of a parent. Other galleries and the records
of other parents are as before, and ids are those of before or new. -/
structure ConfinedTo [ParentStore σ] [StoreView σ τ] (parent : String) (store after : σ) :
    Prop where
  images : ∀ other, other ≠ parent → StoreView.images after other = StoreView.images store other
  record : ∀ other, other ≠ parent →
    (ParentStore.registry after).find? other = (ParentStore.registry store).find? other
  lastId_le : StoreView.lastId store ≤ StoreView.lastId after
  ids : ∀ image ∈ StoreView.images after parent,
    image.id ∈ (StoreView.images store parent).map (·.id) ∨
      StoreView.lastId store < image.id ∧ image.id ≤ StoreView.lastId after

/-- No two parents have images of one id, and no image has a greater one than the last. -/
structure Apart [StoreView σ τ] (store : σ) : Prop where
  disjoint : ∀ {parent other : String}, other ≠ parent → ∀ image ∈ StoreView.images store parent,
    ∀ foreign ∈ StoreView.images store other, image.id ≠ foreign.id
  bounded : ∀ parent, ∀ image ∈ StoreView.images store parent,
    image.id ≤ StoreView.lastId store

section Stores

variable [ParentStore σ] [StoreView σ τ] {store after : σ} {parent : String}

theorem ConfinedTo.refl (parent : String) (store : σ) : ConfinedTo parent store store where
  images _ _ := rfl
  record _ _ := rfl
  lastId_le := Int.le_refl _
  ids _ mem := .inl (List.mem_map_of_mem mem)

theorem Published.confinedTo {draft : Draft} (published : Published store after draft)
    (descends : Draft.Descends ⟨parent, StoreView.images store parent, StoreView.lastId store⟩
      draft) : ConfinedTo parent store after := by
  obtain rfl : draft.parent = parent := descends.parent_eq
  constructor
  · exact published.images_other
  · intro other _
    rw [published.registry_eq]
  · rw [published.lastId_eq]
    exact descends.lastId_le
  · rw [published.images_self, published.lastId_eq]
    exact descends.ids

omit [ParentStore σ] in
theorem Apart.of_empty (empty : ∀ parent, StoreView.images store parent = []) : Apart store where
  disjoint _ image mem := by simp [empty] at mem
  bounded parent := by simp [empty]

/-- What is done to one gallery keeps parents apart: new ids are above all others. -/
theorem ConfinedTo.apart (confined : ConfinedTo parent store after) (apart : Apart store) :
    Apart after := by
  have own {other : String} (differ : other ≠ parent) {image foreign : ImageRecord}
      (mem : image ∈ StoreView.images after parent)
      (foreignMem : foreign ∈ StoreView.images after other) : image.id ≠ foreign.id := by
    rw [confined.images other differ] at foreignMem
    rcases confined.ids image mem with known | new
    · obtain ⟨origin, originMem, same⟩ := List.mem_map.mp known
      rw [← same]
      exact apart.disjoint differ origin originMem foreign foreignMem
    · have bound := apart.bounded other foreign foreignMem
      omega
  constructor
  · intro first second differ image mem foreign foreignMem
    by_cases firstOwn : first = parent
    · subst firstOwn
      exact own differ mem foreignMem
    by_cases secondOwn : second = parent
    · subst secondOwn
      exact (own firstOwn foreignMem mem).symm
    rw [confined.images first firstOwn] at mem
    rw [confined.images second secondOwn] at foreignMem
    exact apart.disjoint differ image mem foreign foreignMem
  · intro other image mem
    by_cases otherOwn : other = parent
    · subst otherOwn
      rcases confined.ids image mem with known | new
      · obtain ⟨origin, originMem, same⟩ := List.mem_map.mp known
        rw [← same]
        exact Int.le_trans (apart.bounded other origin originMem) confined.lastId_le
      · exact new.2
    · rw [confined.images other otherOwn] at mem
      exact Int.le_trans (apart.bounded other image mem) confined.lastId_le

end Stores

/-! ## Steps -/

/-- The parent that a call is about. -/
def Call.parent : Call → String
  | .register parent _ | .upload parent _ | .delete parent _ | .setCover parent _
  | .reorder parent _ | .list parent => parent

/-- The parent that a step is about, if there is one. -/
def StoreStep.parent? : StoreStep → Option String
  | .call operation => some operation.parent
  | .fetch parent | .images parent | .transaction parent _ _ => some parent
  | .galleries => none

/-- The parent that an activity is about, if there is one. -/
def Activity.parent? : Activity ρ β → Option String
  | .take step => step.parent?
  | .refuse _ | .disturb _ => none

namespace Manager

section Steps

variable [GalleryTx τ] [TxView τ] [LawfulTx τ] [Descending τ] [GalleryStore σ τ] [ParentStore σ]
  [StoreView σ τ] [LawfulStore σ τ] {manager : Manager σ β} {parentId : String}

omit [LawfulTx τ] [GalleryStore σ τ] [ParentStore σ] [StoreView σ τ] [LawfulStore σ τ] in
theorem descends_place {tx next : τ} {plan : List (Int × UInt32)}
    (placed : place tx plan = .ok next) : (TxView.draft tx).Descends (TxView.draft next) := by
  induction plan generalizing tx with
  | nil =>
      cases placed
      exact .refl _
  | cons move plan ih =>
      obtain ⟨middle, moved, rest⟩ := exists_of_place_cons placed
      have first := Descending.descends_run tx (.setSortOrder move.1 move.2)
      rw [GalleryCall.run, moved] at first
      exact first.trans (ih rest)

omit [LawfulTx τ] [GalleryStore σ τ] [ParentStore σ] [StoreView σ τ] [LawfulStore σ τ] in
theorem descends_takeOut {tx next : τ} {target : ImageRecord} {promoted : Option Int}
    (taken : takeOut tx target = .ok (promoted, next)) :
    (TxView.draft tx).Descends (TxView.draft next) := by
  obtain ⟨middle, placed, way⟩ := takeOut_cases taken
  have removed := Descending.descends_run tx (.delete target.id)
  have assigned : (TxView.draft (GalleryTx.delete tx target.id)).Descends
      (TxView.draft middle) := by
    rcases way with ⟨first, others, -, -, -, assigned⟩ | ⟨-, -, rfl⟩
    · have covered := Descending.descends_run (GalleryTx.delete tx target.id)
        (.assignExclusiveCover first.id)
      rwa [GalleryCall.run, assigned] at covered
    · exact .refl _
  exact (removed.trans assigned).trans (descends_place placed)

omit [LawfulTx τ] [Descending τ] in
/-- Committing a transaction of a parent, or failing to, is confined to the parent. -/
theorem confinedTo_commit {store : σ} {tx : τ} (opened : StoreView.Open store tx)
    (descends : (TxView.draft (GalleryStore.start store parentId)).Descends (TxView.draft tx)) :
    ConfinedTo parentId store (GalleryStore.commit tx store).2 := by
  rw [LawfulStore.draft_start] at descends
  rcases ending : GalleryStore.commit tx store with ⟨_ | _, after⟩
  · rw [LawfulStore.commit_of_error ending]
    exact .refl parentId store
  · exact (LawfulStore.commit_of_ok opened ending).confinedTo descends

omit [LawfulTx τ] [Descending τ] in
theorem confinedTo_commitWith {α : Type} {tx : τ} (value : α)
    (opened : StoreView.Open manager.store tx)
    (descends : (TxView.draft (GalleryStore.start manager.store parentId)).Descends
      (TxView.draft tx)) :
    ConfinedTo parentId manager.store (manager.commitWith tx value).2.store := by
  have committed := confinedTo_commit opened descends
  unfold commitWith
  split
  · rename_i ending
    rwa [ending] at committed
  · rename_i ending
    rwa [ending] at committed

omit [LawfulTx τ] in
theorem confinedTo_transaction [BlobStore β] (manager : Manager σ β) (parentId : String)
    (calls : List GalleryCall) (commits : Bool) :
    ConfinedTo parentId manager.store
      (manager.take (.transaction parentId calls commits)).2.store := by
  cases commits with
  | false => exact .refl _ _
  | true =>
      refine confinedTo_commit (open_answerAll (LawfulStore.open_start _ _) calls) ?_
      have descends : ∀ (tx : τ) (call : GalleryCall),
          (TxView.draft (GalleryStore.start manager.store parentId)).Descends (TxView.draft tx) →
            (TxView.draft (GalleryStore.start manager.store parentId)).Descends
              (TxView.draft (call.run tx).2) :=
        fun tx call descends => descends.trans (Descending.descends_run tx call)
      exact kept_answerAll descends (.refl _) calls

theorem confinedTo_rearrange (manager : Manager σ β) (parentId : String)
    (items : List ReorderItem) :
    ConfinedTo parentId manager.store (manager.rearrange parentId items).2.store := by
  unfold rearrange
  split
  · exact .refl _ _
  · dsimp only
    split
    · exact .refl _ _
    · rename_i placed
      exact confinedTo_commitWith _ (place_of_ok (LawfulStore.open_start _ _) placed).1
        (descends_place placed)

variable [BlobStore β]

theorem confinedTo_withdraw (manager : Manager σ β) (parentId : String) (id : Int) :
    ConfinedTo parentId manager.store (manager.withdraw parentId id).2.store := by
  unfold withdraw
  dsimp only
  split
  · exact .refl _ _
  · split
    · exact .refl _ _
    · rename_i taken
      have confined := confinedTo_commitWith ()
        (open_takeOut (LawfulStore.open_start manager.store parentId) taken)
        (descends_takeOut taken)
      split
      · rename_i refused
        rwa [refused] at confined
      · rename_i committed
        rw [committed] at confined
        dsimp only
        split <;> exact confined

omit [Descending τ] [BlobStore β] in
theorem confinedTo_flag (manager : Manager σ β) (parentId : String) (id : Int) :
    ConfinedTo parentId manager.store (manager.flag parentId id).2.store := by
  rcases flagged : manager.flag parentId id with ⟨_ | image, after⟩
  · rw [flag_of_error flagged]
    exact .refl _ _
  · exact (flag_of_ok flagged).2.1.confinedTo (.of_map fun _ => rfl)

omit [Descending τ] in
theorem confinedTo_receive (manager : Manager σ β) (parentId : String) (uploads : List Upload) :
    ConfinedTo parentId manager.store (manager.receive parentId uploads).2.store := by
  rcases received : manager.receive parentId uploads with ⟨_ | records, after⟩
  · rw [(receive_of_error received).1]
    exact .refl _ _
  · obtain ⟨parent, taken, saved, order, rfl, -, -, stored⟩ := receive_of_ok received
    refine stored.published.confinedTo ⟨rfl, ?_, fun image mem => ?_⟩
    · exact Int.le_add_of_nonneg_right (Int.natCast_nonneg _)
    · rcases List.mem_append.mp mem with known | new
      · exact .inl (List.mem_map_of_mem known)
      · have bounds := stored.id_bounds new
        rw [stored.published.lastId_eq] at bounds
        exact .inr bounds

omit [LawfulTx τ] [Descending τ] in
theorem confinedTo_register (manager : Manager σ β) (parentId scope : String) :
    ConfinedTo parentId manager.store (manager.register parentId scope).2.store := by
  have found := manager.find?_register parentId scope
  rcases registered : manager.register parentId scope with ⟨_ | record, after⟩
  · rw [(register_of_error registered).1]
    exact .refl _ _
  · obtain ⟨now, registry, -, stored, -⟩ := register_of_ok registered
    have record (other : String) (differ : other ≠ parentId) :
        (ParentStore.registry after.store).find? other =
          (ParentStore.registry manager.store).find? other := by
      have entered := found other
      change (ParentStore.registry (manager.register parentId scope).2.store).find? other = _
        at entered
      rw [registered] at entered
      rw [entered, firstFor_singleton]
      have unnamed : ¬(manager.asked parentId scope).id = other := fun same => differ same.symm
      simp [unnamed]
    refine ⟨?_, record, ?_, ?_⟩
    · intro other _
      rw [stored, LawfulStore.images_withRegistry]
    · rw [stored, LawfulStore.lastId_withRegistry]
    · rw [stored, LawfulStore.images_withRegistry]
      exact fun image mem => .inl (List.mem_map_of_mem mem)

/-- Every step is confined to the parent that it is about. -/
theorem confinedTo_take (manager : Manager σ β) {step : StoreStep}
    (about : step.parent? = some parentId) :
    ConfinedTo parentId manager.store (manager.take step).2.store := by
  cases step with
  | galleries => cases about
  | fetch parent | images parent => exact .refl _ _
  | transaction parent calls commits =>
      cases about
      exact manager.confinedTo_transaction parentId calls commits
  | call call =>
      cases about
      cases call with
      | register parent scope => exact manager.confinedTo_register parent scope
      | upload parent uploads => exact manager.confinedTo_receive parent uploads
      | delete parent id => exact manager.confinedTo_withdraw parent id
      | setCover parent id => exact manager.confinedTo_flag parent id
      | reorder parent items => exact manager.confinedTo_rearrange parent items
      | list parent => exact .refl _ _

end Steps

/-! ## Runs -/

section Runs

variable [GalleryTx τ] [TxView τ] [LawfulTx τ] [Descending τ] [GalleryStore σ τ] [ParentStore σ]
  [StoreView σ τ] [LawfulStore σ τ] [BlobStore β] [Refusing σ ρ] [LawfulRefusing σ τ ρ]
  {manager : Manager σ β} {parentId : String}

/-- An activity is confined to the parent that it is about, or to any if it is about none. -/
theorem confinedTo_act (manager : Manager σ β) {activity : Activity ρ β}
    (about : ∀ other, activity.parent? = some other → other = parentId) :
    ConfinedTo parentId manager.store (manager.act activity).store := by
  cases activity with
  | disturb change => exact .refl _ _
  | refuse refusals =>
      have same := LawfulRefusing.images_refuse manager.store refusals
      have last := LawfulRefusing.lastId_refuse manager.store refusals
      refine ⟨fun other _ => congrFun same other, fun other _ => ?_, Int.le_of_eq last.symm, ?_⟩
      · exact congrArg (·.find? other) (LawfulRefusing.registry_refuse manager.store refusals)
      · intro image mem
        exact .inl (List.mem_map_of_mem (congrFun same parentId ▸ mem))
  | take step =>
      cases named : step.parent? with
      | some parent =>
          obtain rfl := about parent named
          exact manager.confinedTo_take named
      | none =>
          cases step with
          | galleries => exact .refl _ _
          | call | fetch | images | transaction => cases named

/-- No two parents ever share an id. -/
theorem apart_actAll (apart : Apart manager.store) (activities : List (Activity ρ β)) :
    Apart (manager.actAll activities).store := by
  induction activities generalizing manager with
  | nil => exact apart
  | cons activity activities ih =>
      have confined : ConfinedTo (activity.parent?.getD "") manager.store
          (manager.act activity).store := by
        refine manager.confinedTo_act fun other named => ?_
        rw [named]
        rfl
      exact ih (confined.apart apart)

/-- Whatever is done to other parents leaves the images of a parent and its record alone. -/
theorem spared_actAll (manager : Manager σ β) {activities : List (Activity ρ β)}
    (spared : ∀ activity ∈ activities, activity.parent? ≠ some parentId) :
    StoreView.images (manager.actAll activities).store parentId =
        StoreView.images manager.store parentId ∧
      (ParentStore.registry (manager.actAll activities).store).find? parentId =
        (ParentStore.registry manager.store).find? parentId := by
  induction activities generalizing manager with
  | nil => exact ⟨rfl, rfl⟩
  | cons activity activities ih =>
      obtain ⟨first, others⟩ := List.forall_mem_cons.mp spared
      have ⟨images, record⟩ := @ih (manager.act activity) others
      obtain ⟨owner, differ, about⟩ : ∃ owner, parentId ≠ owner ∧
          ∀ other, activity.parent? = some other → other = owner := by
        cases named : activity.parent? with
        | some owner => exact ⟨owner, fun same => first (same ▸ named), by simp⟩
        | none =>
            have : Nontrivial String := ⟨"p", "q", by decide⟩
            obtain ⟨owner, differ⟩ := exists_ne parentId
            exact ⟨owner, differ.symm, by simp⟩
      have confined := manager.confinedTo_act about
      exact ⟨images.trans (confined.images parentId differ),
        record.trans (confined.record parentId differ)⟩

end Runs

/-! ## Ids of other parents -/

section Foreign

variable [GalleryTx τ] [TxView τ] [LawfulTx τ] [GalleryStore σ τ] [ParentStore σ]
  [StoreView σ τ] [LawfulStore σ τ] {manager : Manager σ β} {parentId : String}

/-- An id is not found in a gallery, neither to delete its image nor to make it the cover, and
nothing changes but a counter. -/
structure NotFound [BlobStore β] (manager : Manager σ β) (parentId : String) (id : Int) : Prop where
  delete_eq : manager.delete parentId id =
    (.error (.imageNotFound id), manager.tally (.operations .delete false) 1)
  setCover_eq : manager.setCover parentId id =
    (.error (.imageNotFound id), manager.tally (.operations .setCover false) 1)
  code_eq : (GalleryError.imageNotFound id).code = "NotFound"

theorem notFound_of_absent [BlobStore β] {id : Int}
    (absent : ∀ image ∈ GalleryStore.listImages manager.store parentId, image.id ≠ id) :
    NotFound manager parentId id := by
  have missing : GalleryTx.get? (GalleryStore.start manager.store parentId) id = none := by
    rw [LawfulTx.get?_eq, LawfulStore.draft_start, List.find?_eq_none]
    intro image mem same
    exact absent image (mem_listImages_iff.mpr mem) (of_decide_eq_true same)
  constructor
  · rw [delete, withdraw]
    dsimp only
    rw [missing]
    rfl
  · rw [setCover, flag, missing]
    rfl
  · rfl

end Foreign

/-! ## Items that name other images -/

end Manager

/-- An item with an id and a position, where the id is that of none of some images. -/
def ReorderItem.strangeTo (images : List ImageRecord) (item : ReorderItem) : Bool :=
  match item.integer? .id, item.integer? .order with
  | some id, some _ => images.all fun image => image.id ≠ id
  | _, _ => false

section Strange

variable {images : List ImageRecord} {items other : List ReorderItem}

theorem ReorderItem.strangeTo_iff {item : ReorderItem} : item.strangeTo images ↔
    item.Complete ∧ ∀ image ∈ images, item.integer? .id ≠ some image.id := by
  rw [complete_iff, strangeTo]
  cases item.integer? .id with
  | none => simp
  | some id =>
      cases item.integer? .order with
      | none => simp
      | some order =>
          have complete : ∃ own wanted, some id = some own ∧ some order = some wanted :=
            ⟨id, order, rfl, rfl⟩
          rw [and_iff_right complete]
          dsimp only
          rw [List.all_eq_true]
          refine forall₂_congr fun image _ => ?_
          rw [decide_eq_true_iff, ne_eq, ne_eq, Option.some.injEq, eq_comm]

/-- The items of a payload that are not strange to some images. -/
def ownItems (images : List ImageRecord) (items : List ReorderItem) : List ReorderItem :=
  items.filter fun item => !item.strangeTo images

/-- Strange items lack nothing. -/
theorem forall_complete_iff : (∀ item ∈ items, item.Complete) ↔
    ∀ item ∈ ownItems images items, item.Complete := by
  constructor
  · exact fun complete item mem => complete item (List.mem_of_mem_filter mem)
  · intro complete item mem
    cases strange : item.strangeTo images with
    | true => exact (ReorderItem.strangeTo_iff.mp strange).1
    | false => exact complete item (List.mem_filter.mpr ⟨mem, by rw [strange]; rfl⟩)

/-- Strange items ask for nothing. -/
theorem lastOrder?_ownItems {image : ImageRecord} (mem : image ∈ images) :
    lastOrder? (ownItems images items) image.id = lastOrder? items image.id := by
  rw [lastOrder?, lastOrder?, ownItems, List.filterMap_filter]
  refine congrArg _ (List.filterMap_congr fun item _ => ?_)
  cases strange : item.strangeTo images with
  | false => rfl
  | true =>
      have unnamed := (ReorderItem.strangeTo_iff.mp strange).2 image mem
      exact (if_neg unnamed).symm

end Strange

namespace Manager

section Strange

variable [GalleryTx τ] [TxView τ] [LawfulTx τ] [GalleryStore σ τ] [ParentStore σ]
  [StoreView σ τ] [LawfulStore σ τ] {manager : Manager σ β} {parentId : String}

omit [TxView τ] [LawfulTx τ] [ParentStore σ] [StoreView σ τ] [LawfulStore σ τ] in
theorem reorder_of_refused (manager : Manager σ β) (parentId : String) {items : List ReorderItem}
    (refused : ¬∃ positions, Positions.ofItems items = .ok positions) :
    ∃ error, manager.reorder parentId items =
      (.error error, manager.tally (.operations .reorder false) 1) := by
  rcases rejected : Positions.ofItems items with error | positions
  · exact ⟨error, (validatedExactly items).unopened rejected manager parentId⟩
  · exact absurd ⟨positions, rejected⟩ refused

/-- Payloads with the same items but for strange ones do the same, and are refused together. -/
theorem reorder_ownItems {items other : List ReorderItem} (some_items : items ≠ [])
    (some_other : other ≠ [])
    (agree : ownItems (GalleryStore.listImages manager.store parentId) other =
      ownItems (GalleryStore.listImages manager.store parentId) items) :
    (manager.reorder parentId other).2 = (manager.reorder parentId items).2 ∧
      (manager.reorder parentId other).1.toOption =
        (manager.reorder parentId items).1.toOption := by
  have together : (∃ positions, Positions.ofItems other = .ok positions) ↔
      ∃ positions, Positions.ofItems items = .ok positions := by
    rw [Positions.exists_ofItems_iff, Positions.exists_ofItems_iff, forall_complete_iff, agree,
      ← forall_complete_iff]
    exact and_congr_left fun _ => iff_of_true some_other some_items
  by_cases accepted : ∃ positions, Positions.ofItems items = .ok positions
  · have same : manager.rearrange parentId other = manager.rearrange parentId items := by
      refine rearrange_congr accepted (together.mpr accepted) fun image mem => ?_
      rw [← lastOrder?_ownItems mem, agree, lastOrder?_ownItems mem]
    rw [reorder, reorder, same]
    exact ⟨rfl, rfl⟩
  · obtain ⟨error, refused⟩ := manager.reorder_of_refused parentId accepted
    obtain ⟨otherError, otherRefused⟩ :=
      manager.reorder_of_refused parentId fun good => accepted (together.mp good)
    rw [refused, otherRefused]
    exact ⟨rfl, rfl⟩

end Strange

/-! ## Confinement -/

section Keeping

variable [GalleryTx τ] [GalleryStore σ τ] [ParentStore σ] [StoreView σ τ] [BlobStore β]
  [Refusing σ ρ]

/-- What is done to a parent and what is done to others stays apart. -/
structure KeepsToParent (manager : Manager σ β) (parentId : String) : Prop where
  /-- Whatever is done to the parent, and whether it succeeds or fails, another one has its images
  and its record as before. -/
  others {step : StoreStep} (about : step.parent? = some parentId) (other : String)
    (differ : other ≠ parentId) :
    GalleryStore.listImages (manager.take step).2.store other =
        GalleryStore.listImages manager.store other ∧
      (ParentStore.registry (manager.take step).2.store).find? other =
        (ParentStore.registry manager.store).find? other
  /-- Nor does anything that happens to others, in whatever order, reach the parent. -/
  spared {activities : List (Activity ρ β)}
    (spared : ∀ activity ∈ activities, activity.parent? ≠ some parentId) :
    GalleryStore.listImages (manager.actAll activities).store parentId =
        GalleryStore.listImages manager.store parentId ∧
      (ParentStore.registry (manager.actAll activities).store).find? parentId =
        (ParentStore.registry manager.store).find? parentId
  absent {id : Int}
    (absent : ∀ image ∈ GalleryStore.listImages manager.store parentId, image.id ≠ id) :
    NotFound manager parentId id
  /-- The images of other parents are not found, now and whatever happens. -/
  foreign (apart : Apart manager.store) (activities : List (Activity ρ β)) {other : String}
    (differ : other ≠ parentId) {image : ImageRecord}
    (mem : image ∈ GalleryStore.listImages (manager.actAll activities).store other) :
    NotFound (manager.actAll activities) parentId image.id
  /-- Items that name no image of the parent have no influence on what a payload does. -/
  strange {items other : List ReorderItem} (some_items : items ≠ []) (some_other : other ≠ [])
    (agree : ownItems (GalleryStore.listImages manager.store parentId) other =
      ownItems (GalleryStore.listImages manager.store parentId) items) :
    (manager.reorder parentId other).2 = (manager.reorder parentId items).2 ∧
      (manager.reorder parentId other).1.toOption = (manager.reorder parentId items).1.toOption

variable [TxView τ] [LawfulTx τ] [Descending τ] [LawfulStore σ τ] [LawfulRefusing σ τ ρ]

/-- In a store that is lawful, everything keeps to its parent. -/
theorem keepsToParent_of_lawful (manager : Manager σ β) (parentId : String) :
    KeepsToParent manager parentId where
  others {_} about other differ := by
    have confined := manager.confinedTo_take about
    rw [LawfulStore.listImages_eq, LawfulStore.listImages_eq, confined.images other differ]
    exact ⟨rfl, confined.record other differ⟩
  spared {_} spared := by
    obtain ⟨images, record⟩ := manager.spared_actAll spared
    rw [LawfulStore.listImages_eq, LawfulStore.listImages_eq, images]
    exact ⟨rfl, record⟩
  absent {_} absent := notFound_of_absent absent
  foreign apart activities {_} differ {_} mem := by
    refine notFound_of_absent fun own ownMem => ?_
    rw [mem_listImages_iff] at mem ownMem
    exact (apart_actAll apart activities).disjoint differ own ownMem _ mem
  strange {_ _} some_items some_other agree := reorder_ownItems some_items some_other agree

end Keeping

/-- In a run from an empty store no two parents ever share an id. -/
theorem apart_of_empty [BlobStore β] (options : GalleryOptions) (blobs : β) (clock : Clock) :
    (∀ activities : List (Activity Bool β),
      Apart ((inMemory options blobs clock).actAll activities).store) ∧
    ∀ (refusals : Refusals) (activities : List (Activity Refusals β)),
      Apart ((inDatabase refusals options blobs clock).actAll activities).store :=
  ⟨apart_actAll (.of_empty fun _ => rfl), fun _ => apart_actAll (.of_empty fun _ => rfl)⟩

/-- In memory, in a database and in a file that is opened again at any time, what is done to a
parent stays with the parent, from every state of the store and whatever it refuses. -/
theorem keepsToParent_of_everyStore [BlobStore β] (parentId : String) :
    (∀ manager : Manager MemoryStore β, KeepsToParent manager parentId) ∧
    (∀ manager : Manager (Fallible Database) β, KeepsToParent manager parentId) ∧
    ∀ manager : Manager FileStore β, KeepsToParent manager parentId :=
  ⟨fun manager => keepsToParent_of_lawful manager parentId,
    fun manager => keepsToParent_of_lawful manager parentId,
    fun manager => keepsToParent_of_lawful manager parentId⟩

end Manager

/-- The parents of these images share no ids. -/
theorem HoldsUneven.apart [ParentStore σ] [StoreView σ τ] {store : σ}
    (holds : HoldsUneven store) : Apart store where
  disjoint {parent other} differ image mem foreign foreignMem same := by
    rw [holds.images_eq] at mem foreignMem
    have unique : ∀ image ∈ unevenImages, ∀ foreign ∈ unevenImages, image.id = foreign.id →
        image.parentId = foreign.parentId := by decide
    have owners := unique image (List.mem_of_mem_filter mem) foreign
      (List.mem_of_mem_filter foreignMem) same
    rw [Database.parentId_of_mem_rowsOf mem, Database.parentId_of_mem_rowsOf foreignMem] at owners
    exact differ owners.symm
  bounded := holds.numbered.bounded

namespace Manager

/-- The image of another parent is not found in a gallery in memory. -/
theorem notFound_uneven : NotFound (ofStore MemoryStore.uneven) "p" 3 := by
  have mem : unevenImages[2] ∈ GalleryStore.listImages MemoryStore.uneven "q" :=
    mem_listImages_iff.mpr (by decide)
  exact ((keepsToParent_of_everyStore "p").1 (ofStore MemoryStore.uneven)).foreign
    MemoryStore.holdsUneven.apart [] (by decide) mem

end Manager

end ImageGallery
