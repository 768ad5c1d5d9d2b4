import ImageGallery.Proofs.Atomicity
import ImageGallery.Proofs.Identifiers
import ImageGallery.Proofs.Transactions

/-!
# Registration: the first one wins

A registration succeeds if the ids of the parent and of its scope are segments, and for no other
reason does it fail. The first one of a parent that succeeds is kept: every later one answers with
its record, and so does the registry whenever it is asked, whatever else happens to the store and
also after its file was opened again. A parent that was registered can be uploaded to, since what
is checked at a registration is what is checked again when a file is saved.
-/

namespace ImageGallery

theorem GalleryError.code_eq_invalidInput_iff {error : GalleryError} :
    error.code = "InvalidInput" ↔ ∃ reason, error = .invalidInput reason := by
  cases error <;> simp [code]

/-! ## Registrations as records -/

/-- Both ids of a record can name directories. -/
def ParentRecord.usable (record : ParentRecord) : Bool :=
  Segment.isValid record.id && Segment.isValid record.scopeId

/-- Among the records that were asked for, one after the other, the first one of a parent that can
be registered. -/
def firstFor (asked : List ParentRecord) (parent : String) : Option ParentRecord :=
  asked.find? fun record => record.id = parent && record.usable

theorem firstFor_append (earlier later : List ParentRecord) (parent : String) :
    firstFor (earlier ++ later) parent = (firstFor earlier parent).or (firstFor later parent) :=
  List.find?_append

theorem firstFor_singleton (record : ParentRecord) (parent : String) :
    firstFor [record] parent =
      if record.usable then if record.id = parent then some record else none else none := by
  rw [firstFor, List.find?_singleton]
  cases record.usable with
  | false => simp
  | true => simp

namespace Registry

/-- Enter a record, unless there is one with its id: ids are the key of the table. -/
def insertOrIgnore (registry : Registry) (record : ParentRecord) : Registry :=
  match registry.find? record.id with
  | some _ => registry
  | none => ⟨registry.records ++ [record]⟩

variable {registry : Registry}

/-- What is found after a record was entered: what was found before, or else the record. -/
theorem find?_insertOrIgnore (record : ParentRecord) (parent : String) :
    (registry.insertOrIgnore record).find? parent =
      (registry.find? parent).or (if record.id = parent then some record else none) := by
  unfold insertOrIgnore
  split
  · rename_i known found
    by_cases own : record.id = parent
    · rw [← own, found]
      rfl
    · rw [if_neg own, Option.or_none]
  · rw [find?, List.find?_append, List.find?_singleton, find?]
    simp only [decide_eq_true_eq]

/-- A record can be found once it was entered. -/
theorem exists_find?_insertOrIgnore (registry : Registry) (record : ParentRecord) :
    ∃ entered, (registry.insertOrIgnore record).find? record.id = some entered := by
  rw [find?_insertOrIgnore, if_pos rfl]
  cases registry.find? record.id with
  | none => exact ⟨record, rfl⟩
  | some known => exact ⟨known, rfl⟩

/-- To register usable ids is to enter their record and to read it back. -/
theorem register_of_usable {asked entered : ParentRecord} (usable : asked.usable)
    (found : (registry.insertOrIgnore asked).find? asked.id = some entered) :
    registry.register asked.id asked.scopeId asked.createdAt =
      .ok (entered, registry.insertOrIgnore asked) := by
  rw [ParentRecord.usable, Bool.and_eq_true] at usable
  rw [find?_insertOrIgnore, if_pos rfl] at found
  unfold register insertOrIgnore
  rw [Segment.check_eq_ok_iff.mpr usable.1, Segment.check_eq_ok_iff.mpr usable.2]
  cases known : registry.find? asked.id with
  | none =>
      rw [known] at found
      cases found
      rfl
  | some record =>
      rw [known] at found
      cases found
      rfl

/-- Other ids are refused. -/
theorem register_of_not_usable (registry : Registry) {asked : ParentRecord}
    (unusable : ¬asked.usable) :
    ∃ kind value, registry.register asked.id asked.scopeId asked.createdAt =
      .error (.invalidInput (.segment kind value)) := by
  unfold register Segment.check
  by_cases parentValid : Segment.isValid asked.id
  · have scopeInvalid : ¬Segment.isValid asked.scopeId := fun scopeValid =>
      unusable (Bool.and_eq_true_iff.mpr ⟨parentValid, scopeValid⟩)
    rw [if_pos parentValid, if_neg scopeInvalid]
    exact ⟨_, _, rfl⟩
  · rw [if_neg parentValid]
    exact ⟨_, _, rfl⟩

end Registry

/-! ## What leaves the registry alone -/

/-- What may happen between two looks at a store: a call or a transaction, committed or dropped,
new refusals of the store, and changes of the files from outside. -/
inductive Activity (ρ β : Type) where
  | take (step : StoreStep)
  | refuse (refusals : ρ)
  | disturb (change : β → β)

namespace Manager

variable {σ τ ρ β α : Type}

section Activity

variable [GalleryTx τ] [GalleryStore σ τ] [ParentStore σ] [BlobStore β]

/-- Let an activity happen. -/
def act [Refusing σ ρ] (manager : Manager σ β) : Activity ρ β → Manager σ β
  | .take step => (manager.take step).2
  | .refuse refusals => { manager with store := Refusing.refuse manager.store refusals }
  | .disturb change => { manager with blobs := change manager.blobs }

/-- Let activities happen one after the other. -/
def actAll [Refusing σ ρ] (manager : Manager σ β) (activities : List (Activity ρ β)) :
    Manager σ β :=
  activities.foldl act manager

theorem actAll_append [Refusing σ ρ] (manager : Manager σ β)
    (earlier later : List (Activity ρ β)) :
    manager.actAll (earlier ++ later) = (manager.actAll earlier).actAll later :=
  List.foldl_append

/-- The record that a registration asks for. -/
def asked (manager : Manager σ β) (parent scope : String) : ParentRecord where
  id := parent
  scopeId := scope
  createdAt := manager.clock.now.1

omit [ParentStore σ] [BlobStore β] in
theorem usable_asked (manager : Manager σ β) (parent scope : String) :
    (manager.asked parent scope).usable = (Segment.isValid parent && Segment.isValid scope) :=
  rfl

/-- The record that an activity asks for, if it is a registration. -/
def enrolment? (manager : Manager σ β) : Activity ρ β → Option ParentRecord
  | .take (.call (.register parent scope)) => some (manager.asked parent scope)
  | _ => none

/-- All records that activities ask for, also those that are refused. -/
def enrolments [Refusing σ ρ] (manager : Manager σ β) :
    List (Activity ρ β) → List ParentRecord
  | [] => []
  | activity :: activities =>
    (manager.enrolment? activity).toList ++ (manager.act activity).enrolments activities

end Activity

section Registry

variable [GalleryTx τ] [TxView τ] [LawfulTx τ] [GalleryStore σ τ] [ParentStore σ] [StoreView σ τ]
  [LawfulStore σ τ]

omit [LawfulTx τ] in
theorem registry_commitWith {manager : Manager σ β} {tx : τ} (value : α)
    (opened : StoreView.Open manager.store tx) :
    ParentStore.registry (manager.commitWith tx value).2.store =
      ParentStore.registry manager.store := by
  unfold commitWith
  split
  · rename_i store committed
    exact (LawfulStore.commit_of_ok opened committed).registry_eq
  · rename_i error store refused
    exact congrArg ParentStore.registry (LawfulStore.commit_of_error refused)

/-- A transaction stays open when an image is taken out. -/
theorem open_takeOut {store : σ} {tx next : τ} {target : ImageRecord} {promoted : Option Int}
    (opened : StoreView.Open store tx) (taken : takeOut tx target = .ok (promoted, next)) :
    StoreView.Open store next := by
  obtain ⟨middle, placed, way⟩ := takeOut_cases taken
  have openedRemoved := LawfulStore.open_delete target.id opened
  have openedMiddle : StoreView.Open store middle := by
    rcases way with ⟨first, others, -, -, -, assigned⟩ | ⟨-, -, rfl⟩
    · have openedAssigned := LawfulStore.open_assignExclusiveCover first.id openedRemoved
      rwa [assigned] at openedAssigned
    · exact openedRemoved
  exact (place_of_ok openedMiddle placed).1

theorem registry_rearrange (manager : Manager σ β) (parentId : String)
    (items : List ReorderItem) :
    ParentStore.registry (manager.rearrange parentId items).2.store =
      ParentStore.registry manager.store := by
  unfold rearrange
  split
  · rfl
  · dsimp only
    split
    · rfl
    · rename_i placed
      exact registry_commitWith _
        (place_of_ok (LawfulStore.open_start manager.store parentId) placed).1

variable [BlobStore β]

theorem registry_withdraw (manager : Manager σ β) (parentId : String) (id : Int) :
    ParentStore.registry (manager.withdraw parentId id).2.store =
      ParentStore.registry manager.store := by
  rcases withdrawn : manager.withdraw parentId id with ⟨_ | outcome, after⟩
  · rw [withdraw_of_error withdrawn]
  · unfold withdraw at withdrawn
    dsimp only at withdrawn
    split at withdrawn
    · cases withdrawn
    · split at withdrawn
      · cases withdrawn
      · rename_i taken
        have opened := open_takeOut (LawfulStore.open_start manager.store parentId) taken
        split at withdrawn
        · cases withdrawn
        · rename_i middle committed
          have same := registry_commitWith () opened
          rw [committed] at same
          have kept : after.store = middle.store := by
            rw [← (Prod.mk.inj withdrawn).2]
            split <;> rfl
          rw [kept]
          exact same

/-- Only registrations change the registry. -/
theorem registry_perform (manager : Manager σ β) {call : Call}
    (other : ∀ parent scope, call ≠ .register parent scope) :
    ParentStore.registry (manager.perform call).2.store =
      ParentStore.registry manager.store := by
  cases call with
  | register parent scope => exact absurd rfl (other parent scope)
  | upload parent uploads =>
      change ParentStore.registry (manager.receive parent uploads).2.store = _
      rcases received : manager.receive parent uploads with ⟨_ | records, after⟩
      · rw [(receive_of_error received).1]
      · obtain ⟨owner, taken, saved, order, -, -, -, stored⟩ := receive_of_ok received
        exact stored.published.registry_eq
  | delete parent id => exact manager.registry_withdraw parent id
  | setCover parent id =>
      change ParentStore.registry (manager.flag parent id).2.store = _
      rcases flagged : manager.flag parent id with ⟨_ | image, after⟩
      · rw [flag_of_error flagged]
      · exact (flag_of_ok flagged).2.1.registry_eq
  | reorder parent items => exact manager.registry_rearrange parent items
  | list parent => rfl

omit [LawfulTx τ] in
theorem registry_transaction (manager : Manager σ β) (parent : String) (calls : List GalleryCall)
    (commits : Bool) :
    ParentStore.registry (manager.take (.transaction parent calls commits)).2.store =
      ParentStore.registry manager.store := by
  have opened := open_answerAll (LawfulStore.open_start manager.store parent) calls
  cases commits with
  | false => rfl
  | true =>
      rcases ending : GalleryStore.commit
        (GalleryCall.answerAll (GalleryStore.start manager.store parent) calls).2
        manager.store with ⟨_ | _, after⟩
      · simp only [Manager.take, if_true, ending]
        exact congrArg ParentStore.registry (LawfulStore.commit_of_error ending)
      · simp only [Manager.take, if_true, ending]
        exact (LawfulStore.commit_of_ok opened ending).registry_eq

/-! ## Registrations -/

section Registering

variable {manager : Manager σ β} {parent scope : String}

omit [GalleryTx τ] [TxView τ] [LawfulTx τ] [GalleryStore σ τ] [StoreView σ τ] [LawfulStore σ τ]
  [BlobStore β] in
/-- A registration of usable ids enters their record and answers with what is then found. -/
theorem register_of_usable (usable : (manager.asked parent scope).usable) :
    ∃ entered, (manager.register parent scope).1 = .ok entered ∧
      (manager.register parent scope).2.store = ParentStore.withRegistry manager.store
        ((ParentStore.registry manager.store).insertOrIgnore (manager.asked parent scope)) ∧
      ((ParentStore.registry manager.store).insertOrIgnore (manager.asked parent scope)).find?
        parent = some entered := by
  obtain ⟨entered, found⟩ := Registry.exists_find?_insertOrIgnore
    (ParentStore.registry manager.store) (manager.asked parent scope)
  have accepted := Registry.register_of_usable usable found
  dsimp only [asked] at accepted
  unfold register ParentStore.register
  simp only [accepted]
  exact ⟨entered, rfl, rfl, found⟩

omit [GalleryTx τ] [TxView τ] [LawfulTx τ] [GalleryStore σ τ] [StoreView σ τ] [LawfulStore σ τ]
  [BlobStore β] in
/-- Other ids are refused, and the store stays as it is. -/
theorem register_of_not_usable (unusable : ¬(manager.asked parent scope).usable) :
    ∃ kind value, (manager.register parent scope).1 =
        .error (.invalidInput (.segment kind value)) ∧
      (manager.register parent scope).2.store = manager.store := by
  obtain ⟨kind, value, refused⟩ :=
    Registry.register_of_not_usable (ParentStore.registry manager.store) unusable
  dsimp only [asked] at refused
  refine ⟨kind, value, ?_⟩
  unfold register ParentStore.register
  simp only [refused, and_self]

end Registering

omit [LawfulTx τ] in
theorem find?_register (manager : Manager σ β) (parent scope other : String) :
    (ParentStore.registry (manager.perform (.register parent scope)).2.store).find? other =
      ((ParentStore.registry manager.store).find? other).or
        (firstFor [manager.asked parent scope] other) := by
  change (ParentStore.registry (manager.register parent scope).2.store).find? other = _
  by_cases usable : (manager.asked parent scope).usable
  · obtain ⟨entered, -, stored, -⟩ := register_of_usable usable
    rw [stored, LawfulStore.registry_withRegistry, Registry.find?_insertOrIgnore,
      firstFor_singleton, if_pos usable]
  · obtain ⟨kind, value, -, same⟩ := register_of_not_usable usable
    rw [same, firstFor_singleton, if_neg usable, Option.or_none]

/-- What an activity does to what is found for a parent. -/
theorem find?_act [Refusing σ ρ] [LawfulRefusing σ τ ρ] (manager : Manager σ β)
    (activity : Activity ρ β) (parent : String) :
    (ParentStore.registry (manager.act activity).store).find? parent =
      ((ParentStore.registry manager.store).find? parent).or
        (firstFor (manager.enrolment? activity).toList parent) := by
  have idle (after : Manager σ β)
      (same : ParentStore.registry after.store = ParentStore.registry manager.store) :
      (ParentStore.registry after.store).find? parent =
        ((ParentStore.registry manager.store).find? parent).or (firstFor [] parent) := by
    rw [same]
    exact Option.or_none.symm
  cases activity with
  | refuse refusals => exact idle _ (LawfulRefusing.registry_refuse manager.store refusals)
  | disturb change => exact idle _ rfl
  | take step =>
      cases step with
      | fetch | images | galleries => exact idle _ rfl
      | transaction owner calls commits => exact idle _ (manager.registry_transaction ..)
      | call call =>
          cases call with
          | register other scope => exact manager.find?_register other scope parent
          | upload | delete | setCover | reorder | list =>
              exact idle _ (manager.registry_perform (by simp))

/-- What is found for a parent after a run is what was found before, or else the first record that
was asked for in the run and could be registered. -/
theorem find?_actAll [Refusing σ ρ] [LawfulRefusing σ τ ρ] (manager : Manager σ β)
    (activities : List (Activity ρ β)) (parent : String) :
    (ParentStore.registry (manager.actAll activities).store).find? parent =
      ((ParentStore.registry manager.store).find? parent).or
        (firstFor (manager.enrolments activities) parent) := by
  induction activities generalizing manager with
  | nil => exact Option.or_none.symm
  | cons activity activities ih =>
      rw [enrolments, firstFor_append, ← Option.or_assoc, ← find?_act]
      exact ih (manager.act activity)

end Registry

/-! ## Uploads to what is registered -/

section Uploads

/-- A file that is looked at before anything is written is refused for its format only. -/
theorem checkMedia_eq_error {uploads : List Upload} {error : GalleryError}
    (refused : checkMedia uploads = .error error) :
    ∃ filename, error = .unsupportedMediaType filename := by
  rw [checkMedia_eq] at refused
  split at refused
  · cases refused
    exact ⟨_, rfl⟩
  · cases refused

theorem lift_eq_error {answer : Except StoreError α} {error : GalleryError}
    (failed : lift answer = .error error) : ∃ failure, error = .internal failure := by
  cases answer with
  | ok value => cases failed
  | error cause =>
      cases failed
      exact ⟨_, rfl⟩

variable [GalleryTx τ] [TxView τ] [GalleryStore σ τ] [ParentStore σ] [StoreView σ τ]
  [LawfulStore σ τ] [BlobStore β] [CheckedSaves β] {manager after : Manager σ β}
  {uploads : List Upload} {error : GalleryError}

/-- Files of a parent with usable ids are refused for their formats, or for internal reasons. -/
theorem append_eq_error {parent : ParentRecord} {tx : τ} (usable : parent.usable)
    (failed : manager.append parent tx uploads = (.error error, after)) :
    (∃ filename, error = .unsupportedMediaType filename) ∨
      ∃ failure, error = .internal failure := by
  rw [ParentRecord.usable, Bool.and_eq_true] at usable
  unfold append at failed
  split at failed
  · rename_i unaccepted
    cases failed
    exact .inl (checkMedia_eq_error unaccepted)
  · rename_i checked
    split at failed
    · rename_i unanswered
      cases failed
      exact .inr (lift_eq_error unanswered)
    · split at failed
      · rename_i broken
        cases failed
        obtain ⟨done, rest, saved, middle, split, -, reason⟩ := writeBatch_of_error broken
        rcases reason with ⟨cause, reason, -⟩ | ⟨upload, others, rfl, unsaved⟩
        · exact .inr ⟨_, reason⟩
        · refine .inr (CheckedSaves.internal_of_save ?_ usable.2 usable.1 unsaved)
          apply media_isOk_of_checkMedia checked
          rw [split]
          exact List.mem_append_right _ List.mem_cons_self
      · split at failed
        · cases failed
        · obtain ⟨-, cause, reason⟩ := commitWith_of_error failed
          exact .inr ⟨_, reason⟩

/-- An upload of some files is never refused for its input. -/
theorem ne_invalidInput_of_receive_eq_error {parentId : String}
    (usable : ∀ record, (ParentStore.registry manager.store).find? parentId = some record →
      record.usable) (some_uploads : uploads ≠ [])
    (failed : manager.receive parentId uploads = (.error error, after)) :
    ∀ reason, error ≠ .invalidInput reason := by
  unfold receive at failed
  split at failed
  · rename_i unknown
    unfold Manager.parent at unknown
    split at unknown
    · cases unknown
    · cases unknown
      cases failed
      nofun
  · rename_i parent known
    have parentUsable := usable parent (id_eq_of_parent_eq_ok known).2
    have appended (manager : Manager σ β) (tx : τ) (uploads : List Upload)
        (failed : manager.append parent tx uploads = (.error error, after)) :
        ∀ reason, error ≠ .invalidInput reason := by
      rcases append_eq_error parentUsable failed with ⟨filename, rfl⟩ | ⟨failure, rfl⟩
      · nofun
      · nofun
    rw [if_neg (by rwa [List.isEmpty_iff])] at failed
    split at failed
    · cases failed
      nofun
    · dsimp only at failed
      split at failed
      · rename_i unanswered
        cases failed
        obtain ⟨failure, rfl⟩ := lift_eq_error unanswered
        nofun
      · split at failed
        · cases failed
          nofun
        · split at failed
          · exact appended _ _ _ failed
          · exact appended _ _ _ failed

end Uploads

/-! ## The first one wins -/

section FirstWins

variable [GalleryTx τ] [GalleryStore σ τ] [ParentStore σ] [BlobStore β] [Refusing σ ρ]

/-- What registrations do after some activities, among which are other registrations. -/
structure FirstWins (manager : Manager σ β) (activities : List (Activity ρ β)) : Prop where
  /-- What is found for a parent is what was found at first, or else the record of the first
  registration that could be carried out. -/
  fetched : ∀ parent,
    (ParentStore.registry (manager.actAll activities).store).find? parent =
      ((ParentStore.registry manager.store).find? parent).or
        (firstFor (manager.enrolments activities) parent)
  /-- A parent exists if it did at first, or if a registration could be carried out. -/
  existing : ∀ parent,
    ((ParentStore.registry (manager.actAll activities).store).find? parent).isSome ↔
      ((ParentStore.registry manager.store).find? parent).isSome ∨
        ∃ asked ∈ manager.enrolments activities, asked.id = parent ∧ asked.usable
  /-- A record that is found stays, with its scope and its time. -/
  lasting : ∀ parent record,
    (ParentStore.registry (manager.actAll activities).store).find? parent = some record →
      ∀ later : List (Activity ρ β),
        (ParentStore.registry (manager.actAll (activities ++ later)).store).find? parent =
          some record
  accepted_iff : ∀ parent scope,
    (∃ record, ((manager.actAll activities).register parent scope).1 = .ok record) ↔
      Segment.isValid parent ∧ Segment.isValid scope
  /-- A registration answers with the first record, its own one included. -/
  answered : ∀ parent scope record,
    ((manager.actAll activities).register parent scope).1 = .ok record →
      ((ParentStore.registry manager.store).find? parent).or
        (firstFor (manager.enrolments activities ++
          [(manager.actAll activities).asked parent scope]) parent) = some record
  refused : ∀ parent scope error,
    ((manager.actAll activities).register parent scope).1 = .error error →
      error.code = "InvalidInput" ∧
        ((manager.actAll activities).register parent scope).2.store =
          (manager.actAll activities).store
  /-- The checks that are made when a file is saved accept what is registered. -/
  checked : ∀ parent record,
    (ParentStore.registry (manager.actAll activities).store).find? parent = some record →
      record.id = parent ∧ Segment.check "scope" record.scopeId = .ok () ∧
        Segment.check "parent" record.id = .ok ()
  /-- An upload that brings files is not refused for its input. -/
  upload : ∀ parent uploads error, uploads ≠ [] →
    ((manager.actAll activities).upload parent uploads).1 = .error error →
      error.code ≠ "InvalidInput"

variable [TxView τ] [LawfulTx τ] [StoreView σ τ] [LawfulStore σ τ] [LawfulRefusing σ τ ρ]
  {manager : Manager σ β} {activities : List (Activity ρ β)}

/-- Whatever is found was usable when it was registered, if what was there at first is. -/
theorem usable_of_find?_actAll (valid : (ParentStore.registry manager.store).Valid)
    {parent : String} {record : ParentRecord}
    (found : (ParentStore.registry (manager.actAll activities).store).find? parent =
      some record) : record.id = parent ∧ record.usable := by
  rw [find?_actAll, Option.or_eq_some_iff] at found
  rcases found with known | ⟨-, new⟩
  · have named : decide (record.id = parent) = true :=
      List.find?_some (p := fun record : ParentRecord => decide (record.id = parent)) known
    exact ⟨of_decide_eq_true named, Bool.and_eq_true_iff.mpr (valid.of_find? known)⟩
  · have named := List.find?_some new
    rwa [Bool.and_eq_true, decide_eq_true_eq] at named

/-- The first registration wins, whatever happens before, between and after. -/
theorem firstWins_actAll [CheckedSaves β] (valid : (ParentStore.registry manager.store).Valid) :
    FirstWins manager activities where
  fetched := manager.find?_actAll activities
  existing parent := by
    rw [find?_actAll, Option.isSome_or, Bool.or_eq_true, firstFor, List.find?_isSome]
    simp only [Bool.and_eq_true, decide_eq_true_eq]
  lasting parent record found later := by
    rw [actAll_append, find?_actAll, found]
    rfl
  accepted_iff parent scope := by
    rw [← Bool.and_eq_true, ← usable_asked (manager.actAll activities)]
    constructor
    · rintro ⟨record, registered⟩
      by_contra unusable
      obtain ⟨kind, value, refused, -⟩ := register_of_not_usable unusable
      rw [refused] at registered
      cases registered
    · intro usable
      obtain ⟨entered, registered, -⟩ := register_of_usable usable
      exact ⟨entered, registered⟩
  answered parent scope record registered := by
    by_cases usable : ((manager.actAll activities).asked parent scope).usable
    · obtain ⟨entered, accepted, -, found⟩ := register_of_usable usable
      cases accepted.symm.trans registered
      rw [firstFor_append, ← Option.or_assoc, ← find?_actAll, firstFor_singleton, if_pos usable,
        ← Registry.find?_insertOrIgnore]
      exact found
    · obtain ⟨kind, value, refused, -⟩ := register_of_not_usable usable
      rw [refused] at registered
      cases registered
  refused parent scope error failed := by
    by_cases usable : ((manager.actAll activities).asked parent scope).usable
    · obtain ⟨entered, registered, -⟩ := register_of_usable usable
      rw [registered] at failed
      cases failed
    · obtain ⟨kind, value, refused, same⟩ := register_of_not_usable usable
      rw [refused] at failed
      cases failed
      exact ⟨rfl, same⟩
  checked parent record found := by
    obtain ⟨named, usable⟩ := usable_of_find?_actAll valid found
    rw [ParentRecord.usable, Bool.and_eq_true] at usable
    exact ⟨named, Segment.check_eq_ok_iff.mpr usable.2, Segment.check_eq_ok_iff.mpr usable.1⟩
  upload parent uploads error some_uploads failed := by
    rw [ne_eq, GalleryError.code_eq_invalidInput_iff]
    rintro ⟨reason, invalid⟩
    exact ne_invalidInput_of_receive_eq_error
      (fun _ found => (usable_of_find?_actAll valid found).2) some_uploads
      (Prod.ext failed rfl) reason invalid

end FirstWins

/-- In memory, in a database and in a file that is opened again at any time, the first
registration of a parent wins, whatever else happens to the store and to the files. -/
theorem firstWins_of_everyStore (options : GalleryOptions) (blobs : Faulty LocalBlobs)
    (clock : Clock) :
    (∀ activities : List (Activity Bool (Faulty LocalBlobs)),
      FirstWins (inMemory options blobs clock) activities) ∧
    (∀ (refusals : Refusals) (activities : List (Activity Refusals (Faulty LocalBlobs))),
      FirstWins (inDatabase refusals options blobs clock) activities) ∧
    ∀ store : FileStore, (ParentStore.registry store).Valid →
      ∀ activities : List (Activity FileStore.Order (Faulty LocalBlobs)),
        FirstWins (inFile store options blobs clock) activities := by
  have empty : Registry.Valid {} := fun record mem => absurd mem List.not_mem_nil
  exact ⟨fun activities => firstWins_actAll empty, fun refusals activities =>
    firstWins_actAll empty, fun store valid activities => firstWins_actAll valid⟩

/-- A new database is made in an empty tree, and its file can be opened again. -/
theorem exists_newFile : ∃ store : FileStore, store.connection.database = {} ∧
    ∃ connection tree, Connection.openAt store.text store.tree = (.ok connection, tree) := by
  obtain ⟨after, opened, again⟩ := openAt_galleryFile
  have clear : ∀ side ∈ Connection.sides ["gallery.db"], Connection.Solid {} side := by
    intro side mem target linked
    cases side with
    | nil => cases linked
    | cons name names => cases linked
  obtain ⟨store, text, connection, tree⟩ := FileStore.exists_of_openAt opened rfl rfl clear
  refine ⟨store, ?_, ?_⟩
  · rw [connection]
    rfl
  · rw [text, tree]
    exact again

/-- Every database can be kept in a file that refuses nothing. -/
theorem exists_file (database : Database) :
    ∃ store : FileStore, store.database = { inner := database } ∧
      ∀ call tried, store.refusals call tried = none := by
  obtain ⟨store, -⟩ := exists_newFile
  exact ⟨{ store.write database with refusals := fun _ _ => none }, rfl, fun _ _ => rfl⟩

/-- A parent is registered in a scope that is none, and then in two others; in between its gallery
is filled, and the file is opened again. -/
def contestedActivities : List (Activity FileStore.Order (Faulty LocalBlobs)) :=
  [ .take (.call (.register "p" ".hidden")),
    .take (.call (.register "p" "first")),
    .take (.call (.upload "p" [.ofHeld "a.png" none [1]])),
    .take (.transaction "p" [.delete 1] true),
    .refuse .reopen,
    .take (.call (.register "p" "second")) ]

/-- The first two records that are asked for decide: nobody can have the first one. -/
theorem firstFor_contestedActivities (manager : Manager FileStore (Faulty LocalBlobs)) :
    ∃ time, firstFor (manager.enrolments contestedActivities) "p" =
      some ⟨"p", "first", time⟩ := by
  have hidden : ¬(manager.asked "p" ".hidden").usable := by
    rw [usable_asked]
    decide
  have first : ((manager.act (.take (.call (.register "p" ".hidden")))).asked "p"
      "first").usable := by
    rw [usable_asked]
    decide
  refine ⟨(manager.act (.take (.call (.register "p" ".hidden")))).clock.now.1, ?_⟩
  rw [contestedActivities, enrolments, enrolments, firstFor_append, firstFor_append]
  simp only [enrolment?, Option.toList_some, firstFor_singleton, if_neg hidden, if_pos first]
  rfl

theorem firstWins_contestedActivities :
    ∃ store : FileStore, (ParentStore.registry store).Valid ∧
      (∃ connection tree, Connection.openAt store.text store.tree = (.ok connection, tree)) ∧
      FirstWins (inFile store {} emptyDirectory { reading := fun _ => 0 })
        contestedActivities ∧
      ∃ time, (ParentStore.registry
        ((inFile store {} emptyDirectory { reading := fun _ => 0 }).actAll
          contestedActivities).store).find? "p" = some ⟨"p", "first", time⟩ := by
  obtain ⟨store, database, again⟩ := exists_newFile
  have unregistered : ParentStore.registry store = {} := by
    change store.connection.database.parents = {}
    rw [database]
  have valid : (ParentStore.registry store).Valid := by
    rw [unregistered]
    exact fun record mem => absurd mem List.not_mem_nil
  have wins := (firstWins_of_everyStore {} emptyDirectory { reading := fun _ => 0 }).2.2 store
    valid contestedActivities
  have nobody : (ParentStore.registry store).find? "p" = none := by
    rw [unregistered]
    rfl
  obtain ⟨time, first⟩ := firstFor_contestedActivities
    (inFile store {} emptyDirectory { reading := fun _ => 0 })
  refine ⟨store, valid, again, wins, time, ?_⟩
  rw [wins.fetched, first]
  exact congrArg (Option.or · _) nobody

end Manager

end ImageGallery
