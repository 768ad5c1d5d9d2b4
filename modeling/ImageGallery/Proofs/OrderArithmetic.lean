import ImageGallery.Proofs.PayloadValidation
import ImageGallery.Proofs.Truncations

/-!
# Arithmetic on positions

Numbers of images, positions and ranks are computed in 32 bits, and an overflow would stop the
program, wrap a number or fail a call. Whatever the limits are, this does not happen: the limit on
the images of a gallery has 32 bits itself, a gallery in order has no more images than that, and
their positions are below the number of images. So a number that an operation computes is the one
that it would compute without a bound, and a call fails for arithmetic reasons only if the store
was told to refuse it in these words.
-/

namespace ImageGallery

open Manager

variable {σ τ ρ α β : Type}

/-! ## Errors of arithmetic -/

/-- The answer of a store is that a number does not fit 32 bits. -/
def StoreError.isArithmetic : StoreError → Bool
  | outOfRange _ | tooMany => true
  | _ => false

/-- The cause of a failure is an answer of this kind. -/
def Failure.isArithmetic : Failure → Bool
  | store error => error.isArithmetic
  | within _ failure => failure.isArithmetic
  | _ => false

/-- An operation failed for this cause. -/
def GalleryError.isArithmetic : GalleryError → Bool
  | internal failure => failure.isArithmetic
  | _ => false

/-- If an error is one of arithmetic, it is an answer that a store was told to give. -/
def Excused (told : StoreError → Prop) (error : GalleryError) : Prop :=
  error.isArithmetic = true → ∃ cause, error = .ofStore cause ∧ told cause

/-- An answer is given with no other error of arithmetic than those that a store was told. -/
def FailsAsTold (told : StoreError → Prop) (answer : Except GalleryError α) : Prop :=
  ∀ error, answer = .error error → Excused told error

/-- An answer is a number that fits 32 bits, unless a store was told to refuse it. -/
structure AnswersExactly (told : StoreError → Prop) (answer : Except StoreError UInt32)
    (number : Nat) : Prop where
  fits : number < UInt32.size
  exact : (∃ value, answer = .ok value ∧ value.toNat = number) ∨
    ∃ error, answer = .error error ∧ told error

section Told

variable {told : StoreError → Prop}

theorem Excused.of_plain {error : GalleryError} (plain : error.isArithmetic = false) :
    Excused told error := by
  intro arithmetic
  rw [plain] at arithmetic
  cases arithmetic

theorem Excused.of_told {cause : StoreError} (refused : cause.isArithmetic = true → told cause) :
    Excused told (.ofStore cause) :=
  fun arithmetic => ⟨cause, rfl, refused arithmetic⟩

theorem FailsAsTold.ok (value : α) : FailsAsTold told (.ok value) :=
  fun _ impossible => by cases impossible

theorem FailsAsTold.error {error : GalleryError} (excused : Excused told error) :
    FailsAsTold (α := α) told (.error error) := by
  rintro _ ⟨⟩
  exact excused

theorem FailsAsTold.map {answer : Except GalleryError α} {wrap : α → β}
    (fails : FailsAsTold told answer) : FailsAsTold told (answer.map wrap) := by
  cases answer with
  | ok value => exact .ok _
  | error error => exact .error (fails error rfl)

theorem FailsAsTold.bind {answer : Except GalleryError α} {next : α → Except GalleryError β}
    (fails : FailsAsTold told answer)
    (goesOn : ∀ value, answer = .ok value → FailsAsTold told (next value)) :
    FailsAsTold told (answer >>= next) := by
  cases answer with
  | ok value => exact goesOn value rfl
  | error error => exact .error (fails error rfl)

/-- An exact answer is given as such by an operation. -/
theorem AnswersExactly.lift {answer : Except StoreError UInt32} {number : Nat}
    (answers : AnswersExactly told answer number) : FailsAsTold told (Manager.lift answer) := by
  rcases answers.exact with ⟨value, rfl, -⟩ | ⟨error, rfl, refused⟩
  · exact .ok value
  · exact .error (.of_told fun _ => refused)

end Told

/-! ## Stores -/

/-- Transactions that answer with numbers as they are and blame nothing else on arithmetic, unless
they were told to. -/
class AccurateTx (τ : Type) [GalleryTx τ] [TxView τ] where
  /-- The errors that a transaction may be told to answer with. -/
  Told : τ → StoreError → Prop
  count_exact {tx : τ} (small : (TxView.draft tx).images.length < UInt32.size) :
    AnswersExactly (Told tx) (GalleryTx.count tx) (TxView.draft tx).images.length
  nextOrder_exact {tx : τ}
    (small : ∀ image ∈ (TxView.draft tx).images, image.sortOrder.toNat + 1 < UInt32.size) :
    AnswersExactly (Told tx) (GalleryTx.nextOrder tx) (TxView.draft tx).nextOrder
  insert_refused {tx next : τ} {image : NewImage} {error : StoreError}
    (refused : GalleryTx.insert tx image = (.error error, next)) :
    error.isArithmetic = true → Told tx error
  setSortOrder_refused {tx next : τ} {id : Int} {order : UInt32} {error : StoreError}
    (refused : GalleryTx.setSortOrder tx id order = (.error error, next)) :
    error.isArithmetic = true → Told tx error
  assignExclusiveCover_refused {tx next : τ} {id : Int} {error : StoreError}
    (refused : GalleryTx.assignExclusiveCover tx id = (.error error, next)) :
    error.isArithmetic = true → Told tx error
  told_insert (tx : τ) (image : NewImage) : Told (GalleryTx.insert tx image).2 = Told tx
  told_setSortOrder (tx : τ) (id : Int) (order : UInt32) :
    Told (GalleryTx.setSortOrder tx id order).2 = Told tx
  told_assignExclusiveCover (tx : τ) (id : Int) :
    Told (GalleryTx.assignExclusiveCover tx id).2 = Told tx
  told_delete (tx : τ) (id : Int) : Told (GalleryTx.delete tx id) = Told tx

/-- Stores with such transactions. -/
class AccurateStore (σ : Type) (τ : outParam Type) [GalleryTx τ] [TxView τ] [GalleryStore σ τ]
    [AccurateTx τ] where
  /-- The errors that the store may be told to answer with. -/
  ToldStore : σ → StoreError → Prop
  told_start (store : σ) (parent : String) :
    AccurateTx.Told (GalleryStore.start store parent) = ToldStore store
  commit_refused {store after : σ} {tx : τ} {error : StoreError}
    (refused : GalleryStore.commit tx store = (.error error, after)) :
    error.isArithmetic = true → AccurateTx.Told tx error

export AccurateTx (Told)
export AccurateStore (ToldStore)

namespace MemoryTx

instance : AccurateTx MemoryTx where
  Told _ _ := False
  count_exact {tx} small := by
    refine ⟨small, .inl ⟨_, if_pos small, ?_⟩⟩
    exact UInt32.toNat_ofNat_of_lt' small
  nextOrder_exact {tx} small := by
    refine ⟨DatabaseTx.foldl_nextOrder_lt (by decide) small, .inl ⟨_, rfl, ?_⟩⟩
    exact toNat_foldl_nextOrder _ 0 small
  insert_refused refused := by cases refused
  setSortOrder_refused {tx next id order error} refused arithmetic := by
    change tx.update id _ = _ at refused
    unfold update at refused
    split at refused <;> cases refused
    cases arithmetic
  assignExclusiveCover_refused {tx next id error} refused arithmetic := by
    change tx.assignExclusiveCover id = _ at refused
    unfold assignExclusiveCover at refused
    split at refused <;> cases refused
    cases arithmetic
  told_insert _ _ := rfl
  told_setSortOrder _ _ _ := rfl
  told_assignExclusiveCover _ _ := rfl
  told_delete _ _ := rfl

end MemoryTx

instance : AccurateStore MemoryStore MemoryTx where
  ToldStore _ _ := False
  told_start _ _ := rfl
  commit_refused {store after tx error} refused arithmetic := by
    change MemoryStore.commit tx store = _ at refused
    unfold MemoryStore.commit at refused
    split at refused <;> cases refused
    cases arithmetic

namespace DatabaseTx

/-- A number that fits is answered as it is. -/
theorem answersExactly_answer {told : StoreError → Prop} {number : Nat}
    (small : number < UInt32.size) : AnswersExactly told (Database.answer number) number :=
  ⟨small, .inl ⟨_, if_pos small, UInt32.toNat_ofNat_of_lt' small⟩⟩

theorem touch_refused {tx next : DatabaseTx} {id : Int} {change : ImageRecord → ImageRecord}
    {error : StoreError} (refused : tx.touch id change = (.error error, next)) :
    error.isArithmetic = false := by
  unfold touch at refused
  split at refused <;> cases refused
  rfl

instance : AccurateTx DatabaseTx where
  Told _ _ := False
  count_exact small := answersExactly_answer small
  nextOrder_exact small := answersExactly_answer (foldl_nextOrder_lt (by decide) small)
  insert_refused {tx next image error} refused arithmetic := by
    change tx.insert image = _ at refused
    unfold insert at refused
    split at refused <;> cases refused
    cases arithmetic
  setSortOrder_refused refused arithmetic := by
    rw [touch_refused refused] at arithmetic
    cases arithmetic
  assignExclusiveCover_refused refused arithmetic := by
    rw [touch_refused refused] at arithmetic
    cases arithmetic
  told_insert _ _ := rfl
  told_setSortOrder _ _ _ := rfl
  told_assignExclusiveCover _ _ := rfl
  told_delete _ _ := rfl

end DatabaseTx

instance : AccurateStore Database DatabaseTx where
  ToldStore _ _ := False
  told_start _ _ := rfl
  commit_refused refused := by cases refused

namespace FallibleTx

/-- The errors that a transaction is told to answer with. -/
def ToldHere (tx : FallibleTx τ) (error : StoreError) : Prop :=
  ∃ call tried, tx.refusals call tried = some error

theorem answersExactly_ask {tx : FallibleTx τ} {call : TxCall}
    {answer : Except StoreError UInt32} {number : Nat}
    (inside : AnswersExactly (fun _ => False) answer number) :
    AnswersExactly tx.ToldHere (tx.ask call answer) number := by
  refine ⟨inside.fits, ?_⟩
  unfold ask
  split
  · rename_i error told
    exact .inr ⟨error, rfl, _, _, told⟩
  · rcases inside.exact with answered | ⟨_, _, impossible⟩
    · exact .inl answered
    · exact impossible.elim

theorem attempt_refused {tx next : FallibleTx τ} {call : TxCall}
    {result : Except StoreError α × τ} {error : StoreError}
    (refused : tx.attempt call result = (.error error, next))
    (inside : result.1 = .error error → error.isArithmetic = true → False)
    (arithmetic : error.isArithmetic = true) : tx.ToldHere error := by
  unfold attempt at refused
  split at refused
  · rename_i told
    cases refused
    exact ⟨_, _, told⟩
  · exact (inside (Prod.mk.inj refused).1 arithmetic).elim

theorem toldHere_attempt (tx : FallibleTx τ) (call : TxCall) (result : Except StoreError α × τ) :
    (tx.attempt call result).2.ToldHere = tx.ToldHere := by
  unfold attempt
  split <;> rfl

instance : AccurateTx (FallibleTx DatabaseTx) where
  Told := ToldHere
  count_exact small := answersExactly_ask (DatabaseTx.answersExactly_answer small)
  nextOrder_exact small := answersExactly_ask
    (DatabaseTx.answersExactly_answer (DatabaseTx.foldl_nextOrder_lt (by decide) small))
  insert_refused refused :=
    attempt_refused refused fun inner => AccurateTx.insert_refused (Prod.ext inner rfl)
  setSortOrder_refused refused :=
    attempt_refused refused fun inner => AccurateTx.setSortOrder_refused (Prod.ext inner rfl)
  assignExclusiveCover_refused refused :=
    attempt_refused refused fun inner =>
      AccurateTx.assignExclusiveCover_refused (Prod.ext inner rfl)
  told_insert tx image := tx.toldHere_attempt _ _
  told_setSortOrder tx id order := tx.toldHere_attempt _ _
  told_assignExclusiveCover tx id := tx.toldHere_attempt _ _
  told_delete _ _ := rfl

end FallibleTx

instance : AccurateStore (Fallible Database) (FallibleTx DatabaseTx) where
  ToldStore store error := ∃ call tried, store.refusals call tried = some error
  told_start _ _ := rfl
  commit_refused {store after tx error} refused _ := by
    simp only [GalleryStore.commit] at refused
    split at refused
    · rename_i told
      cases refused
      exact ⟨_, _, told⟩
    · cases refused

instance : AccurateStore FileStore (FallibleTx DatabaseTx) where
  ToldStore store error := ∃ call tried, store.refusals call tried = some error
  told_start _ _ := rfl
  commit_refused {store after tx error} refused arithmetic := by
    change store.commit tx = _ at refused
    unfold FileStore.commit at refused
    split at refused
    · cases refused
    · rename_i inner
      cases refused
      exact AccurateStore.commit_refused inner arithmetic

/-! ## Saves -/

/-- A blob store whose saves never fail for arithmetic reasons. -/
def PlainSaves (β : Type) [BlobStore β] : Prop :=
  ∀ (blobs after : β) (scope parent : String) (index : Nat) (upload : Upload)
    (error : GalleryError), BlobStore.save blobs scope parent index upload = (.error error, after) →
      error.isArithmetic = false

theorem Upload.isArithmetic_of_media {upload : Upload} {error : GalleryError}
    (refused : upload.media = .error error) : error.isArithmetic = false := by
  unfold media at refused
  split at refused <;> cases refused
  rfl

theorem Segment.isArithmetic_of_check {kind value : String} {error : GalleryError}
    (refused : Segment.check kind value = .error error) : error.isArithmetic = false := by
  unfold check at refused
  split at refused <;> cases refused
  rfl

theorem Registry.isArithmetic_of_register {registry : Registry} {parent scope now : String}
    {error : GalleryError} (refused : registry.register parent scope now = .error error) :
    error.isArithmetic = false := by
  unfold register at refused
  simp only [bind, Except.bind, pure, Except.pure] at refused
  split at refused
  · rename_i refusal
    cases refused
    exact Segment.isArithmetic_of_check refusal
  · split at refused
    · rename_i refusal
      cases refused
      exact Segment.isArithmetic_of_check refusal
    · split at refused <;> cases refused

namespace LocalBlobs

open Disk

theorem isArithmetic_of_spool {directory temporary : Path} {upload : Upload} {size : Nat}
    {tree after : Tree} {failure : Failure}
    (failed : spool directory temporary upload size tree = (.error failure, after)) :
    failure.isArithmetic = false := by
  unfold spool at failed
  dsimp only at failed
  split at failed
  · cases failed
    rfl
  · split at failed
    · cases failed
      rfl
    · split at failed
      · cases failed
        rfl
      · split at failed <;> cases failed
        rfl

theorem isArithmetic_of_write {blobs after : LocalBlobs} {scope parent : String} {index : Nat}
    {upload : Upload} {media : MediaType} {failure : Failure}
    (failed : blobs.write scope parent index upload media = (.error failure, after)) :
    failure.isArithmetic = false := by
  unfold write at failed
  dsimp only at failed
  split at failed
  · cases failed
    rfl
  · split at failed
    · rename_i unspooled
      cases failed
      exact isArithmetic_of_spool unspooled
    · split at failed
      · cases failed
        rfl
      · cases failed

theorem plainSaves : PlainSaves LocalBlobs := by
  intro blobs after scope parent index upload error failed
  change blobs.save scope parent index upload = _ at failed
  unfold save at failed
  dsimp only at failed
  split at failed
  · rename_i refusal checked
    cases failed
    simp only [bind, Except.bind, pure, Except.pure] at checked
    split at checked
    · rename_i refused
      cases checked
      exact upload.isArithmetic_of_media refused
    · split at checked
      · rename_i refused
        cases checked
        exact Segment.isArithmetic_of_check refused
      · split at checked
        · rename_i refused
          cases checked
          exact Segment.isArithmetic_of_check refused
        · cases checked
  · split at failed
    · cases failed
    · rename_i unwritten
      cases failed
      exact isArithmetic_of_write unwritten

end LocalBlobs

theorem Faulty.plainSaves [BlobStore β] (plain : PlainSaves β) : PlainSaves (Faulty β) := by
  intro blobs after scope parent index upload error failed
  rcases save_cases failed with ⟨same, -⟩ | inner
  · cases same
    rfl
  · exact plain _ _ _ _ _ _ _ inner

/-! ## Operations -/

namespace Manager

section Transactions

variable [GalleryTx τ] [TxView τ] [AccurateTx τ]

theorem told_place {tx next : τ} {plan : List (Int × UInt32)} (placed : place tx plan = .ok next) :
    Told next = Told tx := by
  induction plan generalizing tx with
  | nil =>
      cases placed
      rfl
  | cons move plan ih =>
      unfold place at placed
      split at placed
      · rename_i middle moved
        rw [ih placed, ← AccurateTx.told_setSortOrder tx move.1 move.2, moved]
      · cases placed

theorem failsAsTold_place (tx : τ) (plan : List (Int × UInt32)) :
    FailsAsTold (Told tx) (place tx plan) := by
  induction plan generalizing tx with
  | nil => exact .ok tx
  | cons move plan ih =>
      unfold place
      split
      · rename_i middle moved
        rw [← AccurateTx.told_setSortOrder tx move.1 move.2, moved]
        exact ih middle
      · rename_i refused
        exact .error (.of_told (AccurateTx.setSortOrder_refused refused))

/-- Taking an image out fails as the transaction was told to. -/
theorem failsAsTold_takeOut (tx : τ) (target : ImageRecord) :
    FailsAsTold (Told tx) (takeOut tx target) := by
  have removed := AccurateTx.told_delete tx target.id
  have ranked (middle : τ) (same : Told middle = Told tx) (plan : List (Int × UInt32))
      (promoted : Option Int) : FailsAsTold (Told tx) do
        let placed ← place middle plan
        return (promoted, placed) := by
    rw [← same]
    exact (failsAsTold_place middle plan).bind fun placed _ => .ok _
  unfold takeOut
  dsimp only
  split
  · rename_i first others _ _
    split
    · rename_i middle assigned
      have same := congrArg (Told ·.2) assigned
      rw [AccurateTx.told_assignExclusiveCover, removed] at same
      exact ranked middle same.symm _ _
    · rename_i refused
      rw [← removed]
      exact .error (.of_told (AccurateTx.assignExclusiveCover_refused refused))
  · exact ranked _ removed _ _

theorem told_takeOut {tx next : τ} {target : ImageRecord} {promoted : Option Int}
    (taken : takeOut tx target = .ok (promoted, next)) : Told next = Told tx := by
  obtain ⟨middle, placed, ⟨first, others, -, -, -, assigned⟩ | ⟨-, -, rfl⟩⟩ := takeOut_cases taken
  · have same := congrArg (Told ·.2) assigned
    rw [AccurateTx.told_assignExclusiveCover, AccurateTx.told_delete] at same
    rw [told_place placed, same]
  · rw [told_place placed, AccurateTx.told_delete]

variable [BlobStore β]

/-- Writing a batch fails as the transaction was told to, if no save fails for arithmetic
reasons. -/
theorem failsAsTold_writeBatch (plain : PlainSaves β) (options : GalleryOptions)
    (parent : ParentRecord) (order : UInt32) (index : Nat) (cover : Bool) (uploads : List Upload)
    (batch : Batch τ β) :
    FailsAsTold (Told batch.tx)
      (writeBatch options parent order index cover uploads batch).1 := by
  induction uploads generalizing index cover batch with
  | nil => exact .ok []
  | cons upload uploads ih =>
      unfold writeBatch
      split
      · rename_i failed
        exact .error (.of_plain (plain _ _ _ _ _ _ _ failed))
      · dsimp only
        split
        · rename_i refused
          exact .error (.of_told (AccurateTx.insert_refused refused))
        · rename_i saved blobs _ _ record next inserted
          have others := ih (index + 1) false ⟨next, blobs, batch.clock.now.2⟩
          have same := congrArg (Told ·.2) inserted
          rw [AccurateTx.told_insert] at same
          rw [same]
          split
          · exact .ok _
          · exact others

theorem told_writeBatch {options : GalleryOptions} {parent : ParentRecord} {order : UInt32}
    {index : Nat} {cover : Bool} {uploads : List Upload} {batch after : Batch τ β}
    {records : List ImageRecord}
    (written : writeBatch options parent order index cover uploads batch = (.ok records, after)) :
    Told after.tx = Told batch.tx := by
  induction uploads generalizing index cover batch records with
  | nil =>
      cases written
      rfl
  | cons upload uploads ih =>
      unfold writeBatch at written
      split at written
      · cases written
      · dsimp only at written
        split at written
        · cases written
        · rename_i saved blobs _ record next inserted
          have same := congrArg (Told ·.2) inserted
          rw [AccurateTx.told_insert] at same
          split at written
          · rename_i rest
            cases written
            rw [ih rest, same]
          · rename_i failed
            exact absurd written (failed _ _)

variable [GalleryStore σ τ] [AccurateStore σ τ]

omit [BlobStore β] in
theorem failsAsTold_commitWith (manager : Manager σ β) (tx : τ) (value : α) :
    FailsAsTold (Told tx) (manager.commitWith tx value).1 := by
  unfold commitWith
  split
  · exact .ok value
  · rename_i refused
    exact .error (.of_told (AccurateStore.commit_refused refused))

theorem failsAsTold_append (plain : PlainSaves β) (manager : Manager σ β) (parent : ParentRecord)
    {tx : τ} (uploads : List Upload) (small : ∀ image ∈ (TxView.draft tx).images,
      image.sortOrder.toNat + 1 < UInt32.size) :
    FailsAsTold (Told tx) (manager.append parent tx uploads).1 := by
  unfold append
  split
  · rename_i refused
    obtain ⟨filename, rfl⟩ := checkMedia_eq_error refused
    exact .error (.of_plain rfl)
  · split
    · rename_i refused
      exact .error ((AccurateTx.nextOrder_exact small).lift _ refused)
    · rename_i order _
      have written := failsAsTold_writeBatch plain manager.options parent order 0
        (!GalleryTx.hasCover tx) uploads ⟨tx, manager.blobs, manager.clock⟩
      split
      · rename_i failed
        rw [failed] at written
        exact written
      · rename_i records batch done
        have same : Told batch.tx = Told tx := told_writeBatch done
        have committed := failsAsTold_commitWith
          { manager with blobs := batch.blobs, clock := batch.clock } batch.tx records
        rw [same] at committed
        split
        · exact .ok _
        · exact committed

end Transactions

section Calls

variable [GalleryTx τ] [TxView τ] [AccurateTx τ] [GalleryStore σ τ] [AccurateStore σ τ]

theorem failsAsTold_withdraw [BlobStore β] (manager : Manager σ β) (parentId : String) (id : Int) :
    FailsAsTold (ToldStore manager.store) (manager.withdraw parentId id).1 := by
  have told := AccurateStore.told_start manager.store parentId
  rw [← told]
  unfold withdraw
  dsimp only
  split
  · exact .error (.of_plain rfl)
  · rename_i target _
    have taken := failsAsTold_takeOut (GalleryStore.start manager.store parentId) target
    split
    · rename_i refused
      exact .error (taken _ refused)
    · rename_i promoted tx done
      have committed := failsAsTold_commitWith manager tx ()
      rw [told_takeOut done] at committed
      split
      · rename_i refused
        rw [refused] at committed
        exact .error (committed _ rfl)
      · exact .ok _

theorem failsAsTold_flag (manager : Manager σ β) (parentId : String) (id : Int) :
    FailsAsTold (ToldStore manager.store) (manager.flag parentId id).1 := by
  have told := AccurateStore.told_start manager.store parentId
  rw [← told]
  unfold flag
  dsimp only
  split
  · exact .error (.of_plain rfl)
  · split
    · rename_i refused
      exact .error (.of_told (AccurateTx.assignExclusiveCover_refused refused))
    · rename_i tx assigned
      have same := congrArg (Told ·.2) assigned
      rw [AccurateTx.told_assignExclusiveCover] at same
      split
      · exact .error (.of_plain rfl)
      · rw [same]
        exact failsAsTold_commitWith manager tx _

theorem failsAsTold_rearrange (manager : Manager σ β) (parentId : String)
    (items : List ReorderItem) :
    FailsAsTold (ToldStore manager.store) (manager.rearrange parentId items).1 := by
  have told := AccurateStore.told_start manager.store parentId
  rw [← told]
  unfold rearrange
  split
  · rename_i refused
    obtain ⟨-, rfl⟩ | ⟨_, _, -, rfl⟩ := Positions.ofItems_eq_error_iff.mp refused
    all_goals exact .error (.of_plain rfl)
  · dsimp only
    split
    · rename_i refused
      exact .error (failsAsTold_place _ _ _ refused)
    · rename_i tx done
      rw [← told_place done]
      exact failsAsTold_commitWith manager tx _

theorem parent_eq_error [ParentStore σ] {manager : Manager σ β} {id : String}
    {error : GalleryError} (refused : manager.parent id = .error error) :
    error = .parentNotFound id := by
  unfold Manager.parent at refused
  split at refused <;> cases refused
  rfl

end Calls

/-! ## Ranks -/

/-- The ranks of those images in a list whose position differs, as numbers without a bound. -/
def unboundedRanks (rank : Nat) : List ImageRecord → List (Int × Nat)
  | [] => []
  | image :: images =>
    if image.sortOrder.toNat = rank then unboundedRanks (rank + 1) images
    else (image.id, rank) :: unboundedRanks (rank + 1) images

/-- No rank of a plan loses anything in 32 bits. -/
structure RanksExactly (images : List ImageRecord) (effective : ImageRecord → Nat) : Prop where
  lossless : ∀ rank < images.length, rank.toUInt32.toNat = rank
  plan : (planRanks images effective).map (fun move => (move.1, move.2.toNat)) =
    unboundedRanks 0 (rankedBy effective images)

theorem map_toNat_changedRanks {rank : Nat} {images : List ImageRecord}
    (small : rank + images.length ≤ UInt32.size) :
    (changedRanks rank images).map (fun move => (move.1, move.2.toNat)) =
      unboundedRanks rank images := by
  induction images generalizing rank with
  | nil => rfl
  | cons image images ih =>
      rw [List.length_cons] at small
      have exact : rank.toUInt32.toNat = rank := UInt32.toNat_ofNat_of_lt' (by omega)
      have same : image.sortOrder = rank.toUInt32 ↔ image.sortOrder.toNat = rank := by
        rw [← UInt32.toNat_inj, exact]
      have others : (changedRanks (rank + 1) images).map (fun move => (move.1, move.2.toNat)) =
          unboundedRanks (rank + 1) images := ih (by omega)
      rw [changedRanks, unboundedRanks]
      by_cases placed : image.sortOrder.toNat = rank
      · rw [if_pos placed, if_pos (same.mpr placed), others]
      · rw [if_neg placed, if_neg (same.not.mpr placed), List.map_cons, others, exact]

theorem ranksExactly {images : List ImageRecord} (small : images.length < UInt32.size)
    (effective : ImageRecord → Nat) : RanksExactly images effective where
  lossless rank below := UInt32.toNat_ofNat_of_lt' (Nat.lt_trans below small)
  plan := by
    refine map_toNat_changedRanks ?_
    rw [(rankedBy_perm effective images).length_eq, Nat.zero_add]
    exact Nat.le_of_lt small

/-! ## Galleries -/

/-- The numbers of a gallery and of the calls on it are those without a bound. -/
structure ComputesExactly [GalleryTx τ] [GalleryStore σ τ] [ParentStore σ] [BlobStore β]
    (told : StoreError → Prop) (manager : Manager σ β) (parentId : String) : Prop where
  /-- The number of images fits 32 bits, and is answered. -/
  count : AnswersExactly told (GalleryTx.count (GalleryStore.start manager.store parentId))
    (GalleryStore.listImages manager.store parentId).length
  /-- The limit is not below it. -/
  room : ∀ count, GalleryTx.count (GalleryStore.start manager.store parentId) = .ok count →
    count ≤ manager.options.maxImagesPerParent ∧
      (manager.options.maxImagesPerParent - count).toNat =
        manager.options.maxImagesPerParent.toNat -
          (GalleryStore.listImages manager.store parentId).length
  /-- One more than a position is a position. -/
  successor : ∀ image ∈ GalleryStore.listImages manager.store parentId,
    (image.sortOrder + 1).toNat = image.sortOrder.toNat + 1
  /-- One more than the greatest position fits 32 bits, and is answered. It is the number of
  images. -/
  nextOrder : AnswersExactly told
    (GalleryTx.nextOrder (GalleryStore.start manager.store parentId))
    (GalleryStore.listImages manager.store parentId).length
  /-- An upload is refused at once, or each of its files has a position that fits 32 bits. -/
  positions : ∀ uploads, (∃ error, manager.receive parentId uploads = (.error error, manager)) ∨
    ∃ (parent : ParentRecord) (taken : List Upload) (counted : Manager σ β),
      manager.receive parentId uploads =
        counted.append parent (GalleryStore.start manager.store parentId) taken ∧
      ∀ order, GalleryTx.nextOrder (GalleryStore.start manager.store parentId) = .ok order →
        ∀ index < taken.length, index.toUInt32.toNat = index ∧
          (order + index.toUInt32).toNat =
            (GalleryStore.listImages manager.store parentId).length + index
  /-- The images that are left after a deletion have ranks that fit 32 bits. -/
  deletion : ∀ id, RanksExactly
    (GalleryTx.list (GalleryTx.delete (GalleryStore.start manager.store parentId) id))
    fun image => image.sortOrder.toNat
  /-- So have all images at a reordering. -/
  reordering : ∀ positions, RanksExactly
    (GalleryTx.list (GalleryStore.start manager.store parentId)) (wanted positions)

section Bounds

variable [StoreView σ τ] {manager : Manager σ β}

theorem length_lt_of_inOrder (ordered : GalleriesInOrder manager.options manager.store)
    (parentId : String) : (StoreView.images manager.store parentId).length < UInt32.size :=
  Nat.lt_of_le_of_lt (ordered parentId).fits manager.options.maxImagesPerParent.toNat_lt

/-- The positions of a gallery in order have a successor. -/
theorem succ_lt_of_inOrder (ordered : GalleriesInOrder manager.options manager.store)
    (parentId : String) : ∀ image ∈ StoreView.images manager.store parentId,
      image.sortOrder.toNat + 1 < UInt32.size :=
  fun _ mem => Nat.lt_of_le_of_lt ((ordered parentId).sortOrder_lt mem)
    (length_lt_of_inOrder ordered parentId)

end Bounds

section Galleries

variable [GalleryTx τ] [TxView τ] [AccurateTx τ] [GalleryStore σ τ] [ParentStore σ]
  [StoreView σ τ] [LawfulStore σ τ] [AccurateStore σ τ] {manager : Manager σ β}

theorem count_answersExactly (ordered : GalleriesInOrder manager.options manager.store)
    (parentId : String) : AnswersExactly (ToldStore manager.store)
      (GalleryTx.count (GalleryStore.start manager.store parentId))
      (StoreView.images manager.store parentId).length := by
  have started := LawfulStore.draft_start manager.store parentId
  have counted : AnswersExactly (Told (GalleryStore.start manager.store parentId)) _ _ :=
    AccurateTx.count_exact (by rw [started]; exact length_lt_of_inOrder ordered parentId)
  rwa [AccurateStore.told_start, started] at counted

theorem nextOrder_answersExactly (ordered : GalleriesInOrder manager.options manager.store)
    (parentId : String) : AnswersExactly (ToldStore manager.store)
      (GalleryTx.nextOrder (GalleryStore.start manager.store parentId))
      (StoreView.images manager.store parentId).length := by
  have started := LawfulStore.draft_start manager.store parentId
  have answered : AnswersExactly (Told (GalleryStore.start manager.store parentId)) _ _ :=
    AccurateTx.nextOrder_exact (by rw [started]; exact succ_lt_of_inOrder ordered parentId)
  have next : (TxView.draft (GalleryStore.start manager.store parentId)).nextOrder =
      (StoreView.images manager.store parentId).length := by
    rw [started]
    exact (ordered parentId).nextOrder_eq_length
  rwa [AccurateStore.told_start, next] at answered

variable [BlobStore β]

theorem failsAsTold_receive (plain : PlainSaves β)
    (ordered : GalleriesInOrder manager.options manager.store) (parentId : String)
    (uploads : List Upload) :
    FailsAsTold (ToldStore manager.store) (manager.receive parentId uploads).1 := by
  have appended (counted : Manager σ β) (parent : ParentRecord) (taken : List Upload) :
      FailsAsTold (ToldStore manager.store) (counted.append parent
        (GalleryStore.start manager.store parentId) taken).1 := by
    rw [← AccurateStore.told_start manager.store parentId]
    refine failsAsTold_append plain counted parent taken ?_
    rw [LawfulStore.draft_start]
    exact succ_lt_of_inOrder ordered parentId
  unfold receive
  split
  · rename_i refused
    rw [parent_eq_error refused]
    exact .error (.of_plain rfl)
  · split
    · exact .error (.of_plain rfl)
    · split
      · exact .error (.of_plain rfl)
      · dsimp only
        split
        · rename_i refused
          exact .error ((count_answersExactly ordered parentId).lift _ refused)
        · split
          · exact .error (.of_plain rfl)
          · split <;> exact appended _ _ _

/-- A call fails for arithmetic reasons only if the store was told to refuse it so. -/
theorem failsAsTold_perform (plain : PlainSaves β)
    (ordered : GalleriesInOrder manager.options manager.store) (call : Call) :
    FailsAsTold (ToldStore manager.store) (manager.perform call).1 := by
  cases call with
  | register parent scope =>
      have registered : FailsAsTold (ToldStore manager.store)
          (manager.register parent scope).1 := by
        unfold Manager.register ParentStore.register
        dsimp only
        split
        · rename_i refused
          exact .error (.of_plain (Registry.isArithmetic_of_register refused))
        · exact .ok _
      exact registered.map
  | upload parent uploads => exact (failsAsTold_receive plain ordered parent uploads).map
  | delete parent id => exact (failsAsTold_withdraw manager parent id).map
  | setCover parent id => exact (failsAsTold_flag manager parent id).map
  | reorder parent items => exact (failsAsTold_rearrange manager parent items).map
  | list parent =>
      have listed : FailsAsTold (ToldStore manager.store) (manager.list parent) := by
        unfold Manager.list
        split
        · rename_i refused
          rw [parent_eq_error refused]
          exact .error (.of_plain rfl)
        · exact .ok _
      exact listed.map

/-- In galleries in order everything is computed exactly. -/
theorem computesExactly [LawfulTx τ] (ordered : GalleriesInOrder manager.options manager.store)
    (parentId : String) : ComputesExactly (ToldStore manager.store) manager parentId := by
  have held : (GalleryStore.listImages manager.store parentId).length =
      (StoreView.images manager.store parentId).length := by
    rw [LawfulStore.listImages_eq, (arrange_perm _).length_eq]
  have started := LawfulStore.draft_start manager.store parentId
  have small := length_lt_of_inOrder ordered parentId
  have fits := (ordered parentId).fits
  have next := nextOrder_answersExactly ordered parentId
  refine ⟨?_, fun count counted => ?_, fun image mem => ?_, ?_, fun uploads => ?_, fun id => ?_,
    fun positions => ?_⟩
  · rw [held]
    exact count_answersExactly ordered parentId
  · have total : count.toNat = (StoreView.images manager.store parentId).length := by
      rw [LawfulTx.count_of_ok counted, started]
    have below : count ≤ manager.options.maxImagesPerParent := by
      rw [UInt32.le_iff_toNat_le, total]
      exact fits
    rw [held, ← total]
    exact ⟨below, UInt32.toNat_sub_of_le _ _ below⟩
  · rw [mem_listImages_iff] at mem
    rw [UInt32.toNat_add]
    exact Nat.mod_eq_of_lt (succ_lt_of_inOrder ordered parentId image mem)
  · rw [held]
    exact next
  · rcases manager.receive_cases parentId uploads with
      ⟨-, refused⟩ | ⟨parent, taken, counted, rfl, admits⟩
    · exact .inl refused
    · refine .inr ⟨parent, taken, counted, admits.receive_eq, fun order answered index below => ?_⟩
      have room := admits.fits
      have bound := manager.options.maxImagesPerParent.toNat_lt
      have position : order.toNat = (StoreView.images manager.store parent.id).length := by
        obtain ⟨value, same, exact⟩ | ⟨error, refused, -⟩ := next.exact
        · cases answered.symm.trans same
          exact exact
        · cases answered.symm.trans refused
      have offset : index.toUInt32.toNat = index :=
        UInt32.toNat_ofNat_of_lt' (Nat.lt_of_le_of_lt (by omega) bound)
      refine ⟨offset, ?_⟩
      rw [UInt32.toNat_add, offset, position, held]
      exact Nat.mod_eq_of_lt (Nat.lt_of_le_of_lt (by omega) bound)
  · refine ranksExactly ?_ _
    rw [LawfulTx.list_eq, (arrange_perm _).length_eq, LawfulTx.draft_delete, started]
    exact Nat.lt_of_le_of_lt (List.length_filter_le _ _) small
  · refine ranksExactly ?_ _
    rw [LawfulTx.list_eq, (arrange_perm _).length_eq, started]
    exact small

end Galleries

/-! ## Runs -/

/-- Nothing goes wrong in a state for arithmetic reasons: all galleries are computed exactly, and no
call fails with an error of arithmetic but those that the store was told. -/
structure ArithmeticSafe [GalleryTx τ] [GalleryStore σ τ] [ParentStore σ] [BlobStore β]
    (told : StoreError → Prop) (manager : Manager σ β) : Prop where
  galleries : ∀ parentId, ComputesExactly told manager parentId
  calls : ∀ call, FailsAsTold told (manager.perform call).1

/-- Nothing goes wrong after any run from an empty store. -/
theorem arithmeticSafe_run [GalleryTx τ] [TxView τ] [LawfulTx τ] [AccurateTx τ] [GalleryStore σ τ]
    [ParentStore σ] [StoreView σ τ] [LawfulStore σ τ] [AccurateStore σ τ] [Refusing σ ρ]
    [LawfulRefusing σ τ ρ] (manager : Manager σ (Faulty LocalBlobs))
    (empty : ∀ parent, StoreView.images manager.store parent = [])
    (steps : List (Step ρ (Faulty LocalBlobs))) :
    ArithmeticSafe (ToldStore (manager.run steps).store) (manager.run steps) := by
  obtain ⟨ordered, -⟩ := inOrder_of_empty manager empty steps
  exact ⟨computesExactly ordered,
    failsAsTold_perform (Faulty.plainSaves LocalBlobs.plainSaves) ordered⟩

/-- In memory, in a database that may refuse calls and in a file that is opened again at any time,
no number overflows in any run from an empty store, whatever the limits are. In memory no call fails
for arithmetic reasons; in a database a call does only if one of its statements was refused with
this very answer. -/
theorem arithmeticSafe_of_everyStore (options : GalleryOptions) (blobs : Faulty LocalBlobs)
    (clock : Clock) :
    (∀ steps : List (Step Bool (Faulty LocalBlobs)),
      ArithmeticSafe (fun _ => False) ((inMemory options blobs clock).run steps)) ∧
    (∀ (refusals : Refusals) (steps : List (Step Refusals (Faulty LocalBlobs))),
      let after := (inDatabase refusals options blobs clock).run steps
      ArithmeticSafe (fun error => ∃ call tried, after.store.refusals call tried = some error)
        after) ∧
    ∀ store : FileStore, store.connection.database = {} →
      ∀ steps : List (Step FileStore.Order (Faulty LocalBlobs)),
        let after := (inFile store options blobs clock).run steps
        ArithmeticSafe (fun error => ∃ call tried, after.store.refusals call tried = some error)
          after := by
  refine ⟨fun steps => arithmeticSafe_run _ (fun _ => rfl) steps,
    fun refusals steps => arithmeticSafe_run (inDatabase refusals options blobs clock)
      (fun _ => rfl) steps, fun store vacant steps => ?_⟩
  refine arithmeticSafe_run (inFile store options blobs clock) (fun parent => ?_) steps
  change store.connection.database.rowsOf parent = []
  rw [vacant]
  rfl

/-- Files are uploaded, deleted and reordered. -/
def everydaySteps : List (Step ρ β) :=
  [ .call (.register "p" "s"),
    .call (.upload "p" [.ofHeld "a.png" none [1], .ofHeld "b.png" none [2]]),
    .call (.delete "p" 1),
    .call (.reorder "p" [⟨some (.integer 2), some (.integer 7)⟩]) ]

/-- So it is with the greatest limit there is. -/
theorem arithmeticSafe_everydaySteps :
    let options : GalleryOptions := { maxImagesPerParent := 4294967295 }
    ArithmeticSafe (fun _ => False)
      ((inMemory options emptyDirectory { reading := fun _ => 0 }).run everydaySteps) ∧
    ∃ store : FileStore, store.connection.database = {} ∧
      let after := (inFile store options emptyDirectory { reading := fun _ => 0 }).run everydaySteps
      ArithmeticSafe (fun error => ∃ call tried, after.store.refusals call tried = some error)
        after := by
  intro options
  obtain ⟨store, vacant, -⟩ := exists_newFile
  obtain ⟨inMemorySafe, -, inFileSafe⟩ :=
    arithmeticSafe_of_everyStore options emptyDirectory { reading := fun _ => 0 }
  exact ⟨inMemorySafe _, store, vacant, inFileSafe store vacant _⟩

end Manager

end ImageGallery
