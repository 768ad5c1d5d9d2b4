import ImageGallery.Proofs.Accounting
import ImageGallery.Proofs.Uploading

/-!
# Files that are left out

An upload that brings more files than its gallery has room for leaves the last ones out and counts
them, and then it may still fail: at a file of no accepted format, at a save, or at the commit. So
the files of the uploads that succeeded are those that were stored and those that were left out,
but the counter also holds files of uploads that stored nothing. In a session without such uploads
the counters balance, and in any other session they do not.
-/

namespace ImageGallery

variable {σ τ ρ β : Type}

/-! ## Uploads that are cut short -/

namespace Manager

section LeftOut

variable [GalleryTx τ] [GalleryStore σ τ] [ParentStore σ]

/-- The number of files that an upload leaves out for want of room. It gets as far as that if the
parent is registered, if it does not bring too many files for one request, and if the store can
count the images of a gallery that is not full yet. -/
def leftOut (manager : Manager σ β) (parentId : String) (uploads : List Upload) : Nat :=
  let held := (GalleryStore.listImages manager.store parentId).length
  let limit := manager.options.maxImagesPerParent.toNat
  if ((ParentStore.registry manager.store).find? parentId).isSome ∧
      uploads.length ≤ manager.options.maxFilesPerRequest ∧
      (GalleryTx.count (GalleryStore.start manager.store parentId)).isOk ∧ held < limit then
    held + uploads.length - limit
  else 0

variable [TxView τ] [LawfulTx τ] [StoreView σ τ] [LawfulStore σ τ] [BlobStore β]

/-- The files of an upload that there is room for are appended, after the others were counted. -/
structure Admits (manager : Manager σ β) (parent : ParentRecord) (uploads taken : List Upload)
    (counted : Manager σ β) : Prop where
  registered : (ParentStore.registry manager.store).find? parent.id = some parent
  fits : (StoreView.images manager.store parent.id).length + taken.length ≤
    manager.options.maxImagesPerParent.toNat
  length_eq : taken.length + manager.leftOut parent.id uploads = uploads.length
  store_eq : counted.store = manager.store
  options_eq : counted.options = manager.options
  value_eq : counted.counters.value .imagesTruncated =
    manager.counters.value .imagesTruncated + manager.leftOut parent.id uploads
  receive_eq : manager.receive parent.id uploads =
    counted.append parent (GalleryStore.start manager.store parent.id) taken

omit [TxView τ] [LawfulTx τ] [StoreView σ τ] [LawfulStore σ τ] in
/-- An upload to a gallery with room appends the files that there is room for. -/
theorem receive_of_room {manager : Manager σ β} {parent : ParentRecord} {uploads : List Upload}
    {count : UInt32} (found : manager.parent parent.id = .ok parent)
    (some_uploads : ¬uploads.isEmpty = true)
    (few : ¬manager.options.maxFilesPerRequest < uploads.length)
    (answered : GalleryTx.count (GalleryStore.start manager.store parent.id) = .ok count)
    (free : ¬manager.options.maxImagesPerParent ≤ count) :
    let room := manager.options.maxImagesPerParent.toNat - count.toNat
    manager.receive parent.id uploads =
      if room < uploads.length then
        (manager.tally .imagesTruncated (uploads.length - room)).append parent
          (GalleryStore.start manager.store parent.id) (uploads.take room)
      else manager.append parent (GalleryStore.start manager.store parent.id) uploads := by
  have room : (manager.options.maxImagesPerParent - count).toNat =
      manager.options.maxImagesPerParent.toNat - count.toNat :=
    UInt32.toNat_sub_of_le _ _ (UInt32.le_of_lt (UInt32.not_le.mp free))
  rw [receive, found]
  dsimp only
  rw [if_neg some_uploads, if_neg few, answered]
  dsimp only [lift, Except.mapError]
  rw [if_neg free, room]

/-- An upload is refused before it counts anything, or it appends what there is room for. -/
theorem receive_cases (manager : Manager σ β) (parentId : String) (uploads : List Upload) :
    (manager.leftOut parentId uploads = 0 ∧
        ∃ error, manager.receive parentId uploads = (.error error, manager)) ∨
      ∃ parent taken counted, parent.id = parentId ∧
        manager.Admits parent uploads taken counted := by
  have held : (GalleryStore.listImages manager.store parentId).length =
      (StoreView.images manager.store parentId).length := by
    rw [LawfulStore.listImages_eq, (arrange_perm _).length_eq]
  rcases found : manager.parent parentId with error | parent
  · refine .inl ⟨if_neg fun conditions => ?_, error, by rw [receive, found]⟩
    obtain ⟨parent, registered⟩ := Option.isSome_iff_exists.mp conditions.1
    rw [Manager.parent, registered] at found
    cases found
  obtain ⟨rfl, registered⟩ := id_eq_of_parent_eq_ok found
  by_cases nothing : uploads.isEmpty = true
  · refine .inl ⟨?_, .invalidInput .noFiles, by rw [receive, found]; exact if_pos nothing⟩
    rw [List.isEmpty_iff] at nothing
    simp only [leftOut, nothing, List.length_nil, Nat.add_zero]
    split <;> omega
  by_cases many : manager.options.maxFilesPerRequest < uploads.length
  · refine .inl ⟨if_neg fun conditions => Nat.not_lt.mpr conditions.2.1 many,
      .limitExceeded manager.options.maxFilesPerRequest uploads.length, ?_⟩
    rw [receive, found]
    exact (if_neg nothing).trans (if_pos many)
  rcases answered : GalleryTx.count (GalleryStore.start manager.store parent.id) with error | count
  · refine .inl ⟨if_neg fun conditions => ?_, .ofStore error, ?_⟩
    · rw [answered] at conditions
      exact Bool.false_ne_true conditions.2.2.1
    · rw [receive, found]
      refine (if_neg nothing).trans ((if_neg many).trans ?_)
      dsimp only
      rw [answered]
      rfl
  have total : count.toNat = (StoreView.images manager.store parent.id).length := by
    rw [LawfulTx.count_of_ok answered, LawfulStore.draft_start]
  by_cases full : manager.options.maxImagesPerParent ≤ count
  · refine .inl ⟨if_neg fun conditions => ?_,
      .capacityExceeded parent.id manager.options.maxImagesPerParent.toNat, ?_⟩
    · rw [UInt32.le_iff_toNat_le] at full
      omega
    · rw [receive, found]
      refine (if_neg nothing).trans ((if_neg many).trans ?_)
      dsimp only
      rw [answered]
      exact if_pos full
  have received := receive_of_room found nothing many answered full
  dsimp only at received
  rw [UInt32.le_iff_toNat_le] at full
  have dropped : manager.leftOut parent.id uploads =
      count.toNat + uploads.length - manager.options.maxImagesPerParent.toNat := by
    rw [leftOut, held, ← total, registered, answered]
    exact if_pos ⟨rfl, Nat.not_lt.mp many, rfl, Nat.not_le.mp full⟩
  refine .inr ?_
  split at received
  · rename_i crowded
    refine ⟨parent, _, manager.tally .imagesTruncated (uploads.length -
      (manager.options.maxImagesPerParent.toNat - count.toNat)), rfl, registered, ?_, ?_, rfl, rfl,
      ?_, received⟩
    · rw [List.length_take]
      omega
    · rw [List.length_take]
      omega
    · rw [value_tally, if_pos rfl, dropped]
      omega
  · rename_i fitting
    refine ⟨parent, uploads, manager, rfl, registered, ?_, ?_, rfl, rfl, ?_, received⟩
    all_goals omega

/-! ## What is counted -/

omit [ParentStore σ] [TxView τ] [LawfulTx τ] [StoreView σ τ] [LawfulStore σ τ] in
/-- Appending counts what it stored and nothing that was left out. -/
theorem value_imagesTruncated_append (manager : Manager σ β) (parent : ParentRecord) (tx : τ)
    (uploads : List Upload) :
    (manager.append parent tx uploads).2.counters.value .imagesTruncated =
      manager.counters.value .imagesTruncated := by
  unfold append
  split
  · rfl
  · split
    · rfl
    · rename_i order _
      rcases writeBatch manager.options parent order 0 (!GalleryTx.hasCover tx) uploads
        { tx, blobs := manager.blobs, clock := manager.clock } with ⟨error | records, batch⟩
      · rfl
      · have counters := counters_commitWith
          { manager with blobs := batch.blobs, clock := batch.clock } batch.tx records
        dsimp only
        rcases committed : commitWith
          { manager with blobs := batch.blobs, clock := batch.clock } batch.tx records with
          ⟨error | answer, published⟩ <;> rw [committed] at counters
        · exact congrArg (·.value .imagesTruncated) counters
        · rw [value_tally, if_neg (by simp), Nat.add_zero, counters]

omit [ParentStore σ] [TxView τ] [LawfulTx τ] [StoreView σ τ] [LawfulStore σ τ] in
theorem value_imagesTruncated_withdraw (manager : Manager σ β) (parentId : String) (id : Int) :
    (manager.withdraw parentId id).2.counters.value .imagesTruncated =
      manager.counters.value .imagesTruncated := by
  unfold withdraw
  dsimp only
  split
  · rfl
  · split
    · rfl
    · rename_i tx _
      have counters := counters_commitWith manager tx ()
      rcases committed : manager.commitWith tx () with ⟨error | answer, published⟩ <;>
        rw [committed] at counters
      · exact congrArg (·.value .imagesTruncated) counters
      · have same := congrArg (·.value .imagesTruncated) counters
        dsimp only
        split
        · exact same
        · rw [value_tally, if_neg (by simp), Nat.add_zero]
          exact same

/-- An upload counts what it leaves out, and it stores the others if it succeeds. -/
theorem leftOut_of_receive (manager : Manager σ β) (parentId : String) (uploads : List Upload) :
    (manager.receive parentId uploads).2.counters.value .imagesTruncated =
        manager.counters.value .imagesTruncated + manager.leftOut parentId uploads ∧
      ∀ records, (manager.receive parentId uploads).1 = .ok records →
        records.length + manager.leftOut parentId uploads = uploads.length := by
  rcases manager.receive_cases parentId uploads with
    ⟨none, error, refused⟩ | ⟨parent, taken, counted, rfl, admits⟩
  · rw [refused, none]
    exact ⟨rfl, fun records impossible => by cases impossible⟩
  · rw [admits.receive_eq, value_imagesTruncated_append, admits.value_eq]
    refine ⟨rfl, fun records succeeded => ?_⟩
    rw [← admits.store_eq] at succeeded
    obtain ⟨saved, order, stored⟩ :=
      append_of_ok (by rw [admits.store_eq]; exact admits.registered)
        (by rw [admits.store_eq, admits.options_eq]; exact admits.fits) (Prod.ext succeeded rfl)
    rw [stored.length_eq, admits.length_eq]

end LeftOut

end Manager

/-! ## Calls -/

namespace Event

theorem recordsIn_of_failed {event : Event σ β} (failed : ¬event.answer.toBool = true) :
    recordsIn event.answer = [] := by
  unfold recordsIn
  split
  · rename_i records answered
    rw [answered] at failed
    exact (failed rfl).elim
  · rfl

section Files

variable [GalleryTx τ] [GalleryStore σ τ] [ParentStore σ]

/-- The number of files that a call leaves out. -/
def leftOut (event : Event σ β) : Nat :=
  match event.call with
  | .upload parent uploads => event.before.leftOut parent uploads
  | _ => 0

/-- The number of files that were submitted to an upload that succeeded. -/
def submitted (event : Event σ β) : Nat :=
  match event.call with
  | .upload _ uploads => if event.answer.toBool then uploads.length else 0
  | _ => 0

omit [ParentStore σ] in
theorem submitted_of_failed {event : Event σ β} (failed : ¬event.answer.toBool = true) :
    event.submitted = 0 := by
  unfold submitted
  split
  · exact if_neg failed
  · rfl

/-- Files that were left out are those of an upload that stored its other files. -/
def LeavesOutOfStored (event : Event σ β) : Prop :=
  0 < event.leftOut → ∃ parent uploads records, event.call = .upload parent uploads ∧
    event.answer = .ok (.stored records) ∧ records.length + event.leftOut = uploads.length

end Files

end Event

namespace Manager

section Calls

variable [GalleryTx τ] [GalleryStore σ τ] [ParentStore σ] [TxView τ] [LawfulTx τ] [StoreView σ τ]
  [LawfulStore σ τ] [BlobStore β]

/-- A call counts the files that it leaves out, whether it succeeds or not. -/
theorem value_imagesTruncated_perform (manager : Manager σ β) (call : Call) :
    (manager.perform call).2.counters.value .imagesTruncated =
      manager.counters.value .imagesTruncated + (manager.event call).leftOut := by
  cases call with
  | register parent scope => rfl
  | upload parent uploads =>
      refine (value_tally _ _ _ _).trans ?_
      rw [if_neg (by simp), Nat.add_zero, (leftOut_of_receive manager parent uploads).1]
      rfl
  | delete parent id =>
      refine (value_tally _ _ _ _).trans ?_
      rw [if_neg (by simp), Nat.add_zero, value_imagesTruncated_withdraw]
      rfl
  | setCover parent id =>
      refine (value_tally _ _ _ _).trans ?_
      rw [if_neg (by simp), Nat.add_zero, counters_flag]
      rfl
  | reorder parent items =>
      refine (value_tally _ _ _ _).trans ?_
      rw [if_neg (by simp), Nat.add_zero, counters_rearrange]
      rfl
  | list parent => rfl

/-- The files of an upload that succeeded are stored, but for those that are left out. -/
theorem submitted_perform (manager : Manager σ β) (call : Call)
    (succeeded : (manager.event call).answer.toBool = true) :
    (recordsIn (manager.event call).answer).length + (manager.event call).leftOut =
      (manager.event call).submitted := by
  rcases answered : (manager.perform call).1 with error | answer
  · rw [event, answered] at succeeded
    cases succeeded
  cases call with
  | upload parent uploads =>
      obtain ⟨records, received, rfl⟩ := answerAs_eq_ok (Prod.ext answered rfl)
      have received := congrArg Prod.fst received
      rw [Event.submitted, event, answered]
      exact (leftOut_of_receive manager parent uploads).2 records received
  | register | delete | setCover | reorder | list =>
      obtain ⟨value, -, rfl⟩ := answerAs_eq_ok (Prod.ext answered rfl)
      rw [event, answered]
      rfl

/-- What a call leaves out belongs to files of which the others were stored, unless it fails. -/
theorem leavesOutOfStored_iff (manager : Manager σ β) (call : Call) :
    (manager.event call).LeavesOutOfStored ↔
      ((manager.event call).answer.toBool = false → (manager.event call).leftOut = 0) := by
  constructor
  · intro stored failed
    by_contra some
    obtain ⟨_, _, records, -, answered, -⟩ := stored (Nat.pos_of_ne_zero some)
    rw [answered] at failed
    cases failed
  · intro none some
    have succeeded : (manager.event call).answer.toBool = true :=
      (Bool.eq_false_or_eq_true _).resolve_right fun failed => some.ne' (none failed)
    have balanced := submitted_perform manager call succeeded
    cases call with
    | upload parent uploads =>
        rcases answered : (manager.perform (.upload parent uploads)).1 with error | answer
        · rw [event, answered] at succeeded
          cases succeeded
        obtain ⟨records, -, rfl⟩ := answerAs_eq_ok (Prod.ext answered rfl)
        refine ⟨parent, uploads, records, rfl, answered, ?_⟩
        rw [Event.submitted, event, answered] at balanced
        exact balanced
    | register | delete | setCover | reorder | list => exact absurd some (lt_irrefl 0)

end Calls

/-! ## Balances -/

section Balances

variable [GalleryTx τ] [GalleryStore σ τ] [ParentStore σ]

/-- The counters of stored files and of files that were left out grew by the files of the uploads
that succeeded, and each file that was left out is one of an upload that stored its others. -/
structure Settled (start after : Manager σ β) (events : List (Event σ β)) : Prop where
  balanced : growth start after .imagesUploaded + growth start after .imagesTruncated =
    ((events.map (·.submitted)).sum : Nat)
  stored : ∀ event ∈ events, event.LeavesOutOfStored

/-- The files that were left out of uploads that failed. -/
def leftOutInVain (events : List (Event σ β)) : Nat :=
  (events.map fun event => if event.answer.toBool then 0 else event.leftOut).sum

/-- What is counted in a run: each call counts the files that it leaves out, and those of a call
that fails as well. -/
structure CountsLeftOut (start after : Manager σ β) (events : List (Event σ β)) : Prop where
  /-- Each call counts what it leaves out. -/
  each : ∀ event ∈ events, event.after.counters.value .imagesTruncated =
    event.before.counters.value .imagesTruncated + event.leftOut
  /-- Nothing else counts such files. -/
  truncated : growth start after .imagesTruncated = ((events.map (·.leftOut)).sum : Nat)
  /-- The counters grow by the files of the uploads that succeeded, and by those that were left out
  of the others. -/
  total : growth start after .imagesUploaded + growth start after .imagesTruncated =
    ((events.map (·.submitted)).sum + leftOutInVain events : Nat)
  /-- So the counters are settled if and only if no upload that failed had left files out. -/
  settled_iff : Settled start after events ↔
    ∀ event ∈ events, event.answer.toBool = false → event.leftOut = 0

theorem leftOutInVain_eq_zero_iff (events : List (Event σ β)) : leftOutInVain events = 0 ↔
    ∀ event ∈ events, event.answer.toBool = false → event.leftOut = 0 := by
  rw [leftOutInVain, List.sum_eq_zero_iff_forall_eq_nat, List.forall_mem_map]
  refine forall₂_congr fun event _ => ?_
  cases event.answer.toBool <;> simp

variable [TxView τ] [LawfulTx τ] [StoreView σ τ] [LawfulStore σ τ] [BlobStore β]

/-- What was stored and what was left out, in calls that were made. -/
theorem sum_submitted {events : List (Event σ β)}
    (performed : ∀ event ∈ events, ∃ manager call, event = Manager.event manager call) :
    (events.map (·.rise .imagesUploaded)).sum + (events.map (·.leftOut)).sum =
      (events.map (·.submitted)).sum + leftOutInVain events := by
  induction events with
  | nil => rfl
  | cons event events ih =>
      obtain ⟨⟨manager, call, rfl⟩, others⟩ := List.forall_mem_cons.mp performed
      have rest := ih others
      have here : (manager.event call).rise .imagesUploaded + (manager.event call).leftOut =
          (manager.event call).submitted + if (manager.event call).answer.toBool then 0
            else (manager.event call).leftOut := by
        rw [Event.rise_imagesUploaded]
        split
        · rename_i succeeded
          exact submitted_perform manager call succeeded
        · rename_i failed
          rw [Event.recordsIn_of_failed failed, Event.submitted_of_failed failed]
          rfl
      simp only [leftOutInVain, List.map_cons, List.sum_cons] at rest ⊢
      omega

/-- A run that raised the counters by what its calls tell counts what was left out. -/
theorem countsLeftOut_of_sums {start after : Manager σ β} {events : List (Event σ β)}
    (performed : ∀ event ∈ events, ∃ manager call, event = Manager.event manager call)
    (uploaded : after.counters.value .imagesUploaded =
      start.counters.value .imagesUploaded + (events.map (·.rise .imagesUploaded)).sum)
    (truncated : after.counters.value .imagesTruncated =
      start.counters.value .imagesTruncated + (events.map (·.leftOut)).sum) :
    CountsLeftOut start after events := by
  have sums := sum_submitted performed
  have total : growth start after .imagesUploaded + growth start after .imagesTruncated =
      ((events.map (·.submitted)).sum + leftOutInVain events : Nat) := by
    rw [growth, growth, uploaded, truncated]
    omega
  refine ⟨fun event mem => ?_, ?_, total, ⟨fun settled => ?_, fun none => ?_⟩⟩
  · obtain ⟨manager, call, rfl⟩ := performed event mem
    exact value_imagesTruncated_perform manager call
  · rw [growth, truncated]
    omega
  · have balanced := settled.balanced
    exact (leftOutInVain_eq_zero_iff events).mp (by omega)
  · have vain := (leftOutInVain_eq_zero_iff events).mpr none
    refine ⟨by rw [total, vain, Nat.add_zero], fun event mem => ?_⟩
    obtain ⟨manager, call, rfl⟩ := performed event mem
    exact (leavesOutOfStored_iff manager call).mpr (none _ mem)

end Balances

end Manager

/-! ## Sessions -/

namespace Http.Service

section Sessions

variable [GalleryTx τ] [GalleryStore σ τ] [ParentStore σ] [Refusing σ ρ]
  {service : Service σ (Faulty LocalBlobs)}

/-- The events of a session are calls that were performed. -/
theorem exists_event_eq {turns : List (Turn ρ)} {events : List (Event σ (Faulty LocalBlobs))}
    (made : service.MakesAll turns events) :
    ∀ event ∈ events, ∃ manager call, event = Manager.event manager call := by
  induction made with
  | nil => simp
  | cons first others ih =>
      refine List.forall_mem_append.mpr ⟨?_, ih⟩
      cases first with
      | direct step =>
          cases step with
          | call call => simp [Manager.ProcessStep.toStep, Manager.events]
          | refuse | upkeep | change => simp [Manager.ProcessStep.toStep, Manager.events]
      | asked => simp
      | idle => simp

/-- A counter that each call raises by an amount is raised by the sum in a session, unless it counts
requests. -/
theorem value_session {counter : Counter} (plain : counter.countsRequests = false)
    (raised : Event σ (Faulty LocalBlobs) → Nat)
    (perform : ∀ (manager : Manager σ (Faulty LocalBlobs)) (call : Call),
      (manager.perform call).2.counters.value counter =
        manager.counters.value counter + raised (manager.event call))
    {turns : List (Turn ρ)} {events : List (Event σ (Faulty LocalBlobs))}
    (made : service.MakesAll turns events) :
    (service.session turns).manager.counters.value counter =
      service.manager.counters.value counter + (events.map raised).sum := by
  induction made with
  | nil => rfl
  | @cons service turn turns events later first others ih =>
      have here : (service.turn turn).manager.counters.value counter =
          service.manager.counters.value counter + (events.map raised).sum := by
        cases first with
        | direct step =>
            cases step with
            | call call =>
                exact (perform _ call).trans
                  (by simp [Manager.events, Manager.ProcessStep.toStep])
            | refuse | upkeep | change => rfl
        | asked asked =>
            rw [List.map_singleton, List.sum_singleton, ← perform]
            exact (performs_of_asks asked).state.value_eq counter plain
        | @idle request unasked =>
            have state := handle_manager service request
            rw [dispatch_of_not_asks _ unasked] at state
            exact state.value_eq counter plain
      rw [List.map_append, List.sum_append, ← Nat.add_assoc, ← here, ← ih]
      rfl

/-- The counters of a session, which makes its calls one after the other. -/
def CountsLeftOut (service : Service σ (Faulty LocalBlobs)) (turns : List (Turn ρ)) : Prop :=
  (∃ events, service.MakesAll turns events) ∧
    ∀ events, service.MakesAll turns events →
      Manager.CountsLeftOut service.manager (service.session turns).manager events

theorem countsLeftOut [TxView τ] [LawfulTx τ] [StoreView σ τ] [LawfulStore σ τ]
    (service : Service σ (Faulty LocalBlobs)) (turns : List (Turn ρ)) :
    service.CountsLeftOut turns := by
  refine ⟨exists_makesAll service turns, fun events made => ?_⟩
  refine Manager.countsLeftOut_of_sums (exists_event_eq made) ?_ ?_
  · refine value_session rfl _ (fun manager call => ?_) made
    exact Manager.raises_perform manager call .imagesUploaded (by simp)
  · exact value_session rfl _ Manager.value_imagesTruncated_perform made

end Sessions

/-- In memory, in a database that may refuse calls and in a file that is opened again at any time,
files that an upload leaves out are counted when it leaves them out, whether it stores the others or
fails afterwards, and so a session is settled if and only if no upload that failed had left files
out. -/
theorem countsLeftOut_of_everyStore (memory : Service MemoryStore (Faulty LocalBlobs))
    (database : Service (Fallible Database) (Faulty LocalBlobs))
    (file : Service FileStore (Faulty LocalBlobs)) (turns : List (Turn Bool))
    (refused : List (Turn Refusals)) (reopened : List (Turn FileStore.Order)) :
    memory.CountsLeftOut turns ∧ database.CountsLeftOut refused ∧ file.CountsLeftOut reopened :=
  ⟨countsLeftOut memory turns, countsLeftOut database refused, countsLeftOut file reopened⟩

/-- A gallery with room for one image is sent a file of a format that is not accepted, and another
file. -/
def overfullTurns : List (Turn ρ) :=
  [ .direct (.call (.register "p" "s")),
    .direct (.call (.upload "p" [.ofHeld "a.gif" (some "image/gif") [1],
      .ofHeld "b.png" (some "image/png") [2]])) ]

/-- The upload fails, no file is stored, and yet one is counted as left out. -/
theorem not_settled_overfullTurns :
    let service : Service MemoryStore (Faulty LocalBlobs) :=
      { manager := Manager.inMemory { maxImagesPerParent := 1 } Manager.emptyDirectory
          { reading := fun _ => 0 },
        tags := fun _ => 0 }
    ∃ events, service.MakesAll (overfullTurns (ρ := Bool)) events ∧
      ¬Manager.Settled service.manager (service.session (overfullTurns (ρ := Bool))).manager
        events := by
  intro service
  refine ⟨_, .cons (.direct _) (.cons (.direct _) .nil), fun settled => ?_⟩
  have balanced := settled.balanced
  revert balanced
  decide +kernel

end Http.Service

end ImageGallery
