import ImageGallery.Manager
import ImageGallery.Proofs.Draft

/-!
# Effects of the operations

What an operation that succeeds does to the gallery of its parent, as a function of the images that
the gallery had, and what an operation that fails leaves behind. Everything follows from the laws
of stores, whatever the store and whatever the blob store.
-/

namespace ImageGallery.Manager

variable {σ τ β α : Type}

/-! ## Counting -/

@[simp]
theorem store_tally (manager : Manager σ β) (counter : Counter) (amount : Nat) :
    (manager.tally counter amount).store = manager.store :=
  rfl

@[simp]
theorem blobs_tally (manager : Manager σ β) (counter : Counter) (amount : Nat) :
    (manager.tally counter amount).blobs = manager.blobs :=
  rfl

@[simp]
theorem options_tally (manager : Manager σ β) (counter : Counter) (amount : Nat) :
    (manager.tally counter amount).options = manager.options :=
  rfl

@[simp]
theorem clock_tally (manager : Manager σ β) (counter : Counter) (amount : Nat) :
    (manager.tally counter amount).clock = manager.clock :=
  rfl

/-- An operation answers as it does when its outcome is not counted, and leaves a state that differs
in the counters only. -/
theorem record_eq {operation : Operation} {result : Except GalleryError α × Manager σ β}
    {answer : Except GalleryError α} {after : Manager σ β}
    (recorded : record operation result = (answer, after)) :
    ∃ middle, result = (answer, middle) ∧ after.store = middle.store ∧
      after.blobs = middle.blobs ∧ after.options = middle.options := by
  rcases result with ⟨uncounted, middle⟩
  cases recorded
  exact ⟨middle, rfl, rfl, rfl, rfl⟩

/-! ## Files -/

section Files

variable [BlobStore β]

/-- The uploads of a parent are saved one after the other, the first of them at the given index. -/
inductive Saves (parent : ParentRecord) :
    (index : Nat) → List Upload → β → List SavedBlob → β → Prop where
  | nil {index : Nat} {blobs : β} : Saves parent index [] blobs [] blobs
  | cons {index : Nat} {upload : Upload} {uploads : List Upload} {saved : SavedBlob}
      {others : List SavedBlob} {blobs middle after : β}
      (first : BlobStore.save blobs parent.scopeId parent.id index upload = (.ok saved, middle))
      (rest : Saves parent (index + 1) uploads middle others after) :
      Saves parent index (upload :: uploads) blobs (saved :: others) after

theorem Saves.length_eq {parent : ParentRecord} {index : Nat} {uploads : List Upload}
    {blobs after : β} {saved : List SavedBlob}
    (saves : Saves parent index uploads blobs saved after) :
    saved.length = uploads.length := by
  induction saves with
  | nil => rfl
  | cons _ _ ih => rw [List.length_cons, List.length_cons, ih]

/-- Where the blob store is left by an upload that fails: as it was, or after files of the upload
were saved, and then a record of them was refused or the next file could not be saved. -/
inductive Halted (manager : Manager σ β) [ParentStore σ] (parentId : String)
    (error : GalleryError) : β → Prop where
  | early : Halted manager parentId error manager.blobs
  | refused {parent : ParentRecord} {uploads : List Upload} {saved : List SavedBlob} {after : β}
      {cause : StoreError}
      (registered : (ParentStore.registry manager.store).find? parentId = some parent)
      (saves : Saves parent 0 uploads manager.blobs saved after)
      (reason : error = .ofStore cause) : Halted manager parentId error after
  | unsaved {parent : ParentRecord} {uploads : List Upload} {upload : Upload}
      {saved : List SavedBlob} {middle after : β}
      (registered : (ParentStore.registry manager.store).find? parentId = some parent)
      (saves : Saves parent 0 uploads manager.blobs saved middle)
      (accepted : upload.media.isOk)
      (failed : BlobStore.save middle parent.scopeId parent.id uploads.length upload =
        (.error error, after)) : Halted manager parentId error after

end Files

/-! ## Records -/

/-- The records of saved files, the first with the given index, position in the sequence of ids and
cover flag. -/
def recordsOf (options : GalleryOptions) (parent : ParentRecord) (order : UInt32) :
    (index : Nat) → (cover : Bool) → (lastId : Int) → Clock → List SavedBlob → List ImageRecord
  | _, _, _, _, [] => []
  | index, cover, lastId, clock, saved :: others =>
    { url := options.imageUrl parent.id saved.filename
      storageKey := saved.storageKey
      isCover := cover
      sortOrder := order + index.toUInt32
      createdAt := clock.now.1
      id := lastId + 1
      parentId := parent.id } ::
    recordsOf options parent order (index + 1) false (lastId + 1) clock.now.2 others

/-! ## Galleries with another cover -/

/-- The images of a gallery when one of them is made the only cover. -/
def withCover (images : List ImageRecord) (id : Int) : List ImageRecord :=
  images.map fun image => { image with isCover := decide (image.id = id) }

/-- The image that becomes the cover when an image is taken out and others are left: the first of
them if the image was the cover. -/
def promotedAmong (others : List ImageRecord) (target : ImageRecord) : Option Int :=
  if target.isCover then (ImageRecord.arrange others).head?.map (·.id) else none

/-- Images with another cover, if there is another one. -/
def promote : Option Int → List ImageRecord → List ImageRecord
  | none, images => images
  | some id, images => withCover images id

/-- A gallery without an image: the first of the others is the cover if the image was, and the
others keep their order without a gap. -/
def without (images : List ImageRecord) (target : ImageRecord) : List ImageRecord :=
  let others := images.filter fun image => image.id ≠ target.id
  (promote (promotedAmong others target) others).map fun image =>
    image.atRankIn (ImageRecord.arrange others)

/-- What happens to the images of a gallery one by one when the cover changes: id and position
stay. -/
theorem exists_of_mem_promote {promoted : Option Int} {images : List ImageRecord}
    {image : ImageRecord} (mem : image ∈ promote promoted images) :
    ∃ original ∈ images, image.id = original.id ∧ image.sortOrder = original.sortOrder := by
  cases promoted with
  | none => exact ⟨image, mem, rfl, rfl⟩
  | some id =>
      obtain ⟨original, originalMem, rfl⟩ := List.mem_map.mp mem
      exact ⟨original, originalMem, rfl, rfl⟩

/-! ## Batches -/

/-- The first file of no accepted format is refused. -/
theorem checkMedia_eq (uploads : List Upload) : checkMedia uploads =
    match uploads.find? fun upload => upload.media?.isNone with
    | some upload => .error (.unsupportedMediaType upload.filename)
    | none => .ok () := by
  induction uploads with
  | nil => rfl
  | cons upload uploads ih =>
      rw [checkMedia, Upload.media, List.find?_cons]
      cases upload.media? with
      | none => rfl
      | some media => exact ih

theorem find?_isNone_eq_none_iff {uploads : List Upload} :
    (uploads.find? fun upload => upload.media?.isNone) = none ↔
      ∀ upload ∈ uploads, upload.media?.isSome := by
  simp only [List.find?_eq_none, Option.isNone_iff_eq_none, Option.isSome_iff_ne_none, ne_eq]

/-- Every file of an upload that passes the check has an accepted format. -/
theorem media_isOk_of_checkMedia {uploads : List Upload} (checked : checkMedia uploads = .ok ())
    {upload : Upload} (mem : upload ∈ uploads) : upload.media.isOk := by
  rw [checkMedia_eq] at checked
  split at checked
  · cases checked
  · rename_i accepted
    obtain ⟨media, found⟩ :=
      Option.isSome_iff_exists.mp (find?_isNone_eq_none_iff.mp accepted upload mem)
    rw [Upload.media, found]
    rfl

section Store

variable [GalleryTx τ] [TxView τ] [GalleryStore σ τ] [ParentStore σ] [StoreView σ τ]
  [LawfulStore σ τ]

section Batches

variable [BlobStore β] {options : GalleryOptions} {parent : ParentRecord} {order : UInt32}

omit [TxView τ] in
/-- A batch that fails: some files were saved, and then a record was refused or a file could not be
saved. -/
theorem writeBatch_of_error {index : Nat} {cover : Bool} {uploads : List Upload}
    {batch after : Batch τ β} {error : GalleryError}
    (broken : writeBatch options parent order index cover uploads batch = (.error error, after)) :
    ∃ done rest saved middle, uploads = done ++ rest ∧
      Saves parent index done batch.blobs saved middle ∧
      ((∃ cause, error = .ofStore cause ∧ after.blobs = middle) ∨
        ∃ upload others, rest = upload :: others ∧
          BlobStore.save middle parent.scopeId parent.id (index + done.length) upload =
            (.error error, after.blobs)) := by
  induction uploads generalizing index cover batch with
  | nil => cases broken
  | cons upload uploads ih =>
      unfold writeBatch at broken
      split at broken
      · rename_i blobs failed
        cases broken
        exact ⟨[], upload :: uploads, [], batch.blobs, rfl, .nil,
          .inr ⟨upload, uploads, rfl, failed⟩⟩
      · rename_i saved blobs first
        dsimp only at broken
        split at broken
        · rename_i cause tx _
          cases broken
          exact ⟨[upload], uploads, [saved], blobs, rfl, .cons first .nil, .inl ⟨cause, rfl, rfl⟩⟩
        · split at broken
          · cases broken
          · obtain ⟨done, rest, others, middle, split, saves, reason⟩ := ih broken
            refine ⟨upload :: done, rest, saved :: others, middle, ?_, .cons first saves, ?_⟩
            · rw [split, List.cons_append]
            · rwa [List.length_cons, Nat.add_comm done.length, ← Nat.add_assoc]

/-- Writing a batch leaves its transaction open. -/
theorem open_writeBatch_of_ok {store : σ} {index : Nat} {cover : Bool} {uploads : List Upload}
    {batch after : Batch τ β} {records : List ImageRecord}
    (opened : StoreView.Open store batch.tx)
    (written : writeBatch options parent order index cover uploads batch = (.ok records, after)) :
    StoreView.Open store after.tx := by
  induction uploads generalizing index cover batch records with
  | nil =>
      cases written
      exact opened
  | cons upload uploads ih =>
      unfold writeBatch at written
      split at written
      · cases written
      · rename_i saved blobs _
        dsimp only at written
        have inserted := LawfulStore.open_insert
          { url := options.imageUrl parent.id saved.filename
            storageKey := saved.storageKey
            isCover := cover
            sortOrder := order + index.toUInt32
            createdAt := batch.clock.now.1 } opened
        split at written
        · cases written
        · rename_i record tx accepted
          rw [accepted] at inserted
          split at written
          · rename_i others last rest
            cases written
            exact ih inserted rest
          · rename_i failed
            exact absurd written (failed _ _)

variable [LawfulTx τ]

/-- A batch that is written: its files are saved, and their records stand at the end of the
gallery. -/
theorem writeBatch_of_ok {index : Nat} {cover : Bool} {uploads : List Upload}
    {batch after : Batch τ β} {records : List ImageRecord}
    (owner : (TxView.draft batch.tx).parent = parent.id)
    (written : writeBatch options parent order index cover uploads batch = (.ok records, after)) :
    ∃ saved, Saves parent index uploads batch.blobs saved after.blobs ∧
      records = recordsOf options parent order index cover (TxView.draft batch.tx).lastId
        batch.clock saved ∧
      TxView.draft after.tx = ⟨parent.id, (TxView.draft batch.tx).images ++ records,
        (TxView.draft batch.tx).lastId + saved.length⟩ := by
  induction uploads generalizing index cover batch records with
  | nil =>
      cases written
      refine ⟨[], .nil, rfl, ?_⟩
      rw [← owner]
      simp
  | cons upload uploads ih =>
      unfold writeBatch at written
      split at written
      · cases written
      · rename_i saved blobs first
        dsimp only at written
        split at written
        · cases written
        · rename_i record tx inserted
          obtain ⟨recordEq, draftEq⟩ := LawfulTx.insert_of_ok inserted
          split at written
          · rename_i others last rest
            cases written
            obtain ⟨others, saves, othersEq, lastEq⟩ := ih (by rw [draftEq]; exact owner) rest
            refine ⟨saved :: others, .cons first saves, ?_, ?_⟩
            · rw [recordsOf, othersEq, recordEq, draftEq]
              simp [Draft.recordOf, Draft.insert, owner]
            · rw [lastEq, draftEq, recordEq]
              simp only [Draft.insert, List.append_assoc, List.singleton_append, List.length_cons,
                Draft.mk.injEq, true_and]
              push_cast
              omega
          · rename_i failed
            exact absurd written (failed _ _)

end Batches

/-! ## Publishing -/

/-- A transaction that cannot be published leaves everything as it was. -/
theorem commitWith_of_error {manager after : Manager σ β} {tx : τ} {value : α}
    {error : GalleryError} (refused : manager.commitWith tx value = (.error error, after)) :
    after = manager ∧ ∃ cause, error = .ofStore cause := by
  unfold commitWith at refused
  split at refused
  · cases refused
  · rename_i cause store unpublished
    cases refused
    rw [LawfulStore.commit_of_error unpublished]
    exact ⟨rfl, cause, rfl⟩

/-- A transaction that is published changes the store and nothing else. -/
theorem commitWith_of_ok {manager after : Manager σ β} {tx : τ} {value answer : α}
    (opened : StoreView.Open manager.store tx)
    (committed : manager.commitWith tx value = (.ok answer, after)) :
    answer = value ∧ Published manager.store after.store (TxView.draft tx) ∧
      after = { manager with store := after.store } := by
  unfold commitWith at committed
  split at committed
  · rename_i store published
    cases committed
    exact ⟨rfl, LawfulStore.commit_of_ok opened published, rfl⟩
  · cases committed

theorem lift_eq_ok_iff {answer : Except StoreError α} {value : α} :
    lift answer = .ok value ↔ answer = .ok value := by
  cases answer <;> simp [lift, Except.mapError]

/-! ## Uploading -/

section Uploading

variable [BlobStore β]

/-- What an upload that succeeds does: the files that there is room for are saved, and their records
are added to the gallery of their parent. -/
structure Stored (manager after : Manager σ β) (parent : ParentRecord) (uploads : List Upload)
    (saved : List SavedBlob) (records : List ImageRecord) (order : UInt32) : Prop where
  registered : (ParentStore.registry manager.store).find? parent.id = some parent
  /-- The files that were let in fit into the gallery. -/
  fits : (StoreView.images manager.store parent.id).length + uploads.length ≤
    manager.options.maxImagesPerParent.toNat
  ordered : GalleryTx.nextOrder (GalleryStore.start manager.store parent.id) = .ok order
  saves : Saves parent 0 uploads manager.blobs saved after.blobs
  records_eq : records = recordsOf manager.options parent order 0
    (!(StoreView.images manager.store parent.id).any (·.isCover))
    (StoreView.lastId manager.store) manager.clock saved
  published : Published manager.store after.store ⟨parent.id,
    StoreView.images manager.store parent.id ++ records,
    StoreView.lastId manager.store + saved.length⟩
  options_eq : after.options = manager.options

omit [TxView τ] [LawfulStore σ τ] in
theorem Stored.of_tally {manager after : Manager σ β} {counter : Counter} {amount : Nat}
    {parent : ParentRecord} {uploads : List Upload} {saved : List SavedBlob}
    {records : List ImageRecord} {order : UInt32}
    (stored : Stored (manager.tally counter amount) after parent uploads saved records order) :
    Stored manager after parent uploads saved records order :=
  ⟨stored.registered, stored.fits, stored.ordered, stored.saves, stored.records_eq,
    stored.published, stored.options_eq⟩

omit [BlobStore β] in
theorem id_eq_of_parent_eq_ok {manager : Manager σ β} {parentId : String} {parent : ParentRecord}
    (registered : manager.parent parentId = .ok parent) :
    parent.id = parentId ∧ (ParentStore.registry manager.store).find? parentId = some parent := by
  unfold Manager.parent at registered
  split at registered
  · rename_i record found
    cases registered
    have named : decide (parent.id = parentId) = true :=
      List.find?_some (p := fun record : ParentRecord => decide (record.id = parentId)) found
    exact ⟨of_decide_eq_true named, found⟩
  · cases registered

omit [TxView τ] [StoreView σ τ] [LawfulStore σ τ] [GalleryTx τ] [GalleryStore σ τ] in
theorem Halted.of_tally {manager : Manager σ β} {counter : Counter} {amount : Nat}
    {parentId : String} {error : GalleryError} {blobs : β}
    (halted : Halted (manager.tally counter amount) parentId error blobs) :
    Halted manager parentId error blobs := by
  cases halted with
  | early => exact .early
  | refused registered saves reason => exact .refused registered saves reason
  | unsaved registered saves accepted failed => exact .unsaved registered saves accepted failed

variable [LawfulTx τ]

theorem append_of_ok {manager after : Manager σ β} {parent : ParentRecord}
    {uploads : List Upload} {records : List ImageRecord}
    (registered : (ParentStore.registry manager.store).find? parent.id = some parent)
    (fits : (StoreView.images manager.store parent.id).length + uploads.length ≤
      manager.options.maxImagesPerParent.toNat)
    (appended : manager.append parent (GalleryStore.start manager.store parent.id) uploads =
      (.ok records, after)) :
    ∃ saved order, Stored manager after parent uploads saved records order := by
  unfold append at appended
  split at appended
  · cases appended
  · split at appended
    · cases appended
    · rename_i order answered
      have ordered := lift_eq_ok_iff.mp answered
      split at appended
      · cases appended
      · rename_i batch written
        split at appended
        · rename_i answer published committed
          cases appended
          have started := LawfulStore.draft_start manager.store parent.id
          obtain ⟨saved, saves, recordsEq, draftEq⟩ :=
            writeBatch_of_ok (by rw [started]) written
          have opened : StoreView.Open manager.store batch.tx :=
            open_writeBatch_of_ok (LawfulStore.open_start manager.store parent.id) written
          obtain ⟨answerEq, publishedDraft, afterEq⟩ := commitWith_of_ok (by exact opened) committed
          subst answerEq
          rw [started] at recordsEq draftEq
          rw [LawfulTx.hasCover_eq, started] at recordsEq
          rw [draftEq] at publishedDraft
          refine ⟨saved, order, registered, fits, ordered, ?_, recordsEq, ?_, ?_⟩
          · rw [blobs_tally, afterEq]
            exact saves
          · rw [store_tally]
            exact publishedDraft
          · rw [options_tally, afterEq]
        · rename_i failed
          exact absurd appended (failed _ _)

theorem append_of_error {manager after : Manager σ β} {parent : ParentRecord}
    {uploads : List Upload} {error : GalleryError}
    (registered : (ParentStore.registry manager.store).find? parent.id = some parent)
    (failed : manager.append parent (GalleryStore.start manager.store parent.id) uploads =
      (.error error, after)) :
    after.store = manager.store ∧ after.options = manager.options ∧
      Halted manager parent.id error after.blobs := by
  unfold append at failed
  split at failed
  · cases failed
    exact ⟨rfl, rfl, .early⟩
  · rename_i checked
    split at failed
    · cases failed
      exact ⟨rfl, rfl, .early⟩
    · split at failed
      · rename_i batch broken
        cases failed
        obtain ⟨done, rest, saved, middle, split, saves, reason⟩ := writeBatch_of_error broken
        refine ⟨rfl, rfl, ?_⟩
        rcases reason with ⟨cause, reason, same⟩ | ⟨upload, others, rfl, unsaved⟩
        · rw [same]
          exact .refused registered saves reason
        · rw [Nat.zero_add] at unsaved
          refine .unsaved registered saves (media_isOk_of_checkMedia checked ?_) unsaved
          rw [split]
          exact List.mem_append_right _ List.mem_cons_self
      · rename_i batch written
        split at failed
        · cases failed
        · obtain ⟨rfl, cause, reason⟩ := commitWith_of_error failed
          obtain ⟨saved, saves, -, -⟩ :=
            writeBatch_of_ok (by rw [LawfulStore.draft_start]) written
          exact ⟨rfl, rfl, .refused registered saves reason⟩

/-- An upload that succeeds stores a first part of its files, and not none of them. -/
theorem receive_of_ok {manager after : Manager σ β} {parentId : String} {uploads : List Upload}
    {records : List ImageRecord}
    (received : manager.receive parentId uploads = (.ok records, after)) :
    ∃ parent taken saved order, parent.id = parentId ∧ taken <+: uploads ∧ taken ≠ [] ∧
      Stored manager after parent taken saved records order := by
  unfold receive at received
  split at received
  · cases received
  · rename_i parent found
    obtain ⟨rfl, registered⟩ := id_eq_of_parent_eq_ok found
    split at received
    · cases received
    · rename_i some_uploads
      split at received
      · cases received
      · dsimp only at received
        split at received
        · cases received
        · rename_i count answered
          have counted := LawfulTx.count_of_ok (lift_eq_ok_iff.mp answered)
          rw [LawfulStore.draft_start] at counted
          split at received
          · cases received
          · rename_i free
            have room : (manager.options.maxImagesPerParent - count).toNat =
                manager.options.maxImagesPerParent.toNat - count.toNat :=
              UInt32.toNat_sub_of_le _ _ (UInt32.le_of_lt (UInt32.not_le.mp free))
            have positive : count.toNat < manager.options.maxImagesPerParent.toNat :=
              UInt32.lt_iff_toNat_lt.mp (UInt32.not_le.mp free)
            rw [room] at received
            split at received
            · rename_i long
              have fits : (StoreView.images manager.store parent.id).length +
                  (uploads.take (manager.options.maxImagesPerParent.toNat - count.toNat)).length ≤
                    manager.options.maxImagesPerParent.toNat := by
                rw [List.length_take, ← counted]
                omega
              obtain ⟨saved, order, stored⟩ :=
                append_of_ok (by exact registered) (by exact fits) received
              refine ⟨parent, _, saved, order, rfl, List.take_prefix _ _, ?_, stored.of_tally⟩
              intro nothing
              rcases List.take_eq_nil_iff.mp nothing with full | rfl
              · omega
              · exact some_uploads rfl
            · rename_i short
              have fits : (StoreView.images manager.store parent.id).length + uploads.length ≤
                  manager.options.maxImagesPerParent.toNat := by
                rw [← counted]
                omega
              obtain ⟨saved, order, stored⟩ := append_of_ok registered fits received
              refine ⟨parent, uploads, saved, order, rfl, List.prefix_refl _, ?_, stored⟩
              simpa using some_uploads

/-- An upload that fails leaves the store as it was. -/
theorem receive_of_error {manager after : Manager σ β} {parentId : String}
    {uploads : List Upload} {error : GalleryError}
    (failed : manager.receive parentId uploads = (.error error, after)) :
    after.store = manager.store ∧ after.options = manager.options ∧
      Halted manager parentId error after.blobs := by
  unfold receive at failed
  split at failed
  · cases failed
    exact ⟨rfl, rfl, .early⟩
  · rename_i parent found
    obtain ⟨rfl, registered⟩ := id_eq_of_parent_eq_ok found
    split at failed
    · cases failed
      exact ⟨rfl, rfl, .early⟩
    · split at failed
      · cases failed
        exact ⟨rfl, rfl, .early⟩
      · dsimp only at failed
        split at failed
        · cases failed
          exact ⟨rfl, rfl, .early⟩
        · split at failed
          · cases failed
            exact ⟨rfl, rfl, .early⟩
          · split at failed
            · obtain ⟨sameStore, sameOptions, halted⟩ :=
                append_of_error (by exact registered) failed
              exact ⟨sameStore, sameOptions, halted.of_tally⟩
            · exact append_of_error registered failed

end Uploading

/-! ## Changing positions -/

section Placing

variable [LawfulTx τ]

omit [TxView τ] [GalleryStore σ τ] [ParentStore σ] [StoreView σ τ] [LawfulStore σ τ]
  [LawfulTx τ] in
/-- A plan is carried out one move after the other. -/
theorem exists_of_place_cons {tx next : τ} {move : Int × UInt32} {plan : List (Int × UInt32)}
    (placed : place tx (move :: plan) = .ok next) :
    ∃ middle, GalleryTx.setSortOrder tx move.1 move.2 = (.ok (), middle) ∧
      place middle plan = .ok next := by
  unfold place at placed
  split at placed
  · rename_i middle moved
    exact ⟨middle, moved, placed⟩
  · cases placed

omit [GalleryStore σ τ] [ParentStore σ] [StoreView σ τ] [LawfulStore σ τ] in
theorem draft_of_place {tx next : τ} {plan : List (Int × UInt32)}
    (placed : place tx plan = .ok next) :
    TxView.draft next =
      { TxView.draft tx with
        images := (TxView.draft tx).images.map (ImageRecord.placed plan) } := by
  induction plan generalizing tx with
  | nil =>
      cases placed
      rw [show ImageRecord.placed [] = id from rfl, List.map_id]
  | cons move plan ih =>
      obtain ⟨middle, moved, rest⟩ := exists_of_place_cons placed
      rw [ih rest, LawfulTx.setSortOrder_of_ok moved]
      simp [Draft.move, Function.comp_def]

omit [LawfulTx τ] in
theorem open_of_place {store : σ} {tx next : τ} {plan : List (Int × UInt32)}
    (opened : StoreView.Open store tx) (placed : place tx plan = .ok next) :
    StoreView.Open store next := by
  induction plan generalizing tx with
  | nil =>
      cases placed
      exact opened
  | cons move plan ih =>
      obtain ⟨middle, moved, rest⟩ := exists_of_place_cons placed
      have openedMiddle := LawfulStore.open_setSortOrder move.1 move.2 opened
      rw [moved] at openedMiddle
      exact ih openedMiddle rest

/-- Carrying a plan out places the images of a transaction and changes nothing else. -/
theorem place_of_ok {store : σ} {tx next : τ} {plan : List (Int × UInt32)}
    (opened : StoreView.Open store tx) (placed : place tx plan = .ok next) :
    StoreView.Open store next ∧ TxView.draft next =
      { TxView.draft tx with
        images := (TxView.draft tx).images.map (ImageRecord.placed plan) } :=
  ⟨open_of_place opened placed, draft_of_place placed⟩

end Placing

/-! ## Deleting -/

section Deleting

omit [GalleryTx τ] [TxView τ] [GalleryStore σ τ] [ParentStore σ] [StoreView σ τ]
  [LawfulStore σ τ] in
theorem mem_of_find?_eq_some {images : List ImageRecord} {id : Int} {image : ImageRecord}
    (found : images.find? (fun image => image.id = id) = some image) :
    image ∈ images ∧ image.id = id := by
  have named := List.find?_some found
  exact ⟨List.mem_of_find?_eq_some found, of_decide_eq_true named⟩

omit [TxView τ] [GalleryStore σ τ] [ParentStore σ] [StoreView σ τ] [LawfulStore σ τ] in
/-- The way an image is taken out: the first of the others is made the cover if the image was, or
there is nothing to promote. -/
theorem takeOut_cases {tx next : τ} {target : ImageRecord} {promoted : Option Int}
    (taken : takeOut tx target = .ok (promoted, next)) :
    ∃ middle,
      place middle (planRanks (GalleryTx.list (GalleryTx.delete tx target.id))
        fun image => image.sortOrder.toNat) = .ok next ∧
      ((∃ first others, target.isCover = true ∧
          GalleryTx.list (GalleryTx.delete tx target.id) = first :: others ∧
          promoted = some first.id ∧
          GalleryTx.assignExclusiveCover (GalleryTx.delete tx target.id) first.id =
            (.ok (), middle)) ∨
        (target.isCover = false ∨ GalleryTx.list (GalleryTx.delete tx target.id) = []) ∧
          promoted = none ∧ middle = GalleryTx.delete tx target.id) := by
  unfold takeOut at taken
  simp only [bind, Except.bind, pure, Except.pure, throw, throwThe, MonadExceptOf.throw] at taken
  split at taken
  · rename_i first others cover listed
    split at taken
    · rename_i middle assigned
      split at taken
      · cases taken
      · rename_i last placed
        cases taken
        exact ⟨middle, placed, .inl ⟨first, others, cover, listed, rfl, assigned⟩⟩
    · cases taken
  · rename_i uncovered
    split at taken
    · cases taken
    · rename_i last placed
      cases taken
      refine ⟨_, placed, .inr ⟨?_, rfl, rfl⟩⟩
      cases cover : target.isCover with
      | false => exact .inl rfl
      | true =>
          cases listed : GalleryTx.list (GalleryTx.delete tx target.id) with
          | nil => exact .inr rfl
          | cons first others => exact (uncovered first others cover listed).elim

variable [LawfulTx τ]

/-- What taking an image out does to the gallery of a transaction. -/
theorem takeOut_of_ok {store : σ} {tx next : τ} {target : ImageRecord} {promoted : Option Int}
    (opened : StoreView.Open store tx)
    (distinct : ((TxView.draft tx).images.map (·.id)).Nodup)
    (taken : takeOut tx target = .ok (promoted, next)) :
    StoreView.Open store next ∧
      TxView.draft next =
        { TxView.draft tx with images := without (TxView.draft tx).images target } ∧
      promoted = promotedAmong
        ((TxView.draft tx).images.filter fun image => image.id ≠ target.id) target := by
  obtain ⟨middle, placed, way⟩ := takeOut_cases taken
  have removed := LawfulTx.draft_delete tx target.id
  have openedRemoved := LawfulStore.open_delete target.id opened
  have listed := LawfulTx.list_eq (GalleryTx.delete tx target.id)
  rw [removed, Draft.remove] at listed
  generalize others_eq : (TxView.draft tx).images.filter (fun image => image.id ≠ target.id) =
    others at *
  have othersDistinct : ((ImageRecord.arrange others).map (·.id)).Nodup := by
    apply nodup_map_id_arrange
    rw [← others_eq]
    exact distinct.sublist (List.filter_sublist.map _)
  have promotion : promoted = promotedAmong others target ∧ StoreView.Open store middle ∧
      TxView.draft middle =
        { TxView.draft tx with images := promote (promotedAmong others target) others } := by
    rcases way with ⟨first, rest, cover, leading, rfl, assigned⟩ | ⟨uncovered, rfl, rfl⟩
    · have promotedFirst : promotedAmong others target = some first.id := by
        rw [promotedAmong, if_pos cover, ← listed, leading]
        rfl
      have openedMiddle := LawfulStore.open_assignExclusiveCover first.id openedRemoved
      rw [assigned] at openedMiddle
      refine ⟨promotedFirst.symm, openedMiddle, ?_⟩
      rw [LawfulTx.assignExclusiveCover_of_ok assigned, removed, promotedFirst]
      simp only [Draft.cover, Draft.remove, promote, withCover, others_eq]
    · have nobody : promotedAmong others target = none := by
        unfold promotedAmong
        rcases uncovered with cover | nothing
        · rw [if_neg (by rw [cover]; exact Bool.false_ne_true)]
        · rw [← listed, nothing]
          split <;> rfl
      refine ⟨nobody.symm, openedRemoved, ?_⟩
      rw [removed, nobody]
      simp only [Draft.remove, promote, others_eq]
  obtain ⟨promotedEq, openedMiddle, draftMiddle⟩ := promotion
  obtain ⟨openedNext, draftNext⟩ := place_of_ok openedMiddle placed
  refine ⟨openedNext, ?_, promotedEq⟩
  rw [draftNext, draftMiddle, listed]
  simp only [without, others_eq, Draft.mk.injEq, true_and, and_true]
  apply List.map_congr_left
  intro image mem
  obtain ⟨original, originalMem, sameId, sameOrder⟩ := exists_of_mem_promote mem
  have ranked : rankedBy (fun image => image.sortOrder.toNat) (ImageRecord.arrange others) =
      ImageRecord.arrange others := by
    rw [rankedBy_eq_self_iff, arrange_eq_rankedBy]
    exact pairwise_rankedBy _ _
  rw [placed_planRanks othersDistinct ((arrange_perm others).mem_iff.mpr originalMem) sameId
    sameOrder, ranked]

variable [BlobStore β]

/-- What a deletion that succeeds does: the image is gone from its gallery, and then its file is
removed. -/
structure Deleted (manager after : Manager σ β) (parentId : String) (target : ImageRecord)
    (outcome : DeleteOutcome) : Prop where
  mem : target ∈ StoreView.images manager.store parentId
  published : Published manager.store after.store ⟨parentId,
    without (StoreView.images manager.store parentId) target, StoreView.lastId manager.store⟩
  removed : (outcome.blobRemoved, after.blobs) =
    BlobStore.delete manager.blobs target.storageKey
  deletedId_eq : outcome.deletedId = target.id
  newCoverId_eq : outcome.newCoverId = promotedAmong
    ((StoreView.images manager.store parentId).filter fun image => image.id ≠ target.id) target
  options_eq : after.options = manager.options

theorem withdraw_of_ok {manager after : Manager σ β} {parentId : String} {id : Int}
    {outcome : DeleteOutcome}
    (distinct : ((StoreView.images manager.store parentId).map (·.id)).Nodup)
    (withdrawn : manager.withdraw parentId id = (.ok outcome, after)) :
    ∃ target, target.id = id ∧ Deleted manager after parentId target outcome := by
  have started := LawfulStore.draft_start manager.store parentId
  unfold withdraw at withdrawn
  dsimp only at withdrawn
  split at withdrawn
  · cases withdrawn
  · rename_i target found
    rw [LawfulTx.get?_eq, started] at found
    obtain ⟨mem, sameId⟩ := mem_of_find?_eq_some found
    split at withdrawn
    · cases withdrawn
    · rename_i promoted next taken
      obtain ⟨opened, draftEq, promotedEq⟩ := takeOut_of_ok
        (LawfulStore.open_start manager.store parentId) (by rw [started]; exact distinct) taken
      rw [started] at draftEq promotedEq
      split at withdrawn
      · cases withdrawn
      · rename_i middle committed
        obtain ⟨-, published, middleEq⟩ := commitWith_of_ok opened committed
        rw [draftEq] at published
        rw [middleEq] at withdrawn
        refine ⟨target, sameId, ?_⟩
        rcases removal : BlobStore.delete manager.blobs target.storageKey with ⟨gone, blobs⟩
        simp only [removal] at withdrawn
        cases gone with
        | true =>
            cases withdrawn
            exact ⟨mem, published, removal.symm, sameId.symm, promotedEq, rfl⟩
        | false =>
            cases withdrawn
            exact ⟨mem, published, removal.symm, sameId.symm, promotedEq, rfl⟩

omit [LawfulTx τ] in
/-- A deletion that fails leaves the store as it was, and removes no file. -/
theorem withdraw_of_error {manager after : Manager σ β} {parentId : String} {id : Int}
    {error : GalleryError} (failed : manager.withdraw parentId id = (.error error, after)) :
    after = manager := by
  unfold withdraw at failed
  dsimp only at failed
  split at failed
  · cases failed
    rfl
  · split at failed
    · cases failed
      rfl
    · split at failed
      · rename_i refused
        cases failed
        exact (commitWith_of_error refused).1
      · cases failed

end Deleting

/-! ## Choosing the cover -/

section Covering

theorem flag_of_ok [LawfulTx τ] {manager after : Manager σ β} {parentId : String} {id : Int}
    {answer : ImageRecord} (flagged : manager.flag parentId id = (.ok answer, after)) :
    (∃ image ∈ StoreView.images manager.store parentId, image.id = id) ∧
      Published manager.store after.store ⟨parentId,
        withCover (StoreView.images manager.store parentId) id,
        StoreView.lastId manager.store⟩ ∧
      after = { manager with store := after.store } := by
  have started := LawfulStore.draft_start manager.store parentId
  unfold flag at flagged
  dsimp only at flagged
  split at flagged
  · cases flagged
  · rename_i image found
    rw [LawfulTx.get?_eq, started] at found
    split at flagged
    · cases flagged
    · rename_i tx assigned
      have opened := LawfulStore.open_assignExclusiveCover id
        (LawfulStore.open_start manager.store parentId)
      rw [assigned] at opened
      split at flagged
      · cases flagged
      · obtain ⟨-, published, afterEq⟩ := commitWith_of_ok opened flagged
        rw [LawfulTx.assignExclusiveCover_of_ok assigned, started] at published
        exact ⟨⟨image, mem_of_find?_eq_some found⟩, published, afterEq⟩

/-- A choice of the cover that fails changes nothing. -/
theorem flag_of_error {manager after : Manager σ β} {parentId : String} {id : Int}
    {error : GalleryError} (failed : manager.flag parentId id = (.error error, after)) :
    after = manager := by
  unfold flag at failed
  dsimp only at failed
  split at failed
  · cases failed
    rfl
  · split at failed
    · cases failed
      rfl
    · split at failed
      · cases failed
        rfl
      · exact (commitWith_of_error failed).1

end Covering

/-! ## Reordering -/

section Reordering

/-- The position that a payload wants an image at: images that it does not name keep theirs. -/
def wanted (positions : Positions) (image : ImageRecord) : Nat :=
  (positions.find? image.id).getD image.sortOrder.toNat

/-- A reordering carries out the plan for the gallery on display. -/
theorem placed_of_rearrange [LawfulTx τ] {manager after : Manager σ β} {parentId : String}
    {items : List ReorderItem} {count : Nat}
    (rearranged : manager.rearrange parentId items = (.ok count, after)) :
    ∃ positions, Positions.ofItems items = .ok positions ∧
      count = (StoreView.images manager.store parentId).length ∧
      Published manager.store after.store ⟨parentId,
        (StoreView.images manager.store parentId).map (ImageRecord.placed (planRanks
          (ImageRecord.arrange (StoreView.images manager.store parentId)) (wanted positions))),
        StoreView.lastId manager.store⟩ ∧
      after = { manager with store := after.store } := by
  have started := LawfulStore.draft_start manager.store parentId
  unfold rearrange at rearranged
  split at rearranged
  · cases rearranged
  · rename_i positions accepted
    dsimp only at rearranged
    split at rearranged
    · cases rearranged
    · rename_i tx placed
      obtain ⟨opened, draftEq⟩ :=
        place_of_ok (LawfulStore.open_start manager.store parentId) placed
      rw [LawfulTx.list_eq, started] at draftEq rearranged
      obtain ⟨counted, published, afterEq⟩ := commitWith_of_ok opened rearranged
      rw [draftEq] at published
      rw [(arrange_perm _).length_eq] at counted
      exact ⟨positions, accepted, counted, published, afterEq⟩

theorem rearrange_of_ok [LawfulTx τ] {manager after : Manager σ β} {parentId : String}
    {items : List ReorderItem} {count : Nat}
    (distinct : ((StoreView.images manager.store parentId).map (·.id)).Nodup)
    (rearranged : manager.rearrange parentId items = (.ok count, after)) :
    ∃ positions, Positions.ofItems items = .ok positions ∧
      count = (StoreView.images manager.store parentId).length ∧
      Published manager.store after.store ⟨parentId,
        settle (wanted positions) (StoreView.images manager.store parentId),
        StoreView.lastId manager.store⟩ ∧
      after = { manager with store := after.store } := by
  obtain ⟨positions, accepted, counted, published, afterEq⟩ := placed_of_rearrange rearranged
  rw [map_placed_planRanks_arrange distinct] at published
  exact ⟨positions, accepted, counted, published, afterEq⟩

/-- A reordering that fails changes nothing. -/
theorem rearrange_of_error {manager after : Manager σ β} {parentId : String}
    {items : List ReorderItem} {error : GalleryError}
    (failed : manager.rearrange parentId items = (.error error, after)) : after = manager := by
  unfold rearrange at failed
  split at failed
  · cases failed
    rfl
  · dsimp only at failed
    split at failed
    · cases failed
      rfl
    · exact (commitWith_of_error failed).1

end Reordering

end Store

/-! ## Registering -/

section Registering

variable [ParentStore σ]

theorem register_of_ok {manager after : Manager σ β} {parentId scope : String}
    {record : ParentRecord} (registered : manager.register parentId scope = (.ok record, after)) :
    ∃ now registry,
      (ParentStore.registry manager.store).register parentId scope now = .ok (record, registry) ∧
      after.store = ParentStore.withRegistry manager.store registry ∧
      after.blobs = manager.blobs ∧ after.options = manager.options := by
  unfold register ParentStore.register at registered
  dsimp only at registered
  split at registered
  · cases registered
  · rename_i entered
    cases registered
    exact ⟨_, _, entered, rfl, rfl, rfl⟩

/-- A registration that fails leaves the store as it was. -/
theorem register_of_error {manager after : Manager σ β} {parentId scope : String}
    {error : GalleryError} (failed : manager.register parentId scope = (.error error, after)) :
    after.store = manager.store ∧ after.blobs = manager.blobs ∧
      after.options = manager.options := by
  unfold register ParentStore.register at failed
  dsimp only at failed
  split at failed
  · cases failed
    exact ⟨rfl, rfl, rfl⟩
  · cases failed

end Registering

end ImageGallery.Manager
