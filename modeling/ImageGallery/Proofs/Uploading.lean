import ImageGallery.Proofs.Completion
import ImageGallery.Proofs.Containment
import ImageGallery.Proofs.Registration

/-!
# Uploads from end to end

An upload that is refused is refused for the first of five reasons that applies. Otherwise the
files that there is room for have records afterwards, one for each file and in their order, behind
the images that were there before.
-/

namespace ImageGallery

variable {σ τ ρ β : Type}

/-! ## Galleries with new images -/

/-- The position after the greatest one of some images, or zero without images. -/
def nextPosition (images : List ImageRecord) : Nat :=
  images.foldl (fun greatest image => max greatest (image.sortOrder.toNat + 1)) 0

theorem nextPosition_le_iff {images : List ImageRecord} {bound : Nat} :
    nextPosition images ≤ bound ↔ ∀ image ∈ images, image.sortOrder.toNat < bound := by
  rw [nextPosition, foldl_max_le_iff]
  exact and_iff_right (Nat.zero_le _)

theorem nextPosition_eq_of_perm {first second : List ImageRecord} (permuted : first.Perm second) :
    nextPosition first = nextPosition second := by
  have above {first second : List ImageRecord} (permuted : first.Perm second) :
      nextPosition first ≤ nextPosition second :=
    nextPosition_le_iff.mpr fun image mem =>
      nextPosition_le_iff.mp (Nat.le_refl _) image (permuted.mem_iff.mp mem)
  exact Nat.le_antisymm (above permuted) (above permuted.symm)

/-- Images behind all others, in the order of their positions, are displayed behind them. -/
theorem arrange_append {images records : List ImageRecord}
    (behind : ∀ image ∈ images, ∀ record ∈ records,
      image.sortOrder.toNat < record.sortOrder.toNat)
    (ascending : records.Pairwise fun earlier later =>
      earlier.sortOrder.toNat < later.sortOrder.toNat) :
    ImageRecord.arrange (images ++ records) = ImageRecord.arrange images ++ records := by
  rw [arrange_eq_rankedBy, arrange_eq_rankedBy]
  refine rankedBy_append (fun image mem record recordMem => ?_) ?_
  · exact ranksBefore_iff.mpr (.inl (behind image mem record recordMem))
  · exact ascending.imp fun less => ranksBefore_iff.mpr (.inl less)

/-! ## Records of saved files -/

/-- The record of the saved file with an index in its upload, whose positions start with the given
one. The parent may have a cover already. -/
structure RecordOf (options : GalleryOptions) (parent : ParentRecord) (first : Nat)
    (covered : Bool) (index : Nat) (saved : SavedBlob) (record : ImageRecord) : Prop where
  url_eq : record.url = options.imageUrl parent.id saved.filename
  storageKey_eq : record.storageKey = parent.scopeId ++ "/" ++ parent.id ++ "/" ++ saved.filename
  sortOrder_eq : record.sortOrder.toNat = first + index
  isCover_eq : record.isCover = (decide (index = 0) && !covered)
  parentId_eq : record.parentId = parent.id

namespace LocalBlobs

theorem storageKey_of_write {blobs after : LocalBlobs} {scope parent : String} {index : Nat}
    {upload : Upload} {media : MediaType} {saved : SavedBlob}
    (written : blobs.write scope parent index upload media = (.ok saved, after)) :
    saved.storageKey = scope ++ "/" ++ parent ++ "/" ++ saved.filename := by
  rcases write_outcome written with ⟨_, impossible, -⟩ | ⟨blob, same, -, -, -, key_eq, -⟩
  · cases impossible
  · cases same
    exact key_eq

/-- The key of a file ends in the name that was made up for it. -/
theorem storageKey_of_save {blobs after : Faulty LocalBlobs} {scope parent : String} {index : Nat}
    {upload : Upload} {saved : SavedBlob}
    (succeeded : BlobStore.save blobs scope parent index upload = (.ok saved, after)) :
    saved.storageKey = scope ++ "/" ++ parent ++ "/" ++ saved.filename := by
  rcases Faulty.save_cases succeeded with ⟨impossible, -⟩ | below
  · cases impossible
  · rcases save_cases below with ⟨-, -, _, impossible⟩ | ⟨media, -, -, -, -, result, written, same⟩
    · cases impossible
    · cases result with
      | error failure => cases same
      | ok blob =>
          cases same
          exact storageKey_of_write written

end LocalBlobs

namespace Manager

theorem storageKey_of_saves {parent : ParentRecord} {index : Nat} {uploads : List Upload}
    {blobs after : Faulty LocalBlobs} {saved : List SavedBlob}
    (saves : Saves parent index uploads blobs saved after) :
    ∀ blob ∈ saved, blob.storageKey =
      parent.scopeId ++ "/" ++ parent.id ++ "/" ++ blob.filename := by
  induction saves with
  | nil => exact fun blob mem => absurd mem List.not_mem_nil
  | cons first rest ih =>
      exact List.forall_mem_cons.mpr ⟨LocalBlobs.storageKey_of_save first, ih⟩

/-- Files are saved in one way only. -/
theorem Saves.unique [BlobStore β] {parent : ParentRecord} {index : Nat} {uploads : List Upload}
    {blobs after last : β} {saved others : List SavedBlob}
    (saves : Saves parent index uploads blobs saved after)
    (again : Saves parent index uploads blobs others last) : others = saved ∧ last = after := by
  induction saves generalizing others with
  | nil =>
      cases again
      exact ⟨rfl, rfl⟩
  | cons first rest ih =>
      cases again with
      | cons here later =>
          cases first.symm.trans here
          obtain ⟨rfl, rfl⟩ := ih later
          exact ⟨rfl, rfl⟩

section Records

variable {options : GalleryOptions} {parent : ParentRecord} {order : UInt32} {lastId : Int}

/-- The fields of the new records, one by one. -/
theorem recordOf_of_getElem? {start : Nat} {cover : Bool} {clock : Clock} {saved : List SavedBlob}
    (small : order.toNat + start + saved.length < UInt32.size)
    (keyed : ∀ blob ∈ saved, blob.storageKey =
      parent.scopeId ++ "/" ++ parent.id ++ "/" ++ blob.filename)
    {index : Nat} {blob : SavedBlob} {record : ImageRecord} (there : saved[index]? = some blob)
    (recorded : (recordsOf options parent order start cover lastId clock saved)[index]? =
      some record) :
    RecordOf options parent (order.toNat + start) (!cover) index blob record := by
  induction saved generalizing start cover lastId clock index with
  | nil => cases there
  | cons first others ih =>
      rw [List.length_cons] at small
      obtain ⟨here, later⟩ := List.forall_mem_cons.mp keyed
      cases index with
      | zero =>
          cases there
          cases recorded
          have position : (order + start.toUInt32).toNat = order.toNat + start := by
            rw [UInt32.toNat_add, Nat.toUInt32, UInt32.toNat_ofNat_of_lt' (by omega)]
            exact Nat.mod_eq_of_lt (Nat.lt_of_le_of_lt (by omega) small)
          exact ⟨rfl, here, position, by simp, rfl⟩
      | succ index =>
          rw [recordsOf] at recorded
          obtain ⟨url, key, position, cover, parentId⟩ := ih (by omega) later there recorded
          exact ⟨url, key, by omega, by simpa using cover, parentId⟩

end Records

/-! ## What is expected of an upload -/

/-- The files that there is room for next to a gallery. -/
def admitted (options : GalleryOptions) (gallery : List ImageRecord) (uploads : List Upload) :
    List Upload :=
  uploads.take (options.maxImagesPerParent.toNat - gallery.length)

/-- Of any files at the start of an upload, those of accepted formats are all saved. -/
def FaultFree [BlobStore β] (blobs : β) (parent : ParentRecord) (uploads : List Upload) : Prop :=
  ∀ taken, taken <+: uploads → (∀ upload ∈ taken, upload.media?.isSome) →
    ∃ saved after, Saves parent 0 taken blobs saved after

section Expectations

variable [GalleryTx τ] [GalleryStore σ τ] [ParentStore σ] [StoreView σ τ] [Refusing σ ρ]

/-- An image with an id was there or was committed in a run that led here. -/
def CommittedBefore (manager : Manager σ (Faulty LocalBlobs)) (id : Int) : Prop :=
  ∃ (first : Manager σ (Faulty LocalBlobs)) (steps : List (ProcessStep ρ)),
    Numbered first.store ∧ first.run (steps.map ProcessStep.toStep) = manager ∧
      ((∃ parent, id ∈ (StoreView.images first.store parent).map (·.id)) ∨
        id ∈ (committed (first.history (steps.map ProcessStep.toStep))).map (·.id))

/-- What an upload does that takes files: each of them is saved and has a record, and the records
stand behind the images that were there before. -/
structure Appended (manager after : Manager σ (Faulty LocalBlobs)) (parent : ParentRecord)
    (taken : List Upload) (records : List ImageRecord) : Prop where
  length_eq : records.length = taken.length
  files : ∃ saved, Saves parent 0 taken manager.blobs saved after.blobs ∧
    ∀ index blob record, saved[index]? = some blob → records[index]? = some record →
      RecordOf manager.options parent
        (nextPosition (GalleryStore.listImages manager.store parent.id))
        ((GalleryStore.listImages manager.store parent.id).any (·.isCover)) index blob record
  ascending : records.Pairwise fun earlier later => earlier.id < later.id
  fresh : ∀ id, CommittedBefore manager id → ∀ record ∈ records, id < record.id
  listed : GalleryStore.listImages after.store parent.id =
    GalleryStore.listImages manager.store parent.id ++ records
  others : ∀ other, other ≠ parent.id →
    GalleryStore.listImages after.store other = GalleryStore.listImages manager.store other

/-- Counting something afterwards does not matter. -/
theorem Appended.tally {manager after : Manager σ (Faulty LocalBlobs)} {parent : ParentRecord}
    {taken : List Upload} {records : List ImageRecord}
    (appended : Appended manager after parent taken records) (counter : Counter) (amount : Nat) :
    Appended manager (after.tally counter amount) parent taken records :=
  ⟨appended.length_eq, appended.files, appended.ascending, appended.fresh, appended.listed,
    appended.others⟩

/-- An upload brings files for a registered parent, and not too many. -/
structure Eligible (manager : Manager σ β) (parentId : String) (uploads : List Upload) : Prop where
  registered : (ParentStore.registry manager.store).find? parentId ≠ none
  some_uploads : uploads ≠ []
  few : uploads.length ≤ manager.options.maxFilesPerRequest

/-- What an upload answers, and what it does if it is not refused. -/
structure UploadsInFull (manager : Manager σ (Faulty LocalBlobs)) (parentId : String)
    (uploads : List Upload) : Prop where
  notFound : (manager.upload parentId uploads).1 = .error (.parentNotFound parentId) ↔
    (ParentStore.registry manager.store).find? parentId = none
  invalidInput (registered : (ParentStore.registry manager.store).find? parentId ≠ none) :
    (manager.upload parentId uploads).1 = .error (.invalidInput .noFiles) ↔ uploads = []
  limitExceeded (registered : (ParentStore.registry manager.store).find? parentId ≠ none)
    (some_uploads : uploads ≠ []) :
    (manager.upload parentId uploads).1 =
        .error (.limitExceeded manager.options.maxFilesPerRequest uploads.length) ↔
      manager.options.maxFilesPerRequest < uploads.length
  capacityExceeded (eligible : Eligible manager parentId uploads)
    (counted : (GalleryStore.listImages manager.store parentId).length < UInt32.size) :
    (manager.upload parentId uploads).1 =
        .error (.capacityExceeded parentId manager.options.maxImagesPerParent.toNat) ↔
      manager.options.maxImagesPerParent.toNat ≤
        (GalleryStore.listImages manager.store parentId).length
  /-- A number of images that has more than 32 bits cannot be compared with the limit. -/
  uncounted (eligible : Eligible manager parentId uploads)
    (large : UInt32.size ≤ (GalleryStore.listImages manager.store parentId).length) :
    ∃ cause, (manager.upload parentId uploads).1 = .error (.ofStore cause) ∧
      cause.Overflow (GalleryStore.listImages manager.store parentId).length
  unsupported (eligible : Eligible manager parentId uploads)
    (free : (GalleryStore.listImages manager.store parentId).length <
      manager.options.maxImagesPerParent.toNat) (name : String) :
    (manager.upload parentId uploads).1 = .error (.unsupportedMediaType name) ↔
      ∃ upload, (admitted manager.options (GalleryStore.listImages manager.store parentId)
        uploads).find? (fun upload => upload.media?.isNone) = some upload ∧ upload.filename = name
  stored {parent : ParentRecord} (eligible : Eligible manager parentId uploads)
    (registered : (ParentStore.registry manager.store).find? parentId = some parent)
    (free : (GalleryStore.listImages manager.store parentId).length <
      manager.options.maxImagesPerParent.toNat)
    (accepted : ∀ upload ∈ admitted manager.options
      (GalleryStore.listImages manager.store parentId) uploads, upload.media?.isSome) :
    ∃ records, (manager.upload parentId uploads).1 = .ok records ∧
      Appended manager (manager.upload parentId uploads).2 parent
        (admitted manager.options (GalleryStore.listImages manager.store parentId) uploads) records

/-- The outcome of an upload: it is refused for the first reason that applies, or it appends. -/
inductive Verdict (manager : Manager σ (Faulty LocalBlobs)) (parentId : String)
    (uploads : List Upload) :
    Except GalleryError (List ImageRecord) × Manager σ (Faulty LocalBlobs) → Prop where
  | notFound {after : Manager σ (Faulty LocalBlobs)}
      (unregistered : (ParentStore.registry manager.store).find? parentId = none) :
      Verdict manager parentId uploads (.error (.parentNotFound parentId), after)
  | invalidInput {after : Manager σ (Faulty LocalBlobs)}
      (registered : (ParentStore.registry manager.store).find? parentId ≠ none)
      (nothing : uploads = []) :
      Verdict manager parentId uploads (.error (.invalidInput .noFiles), after)
  | limitExceeded {after : Manager σ (Faulty LocalBlobs)}
      (registered : (ParentStore.registry manager.store).find? parentId ≠ none)
      (some_uploads : uploads ≠ [])
      (many : manager.options.maxFilesPerRequest < uploads.length) :
      Verdict manager parentId uploads
        (.error (.limitExceeded manager.options.maxFilesPerRequest uploads.length), after)
  | uncounted {after : Manager σ (Faulty LocalBlobs)} {cause : StoreError}
      (eligible : Eligible manager parentId uploads)
      (large : UInt32.size ≤ (GalleryStore.listImages manager.store parentId).length)
      (overflow : cause.Overflow (GalleryStore.listImages manager.store parentId).length) :
      Verdict manager parentId uploads (.error (.ofStore cause), after)
  | capacityExceeded {after : Manager σ (Faulty LocalBlobs)}
      (eligible : Eligible manager parentId uploads)
      (counted : (GalleryStore.listImages manager.store parentId).length < UInt32.size)
      (full : manager.options.maxImagesPerParent.toNat ≤
        (GalleryStore.listImages manager.store parentId).length) :
      Verdict manager parentId uploads
        (.error (.capacityExceeded parentId manager.options.maxImagesPerParent.toNat), after)
  | unsupported {after : Manager σ (Faulty LocalBlobs)} {upload : Upload}
      (eligible : Eligible manager parentId uploads)
      (free : (GalleryStore.listImages manager.store parentId).length <
        manager.options.maxImagesPerParent.toNat)
      (rejected : (admitted manager.options (GalleryStore.listImages manager.store parentId)
        uploads).find? (fun upload => upload.media?.isNone) = some upload) :
      Verdict manager parentId uploads
        (.error (.unsupportedMediaType upload.filename), after)
  | stored {after : Manager σ (Faulty LocalBlobs)} {parent : ParentRecord}
      {records : List ImageRecord}
      (eligible : Eligible manager parentId uploads)
      (registered : (ParentStore.registry manager.store).find? parentId = some parent)
      (free : (GalleryStore.listImages manager.store parentId).length <
        manager.options.maxImagesPerParent.toNat)
      (accepted : (admitted manager.options (GalleryStore.listImages manager.store parentId)
        uploads).find? (fun upload => upload.media?.isNone) = none)
      (appended : Appended manager after parent
        (admitted manager.options (GalleryStore.listImages manager.store parentId) uploads)
        records) :
      Verdict manager parentId uploads (.ok records, after)

/-- Counting the outcome changes no verdict. -/
theorem Verdict.upload {manager : Manager σ (Faulty LocalBlobs)} {parentId : String}
    {uploads : List Upload}
    (verdict : Verdict manager parentId uploads (manager.receive parentId uploads)) :
    Verdict manager parentId uploads (manager.upload parentId uploads) := by
  rw [Manager.upload, record]
  generalize manager.receive parentId uploads = result at verdict ⊢
  cases verdict with
  | notFound unregistered => exact .notFound unregistered
  | invalidInput registered nothing => exact .invalidInput registered nothing
  | limitExceeded registered some_uploads many => exact .limitExceeded registered some_uploads many
  | uncounted eligible large overflow => exact .uncounted eligible large overflow
  | capacityExceeded eligible counted full => exact .capacityExceeded eligible counted full
  | unsupported eligible free rejected => exact .unsupported eligible free rejected
  | stored eligible registered free accepted appended =>
      exact .stored eligible registered free accepted (appended.tally _ _)

/-- Verdicts exclude each other: the reason can be read off the answer. -/
theorem Verdict.inFull {manager : Manager σ (Faulty LocalBlobs)} {parentId : String}
    {uploads : List Upload}
    (verdict : Verdict manager parentId uploads (manager.upload parentId uploads)) :
    UploadsInFull manager parentId uploads := by
  have limit : manager.options.maxImagesPerParent.toNat < UInt32.size :=
    manager.options.maxImagesPerParent.toNat_lt
  constructor
  all_goals generalize manager.upload parentId uploads = result at verdict ⊢
  case stored =>
    intro parent eligible registered free accepted
    rw [← find?_isNone_eq_none_iff] at accepted
    cases verdict <;> grind [Eligible, GalleryError.ofStore]
  all_goals cases verdict <;> grind [Eligible, GalleryError.ofStore]

end Expectations

/-! ## What an upload does -/

section Listing

variable [GalleryTx τ] [TxView τ] [GalleryStore σ τ] [ParentStore σ] [StoreView σ τ]
  [LawfulStore σ τ] [BlobStore β] {manager after : Manager σ β} {parent : ParentRecord}
  {taken : List Upload} {saved : List SavedBlob} {records : List ImageRecord} {order : UInt32}

/-- The galleries of other parents stay as they are. -/
theorem Stored.listed_other (stored : Stored manager after parent taken saved records order)
    {other : String} (differ : other ≠ parent.id) :
    GalleryStore.listImages after.store other = GalleryStore.listImages manager.store other := by
  rw [LawfulStore.listImages_eq, LawfulStore.listImages_eq,
    stored.published.images_other other differ]

theorem any_isCover_listImages (store : σ) (parentId : String) :
    (GalleryStore.listImages store parentId).any (·.isCover) =
      (StoreView.images store parentId).any (·.isCover) := by
  rw [LawfulStore.listImages_eq, (arrange_perm _).any_eq]

variable [LawfulTx τ]

/-- The first new position is the one after the greatest. -/
theorem Stored.order_eq (stored : Stored manager after parent taken saved records order)
    (small : nextPosition (GalleryStore.listImages manager.store parent.id) < UInt32.size) :
    order.toNat = nextPosition (GalleryStore.listImages manager.store parent.id) := by
  rw [LawfulStore.listImages_eq, nextPosition_eq_of_perm (arrange_perm _)] at small ⊢
  have started := LawfulStore.draft_start manager.store parent.id
  have below := nextPosition_le_iff.mp
    (Nat.le_refl (nextPosition (StoreView.images manager.store parent.id)))
  rw [LawfulTx.nextOrder_of_ok stored.ordered, started]
  · rfl
  · intro image mem
    rw [started] at mem
    exact Nat.lt_of_le_of_lt (below image mem) small

/-- New images are listed behind the others. -/
theorem Stored.listed (stored : Stored manager after parent taken saved records order)
    (room : nextPosition (GalleryStore.listImages manager.store parent.id) + taken.length <
      UInt32.size) :
    GalleryStore.listImages after.store parent.id =
      GalleryStore.listImages manager.store parent.id ++ records := by
  have position := stored.order_eq (by omega)
  have length := stored.saves.length_eq
  have positions : records.map (fun image => image.sortOrder.toNat) =
      List.range' order.toNat saved.length := by
    rw [stored.records_eq, map_sortOrder_recordsOf (by omega), Nat.add_zero]
  rw [LawfulStore.listImages_eq, stored.published.images_self, LawfulStore.listImages_eq]
  refine arrange_append (fun image mem record recordMem => ?_) ?_
  · have below := nextPosition_le_iff.mp (Nat.le_of_eq position.symm) image
      (mem_listImages_iff.mpr mem)
    have there : record.sortOrder.toNat ∈ List.range' order.toNat saved.length := by
      rw [← positions]
      exact List.mem_map_of_mem (f := fun image : ImageRecord => image.sortOrder.toNat) recordMem
    exact Nat.lt_of_lt_of_le below (List.mem_range'_1.mp there).1
  · rw [← List.pairwise_map (f := fun image : ImageRecord => image.sortOrder.toNat), positions]
    exact List.pairwise_lt_range'

end Listing

section Appending

variable [GalleryTx τ] [TxView τ] [LawfulTx τ] [GalleryStore σ τ] [ParentStore σ] [StoreView σ τ]
  [LawfulStore σ τ] [Refusing σ ρ] [LawfulRefusing σ τ ρ]
  {manager after : Manager σ (Faulty LocalBlobs)} {parent : ParentRecord} {taken : List Upload}
  {saved : List SavedBlob} {records : List ImageRecord} {order : UInt32}

/-- No id that was ever given is above the last one. -/
theorem le_lastId_of_committedBefore {id : Int} (before : CommittedBefore manager id) :
    id ≤ StoreView.lastId manager.store := by
  obtain ⟨first, steps, numbered, rfl, origin⟩ := before
  have started : Accounted first.withLedger.store [] first.withLedger :=
    .start numbered (.empty first.blobs)
  have accounted := started.run steps
  have same := sameButLedger_withLedger first
  rw [← (same.run (steps.map ProcessStep.toStep)).store_eq]
  rcases origin with ⟨parent, mem⟩ | mem
  · obtain ⟨image, imageMem, rfl⟩ := List.mem_map.mp mem
    exact Int.le_trans (numbered.bounded parent image imageMem) accounted.grown
  · obtain ⟨record, recordMem, rfl⟩ := List.mem_map.mp mem
    refine accounted.reached record ?_
    rwa [List.nil_append, committed_eq_flatMap, same.history, ← committed_eq_flatMap]

/-- The images of an upload come behind those that were there before. -/
theorem Stored.appended (stored : Stored manager after parent taken saved records order)
    (room : nextPosition (GalleryStore.listImages manager.store parent.id) + taken.length <
      UInt32.size) : Appended manager after parent taken records := by
  have position := stored.order_eq (by omega)
  have length := stored.saves.length_eq
  constructor
  · exact stored.length_eq
  · refine ⟨saved, stored.saves, fun index blob record there recorded => ?_⟩
    rw [stored.records_eq] at recorded
    have fields := recordOf_of_getElem? (by omega) (storageKey_of_saves stored.saves) there recorded
    rwa [Bool.not_not, position, Nat.add_zero, ← any_isCover_listImages] at fields
  · exact stored.ascending
  · intro id before record mem
    exact Int.lt_of_le_of_lt (le_lastId_of_committedBefore before) (stored.id_bounds mem).1
  · exact stored.listed room
  · exact fun other differ => stored.listed_other differ

end Appending

/-! ## Which answer is given -/

section Answering

variable [GalleryTx τ] [TxView τ] [LawfulTx τ] [GalleryStore σ τ] [ParentStore σ] [StoreView σ τ]
  [LawfulStore σ τ] [Obliging σ τ]

omit [TxView τ] [LawfulTx τ] [StoreView σ τ] [LawfulStore σ τ] [Obliging σ τ] in
/-- An upload that passes the limits appends the files that there is room for. -/
theorem receive_eq_append [BlobStore β] {manager : Manager σ β} {parent : ParentRecord}
    {uploads : List Upload} {count : UInt32}
    (registered : (ParentStore.registry manager.store).find? parent.id = some parent)
    (some_uploads : uploads ≠ []) (few : uploads.length ≤ manager.options.maxFilesPerRequest)
    (counted : GalleryTx.count (GalleryStore.start manager.store parent.id) = .ok count)
    (free : count.toNat < manager.options.maxImagesPerParent.toNat) :
    ∃ tallied : Manager σ β,
      (tallied = manager ∨ ∃ amount, tallied = manager.tally .imagesTruncated amount) ∧
      manager.receive parent.id uploads =
        tallied.append parent (GalleryStore.start manager.store parent.id)
          (uploads.take (manager.options.maxImagesPerParent.toNat - count.toNat)) := by
  have found : manager.parent parent.id = .ok parent := by
    rw [Manager.parent, registered]
  have some_files : ¬uploads.isEmpty = true := by simpa using some_uploads
  have open_gallery : ¬manager.options.maxImagesPerParent ≤ count :=
    UInt32.not_le.mpr (UInt32.lt_iff_toNat_lt.mpr free)
  have room : (manager.options.maxImagesPerParent - count).toNat =
      manager.options.maxImagesPerParent.toNat - count.toNat :=
    UInt32.toNat_sub_of_le _ _ (UInt32.le_of_lt (UInt32.not_le.mp open_gallery))
  rw [receive, found]
  dsimp only
  rw [if_neg some_files, if_neg (Nat.not_lt.mpr few), lift_eq_ok_iff.mpr counted]
  dsimp only
  rw [if_neg open_gallery, room]
  split
  · exact ⟨_, .inr ⟨_, rfl⟩, rfl⟩
  · rename_i short
    exact ⟨manager, .inl rfl, by rw [List.take_of_length_le (Nat.not_lt.mp short)]⟩

variable [Refusing σ ρ] [LawfulRefusing σ τ ρ]

omit [GalleryTx τ] [TxView τ] [LawfulTx τ] [GalleryStore σ τ] [StoreView σ τ] [LawfulStore σ τ]
  [Obliging σ τ] [Refusing σ ρ] [LawfulRefusing σ τ ρ] in
theorem id_eq_of_find? {manager : Manager σ β} {parentId : String} {parent : ParentRecord}
    (registered : (ParentStore.registry manager.store).find? parentId = some parent) :
    parent.id = parentId := by
  have found : manager.parent parentId = .ok parent := by
    rw [Manager.parent, registered]
  exact (id_eq_of_parent_eq_ok found).1

omit [LawfulTx τ] [Obliging σ τ] [Refusing σ ρ] [LawfulRefusing σ τ ρ] in
/-- A transaction starts with as many images as are listed. -/
theorem length_start (store : σ) (parentId : String) :
    (TxView.draft (GalleryStore.start store parentId)).images.length =
      (GalleryStore.listImages store parentId).length := by
  rw [LawfulStore.draft_start, LawfulStore.listImages_eq, (arrange_perm _).length_eq]

omit [Refusing σ ρ] [LawfulRefusing σ τ ρ] in
/-- Files that there is room for are stored if their formats are accepted and they can be saved. -/
theorem exists_stored [BlobStore β] {manager : Manager σ β} {parent : ParentRecord}
    {uploads : List Upload} {saved : List SavedBlob} {blobs : β}
    (ready : Ready σ (GalleryStore.start manager.store parent.id))
    (registered : (ParentStore.registry manager.store).find? parent.id = some parent)
    (some_uploads : uploads ≠ []) (few : uploads.length ≤ manager.options.maxFilesPerRequest)
    (free : (GalleryStore.listImages manager.store parent.id).length <
      manager.options.maxImagesPerParent.toNat)
    (room : nextPosition (GalleryStore.listImages manager.store parent.id) < UInt32.size)
    (accepted : ∀ upload ∈ admitted manager.options
      (GalleryStore.listImages manager.store parent.id) uploads, upload.media?.isSome)
    (saves : Saves parent 0 (admitted manager.options
      (GalleryStore.listImages manager.store parent.id) uploads) manager.blobs saved blobs) :
    ∃ records after order, manager.receive parent.id uploads = (.ok records, after) ∧
      after.blobs = blobs ∧ Stored manager after parent (admitted manager.options
        (GalleryStore.listImages manager.store parent.id) uploads) saved records order := by
  have limit : manager.options.maxImagesPerParent.toNat < UInt32.size :=
    manager.options.maxImagesPerParent.toNat_lt
  have length := length_start manager.store parent.id
  obtain ⟨count, counted⟩ := Obliging.exists_count ready (by rw [length]; omega)
  have count_eq := LawfulTx.count_of_ok counted
  rw [length] at count_eq
  obtain ⟨tallied, same, received⟩ :=
    receive_eq_append registered some_uploads few counted (by omega)
  rw [count_eq] at received
  have checked : checkMedia (admitted manager.options
      (GalleryStore.listImages manager.store parent.id) uploads) = .ok () := by
    rw [checkMedia_eq, find?_isNone_eq_none_iff.mpr accepted]
  have started := LawfulStore.draft_start manager.store parent.id
  have below := nextPosition_le_iff.mp (Nat.le_refl
    (nextPosition (GalleryStore.listImages manager.store parent.id)))
  obtain ⟨order, ordered⟩ := Obliging.exists_nextOrder ready fun image mem => by
    rw [started] at mem
    have := below image (mem_listImages_iff.mpr mem)
    omega
  have fits : (StoreView.images manager.store parent.id).length + (admitted manager.options
      (GalleryStore.listImages manager.store parent.id) uploads).length ≤
      manager.options.maxImagesPerParent.toNat := by
    rw [started] at length
    rw [length, admitted, List.length_take]
    omega
  -- Files that are left out are counted before anything is saved.
  rcases same with rfl | ⟨amount, rfl⟩
  · obtain ⟨records, last, appended⟩ := exists_append ready checked ordered saves
    obtain ⟨others, _, stored⟩ := append_of_ok registered fits appended
    obtain ⟨rfl, blobs_eq⟩ := saves.unique stored.saves
    exact ⟨records, last, _, received.trans appended, blobs_eq, stored⟩
  · obtain ⟨records, last, appended⟩ : ∃ records last,
        (manager.tally .imagesTruncated amount).append parent
          (GalleryStore.start manager.store parent.id) (admitted manager.options
            (GalleryStore.listImages manager.store parent.id) uploads) = (.ok records, last) :=
      exists_append ready checked ordered saves
    obtain ⟨others, _, stored⟩ := append_of_ok (by exact registered) (by exact fits) appended
    obtain ⟨rfl, blobs_eq⟩ := saves.unique stored.of_tally.saves
    exact ⟨records, last, _, received.trans appended, blobs_eq, stored.of_tally⟩

omit [StoreView σ τ] [TxView τ] [LawfulTx τ] [LawfulStore σ τ] [Obliging σ τ] [Refusing σ ρ]
  [LawfulRefusing σ τ ρ] in
/-- Files for a gallery without a free place are refused. -/
theorem receive_of_full [BlobStore β] {manager : Manager σ β} {parent : ParentRecord}
    {uploads : List Upload} {count : UInt32}
    (registered : (ParentStore.registry manager.store).find? parent.id = some parent)
    (some_uploads : uploads ≠ []) (few : uploads.length ≤ manager.options.maxFilesPerRequest)
    (counted : GalleryTx.count (GalleryStore.start manager.store parent.id) = .ok count)
    (full : manager.options.maxImagesPerParent.toNat ≤ count.toNat) :
    manager.receive parent.id uploads =
      (.error (.capacityExceeded parent.id manager.options.maxImagesPerParent.toNat), manager) := by
  have found : manager.parent parent.id = .ok parent := by
    rw [Manager.parent, registered]
  have some_files : ¬uploads.isEmpty = true := by simpa using some_uploads
  rw [receive, found]
  dsimp only
  rw [if_neg some_files, if_neg (Nat.not_lt.mpr few), lift_eq_ok_iff.mpr counted]
  dsimp only
  rw [if_pos (UInt32.le_iff_toNat_le.mpr full)]

/-- Files that there is room for are refused for their formats or stored. -/
theorem verdict_of_free {manager : Manager σ (Faulty LocalBlobs)} {parent : ParentRecord}
    {uploads : List Upload}
    (ready : Ready σ (GalleryStore.start manager.store parent.id))
    (room : nextPosition (GalleryStore.listImages manager.store parent.id) + uploads.length <
      UInt32.size)
    (faultFree : FaultFree manager.blobs parent uploads)
    (eligible : Eligible manager parent.id uploads)
    (registered : (ParentStore.registry manager.store).find? parent.id = some parent)
    (free : (GalleryStore.listImages manager.store parent.id).length <
      manager.options.maxImagesPerParent.toNat) :
    Verdict manager parent.id uploads (manager.receive parent.id uploads) := by
  cases rejected : (admitted manager.options (GalleryStore.listImages manager.store parent.id)
    uploads).find? fun upload => upload.media?.isNone with
  | some upload =>
      have limit : manager.options.maxImagesPerParent.toNat < UInt32.size :=
        manager.options.maxImagesPerParent.toNat_lt
      have length := length_start manager.store parent.id
      obtain ⟨count, counted⟩ := Obliging.exists_count ready (by rw [length]; omega)
      have count_eq := LawfulTx.count_of_ok counted
      rw [length] at count_eq
      obtain ⟨tallied, -, received⟩ :=
        receive_eq_append registered eligible.some_uploads eligible.few counted (by omega)
      rw [received, count_eq, append, checkMedia_eq]
      rw [admitted] at rejected
      rw [rejected]
      exact .unsupported eligible free rejected
  | none =>
      have accepted := find?_isNone_eq_none_iff.mp rejected
      have few : (admitted manager.options (GalleryStore.listImages manager.store parent.id)
          uploads).length ≤ uploads.length := (List.take_prefix _ _).length_le
      obtain ⟨saved, blobs, saves⟩ := faultFree _ (List.take_prefix _ _) accepted
      obtain ⟨records, after, order, received, -, stored⟩ :=
        exists_stored ready registered eligible.some_uploads eligible.few free (by omega) accepted
          saves
      rw [received]
      exact .stored eligible registered free rejected (stored.appended (by omega))

theorem verdict_receive {manager : Manager σ (Faulty LocalBlobs)} {parentId : String}
    {uploads : List Upload}
    (ready : Ready σ (GalleryStore.start manager.store parentId))
    (room : nextPosition (GalleryStore.listImages manager.store parentId) + uploads.length <
      UInt32.size)
    (faultFree : ∀ parent, (ParentStore.registry manager.store).find? parentId = some parent →
      FaultFree manager.blobs parent uploads) :
    Verdict manager parentId uploads (manager.receive parentId uploads) := by
  cases registration : (ParentStore.registry manager.store).find? parentId with
  | none =>
      rw [receive, Manager.parent, registration]
      exact .notFound registration
  | some parent =>
      obtain rfl := id_eq_of_find? registration
      have registered : (ParentStore.registry manager.store).find? parent.id ≠ none := by
        rw [registration]
        exact Option.some_ne_none parent
      have found : manager.parent parent.id = .ok parent := by
        rw [Manager.parent, registration]
      have length := length_start manager.store parent.id
      by_cases nothing : uploads = []
      · rw [receive, found, nothing]
        exact .invalidInput registered rfl
      have some_files : ¬uploads.isEmpty = true := by simpa using nothing
      by_cases many : manager.options.maxFilesPerRequest < uploads.length
      · rw [receive, found]
        dsimp only
        rw [if_neg some_files, if_pos many]
        exact .limitExceeded registered nothing many
      have eligible : Eligible manager parent.id uploads :=
        ⟨registered, nothing, Nat.not_lt.mp many⟩
      by_cases free : (GalleryStore.listImages manager.store parent.id).length <
        manager.options.maxImagesPerParent.toNat
      · exact verdict_of_free ready room (faultFree parent registration) eligible
          registration free
      have full := Nat.not_lt.mp free
      rcases Nat.lt_or_ge (GalleryStore.listImages manager.store parent.id).length
        UInt32.size with small | large
      · obtain ⟨count, counted⟩ := Obliging.exists_count ready (by rw [length]; exact small)
        have count_eq := LawfulTx.count_of_ok counted
        rw [length] at count_eq
        rw [receive_of_full registration nothing (Nat.not_lt.mp many) counted
          (by rw [count_eq]; exact full)]
        exact .capacityExceeded eligible small full
      · obtain ⟨cause, refused, overflow⟩ := Obliging.count_of_large ready (by
          rw [length]
          exact large)
        rw [length] at overflow
        rw [receive, found]
        dsimp only
        rw [if_neg some_files, if_neg many, refused]
        exact .uncounted eligible large overflow

/-- Nothing stands in the way of an upload but what it is refused for: the ids of the images are
distinct, there are positions for all files, and whatever is saved can be saved. -/
structure Unhindered (manager : Manager σ (Faulty LocalBlobs)) (parentId : String)
    (uploads : List Upload) : Prop where
  numbered : Numbered manager.store
  room : nextPosition (GalleryStore.listImages manager.store parentId) + uploads.length <
    UInt32.size
  faultFree {parent : ParentRecord}
    (registered : (ParentStore.registry manager.store).find? parentId = some parent) :
    FaultFree manager.blobs parent uploads

theorem uploadsInFull_of_ready {manager : Manager σ (Faulty LocalBlobs)} {parentId : String}
    {uploads : List Upload} (unhindered : Unhindered manager parentId uploads)
    (ready : Ready σ (GalleryStore.start manager.store parentId)) :
    UploadsInFull manager parentId uploads :=
  (verdict_receive ready unhindered.room
    fun _ registered => unhindered.faultFree registered).upload.inFull

end Answering

/-- In memory, in a database and in a file, an upload does what is expected of it from every state
of the store, as long as the store refuses nothing and the files can be saved. -/
theorem uploadsInFull_of_everyStore (parentId : String) (uploads : List Upload) :
    (∀ manager : Manager MemoryStore (Faulty LocalBlobs), manager.store.failCommits = false →
      Unhindered manager parentId uploads → UploadsInFull manager parentId uploads) ∧
    (∀ manager : Manager (Fallible Database) (Faulty LocalBlobs),
      (∀ call tried, manager.store.refusals call tried = none) →
        Unhindered manager parentId uploads → UploadsInFull manager parentId uploads) ∧
    ∀ manager : Manager FileStore (Faulty LocalBlobs),
      (∀ call tried, manager.store.refusals call tried = none) →
        Unhindered manager parentId uploads → UploadsInFull manager parentId uploads :=
  ⟨fun _ works unhindered => uploadsInFull_of_ready unhindered (MemoryStore.ready_start works _),
    fun _ works unhindered => uploadsInFull_of_ready unhindered (Fallible.ready_start works _),
    fun _ works unhindered => uploadsInFull_of_ready unhindered (FileStore.ready_start works _)⟩

/-- There is one place left in the gallery of p. -/
def almostFull (store : σ) : Manager σ (Faulty LocalBlobs) where
  store := store
  blobs := { inner := LocalBlobs.leadingOut }
  options := { maxImagesPerParent := 4 }
  clock := { reading := fun _ => 0 }

/-- An image that there is room for, and a file of another kind that there is no room for. -/
def mixedFiles : List Upload :=
  [LocalBlobs.emptyImage, .ofHeld "notes.txt" none []]

theorem faultFree_mixedFiles : FaultFree (β := Faulty LocalBlobs)
    { inner := LocalBlobs.leadingOut } ⟨"p", "t", ""⟩ mixedFiles := by
  intro taken start accepted
  rcases List.prefix_cons_iff.mp start with rfl | ⟨rest, rfl, restStart⟩
  · exact ⟨[], _, .nil⟩
  rcases List.prefix_cons_iff.mp restStart with rfl | ⟨others, rfl, -⟩
  · obtain ⟨saved, after, succeeded⟩ := LocalBlobs.exists_save_leadingOut
    have first : BlobStore.save ({ inner := LocalBlobs.leadingOut } : Faulty LocalBlobs)
        "t" "p" 0 LocalBlobs.emptyImage = (.ok saved, { inner := after }) :=
      congrArg (fun result => (result.1, (⟨result.2, none⟩ : Faulty LocalBlobs))) succeeded
    exact ⟨[saved], _, .cons first .nil⟩
  · have rejected := accepted _ (List.mem_cons_of_mem _ List.mem_cons_self)
    exact absurd rejected (by decide +kernel)

theorem unhindered_mixedFiles [GalleryTx τ] [TxView τ] [GalleryStore σ τ] [ParentStore σ]
    [StoreView σ τ] [LawfulStore σ τ] {store : σ} (holds : HoldsUneven store) :
    Unhindered (almostFull store) "p" mixedFiles where
  numbered := holds.numbered
  room := by
    change nextPosition (GalleryStore.listImages store "p") + _ < _
    rw [LawfulStore.listImages_eq, nextPosition_eq_of_perm (arrange_perm _), holds.images_eq]
    decide
  faultFree registered := by
    change (ParentStore.registry store).find? "p" = _ at registered
    rw [holds.registry_eq] at registered
    cases registered
    exact faultFree_mixedFiles

theorem uploadsInFull_mixedFiles :
    UploadsInFull (almostFull MemoryStore.uneven) "p" mixedFiles ∧
    UploadsInFull (almostFull ({ inner := .uneven } : Fallible Database)) "p" mixedFiles ∧
    ∃ store : FileStore, store.database = { inner := .uneven } ∧
      UploadsInFull (almostFull store) "p" mixedFiles := by
  obtain ⟨store, database, works⟩ := exists_file .uneven
  exact ⟨(uploadsInFull_of_everyStore _ _).1 _ rfl (unhindered_mixedFiles MemoryStore.holdsUneven),
    (uploadsInFull_of_everyStore _ _).2.1 _ (fun _ _ => rfl)
      (unhindered_mixedFiles Fallible.holdsUneven),
    store, database, (uploadsInFull_of_everyStore _ _).2.2 _ works
      (unhindered_mixedFiles (FileStore.holdsUneven database))⟩

end Manager
end ImageGallery
