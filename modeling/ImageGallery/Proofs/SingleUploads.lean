import ImageGallery.Proofs.BlobContents
import ImageGallery.Proofs.DeletionOrder
import ImageGallery.Proofs.Uploading

/-!
# Files one at a time

Files that are uploaded together and files that are uploaded one by one leave the same gallery, but
for the names and times that are made up. A batch looks at the next position, at the cover and at
the free places once, and a single upload looks at them anew. Either way the new images are a run:
ids and positions follow on, and the first image is the cover if there was none. A run behind a run
is one run.

When no place is free a single upload is refused, and a batch leaves the file out.
-/

namespace ImageGallery

variable {σ τ β : Type}

/-! ## Runs of new images -/

/-- An image without what is made up for it. -/
def ImageRecord.unnamed (image : ImageRecord) : ImageRecord :=
  { image with url := "", storageKey := "", createdAt := "" }

/-- So many new images without what is made up for them, from a position on and behind an id. Only
the first may be the cover. -/
def newImages (parentId : String) :
    (position : Nat) → (cover : Bool) → (lastId : Int) → (count : Nat) → List ImageRecord
  | _, _, _, 0 => []
  | position, cover, lastId, count + 1 =>
    { url := "", storageKey := "", isCover := cover, sortOrder := position.toUInt32,
      createdAt := "", id := lastId + 1, parentId } ::
    newImages parentId (position + 1) false (lastId + 1) count

section Runs

variable {parentId : String} {position first second count : Nat} {cover : Bool} {lastId : Int}

/-- A run behind a run is one run. -/
theorem newImages_add : newImages parentId position cover lastId (first + second) =
    newImages parentId position cover lastId first ++
      newImages parentId (position + first) (cover && first == 0) (lastId + first) second := by
  induction first generalizing position cover lastId with
  | zero => simp [newImages]
  | succ first ih =>
      rw [Nat.succ_add, newImages, newImages, ih, List.cons_append]
      have place : position + 1 + first = position + (first + 1) := by omega
      have id : lastId + 1 + first = lastId + ((first + 1 : Nat) : Int) := by omega
      rw [place, id]
      simp

theorem any_isCover_newImages :
    (newImages parentId position cover lastId count).any (·.isCover) = (cover && count != 0) := by
  induction count generalizing position cover lastId with
  | zero => simp [newImages]
  | succ count ih =>
      rw [newImages, List.any_cons, ih]
      simp

/-- A run ends at the position behind its last image. -/
theorem foldl_newImages (small : position + count ≤ UInt32.size) :
    (newImages parentId position cover lastId count).foldl
      (fun greatest image => max greatest (image.sortOrder.toNat + 1)) position =
        position + count := by
  induction count generalizing position cover lastId with
  | zero => rfl
  | succ count ih =>
      have place : position.toUInt32.toNat = position :=
        UInt32.toNat_ofNat_of_lt' (by omega)
      rw [newImages, List.foldl_cons, place, max_eq_right (Nat.le_succ position), ih (by omega)]
      omega

/-- The records of saved files are a run. -/
theorem map_unnamed_recordsOf {options : GalleryOptions} {parent : ParentRecord} {order : UInt32}
    {index : Nat} {clock : Clock} {saved : List SavedBlob} :
    (Manager.recordsOf options parent order index cover lastId clock saved).map
      ImageRecord.unnamed =
        newImages parent.id (order.toNat + index) cover lastId saved.length := by
  induction saved generalizing index cover lastId clock with
  | nil => rfl
  | cons blob others ih =>
      have place : order + index.toUInt32 = (order.toNat + index).toUInt32 := by
        simp [Nat.toUInt32]
      rw [Manager.recordsOf, List.map_cons, ih, List.length_cons, newImages, ← Nat.add_assoc,
        ← place]
      rfl

/-- Behind a run the next position is as many places further. -/
theorem nextPosition_append_run {images records : List ImageRecord}
    (run : records.map ImageRecord.unnamed =
      newImages parentId (nextPosition images) cover lastId records.length)
    (small : nextPosition images + records.length ≤ UInt32.size) :
    nextPosition (images ++ records) = nextPosition images + records.length := by
  have positions : (newImages parentId (nextPosition images) cover lastId records.length).foldl
      (fun greatest image => max greatest (image.sortOrder.toNat + 1)) (nextPosition images) =
        nextPosition images + records.length := foldl_newImages small
  rw [← run, List.foldl_map] at positions
  rw [nextPosition, List.foldl_append]
  exact positions

/-- A run has a cover if its first image is to be one. -/
theorem any_isCover_of_run {records : List ImageRecord}
    (run : records.map ImageRecord.unnamed =
      newImages parentId position cover lastId records.length) :
    records.any (·.isCover) = (cover && records.length != 0) := by
  have covers := congrArg (List.any · (·.isCover)) run
  rwa [any_isCover_newImages, List.any_map] at covers

end Runs

namespace Manager

/-! ## Files one by one -/

section Saving

variable [BlobStore β] {parent : ParentRecord}

/-- Files of a parent are saved one after the other, each with an index of its own. -/
inductive SavesAt (parent : ParentRecord) :
    List (Upload × Nat) → β → List SavedBlob → β → Prop where
  | nil {blobs : β} : SavesAt parent [] blobs [] blobs
  | cons {upload : Upload} {index : Nat} {numbered : List (Upload × Nat)} {saved : SavedBlob}
      {others : List SavedBlob} {blobs middle after : β}
      (first : BlobStore.save blobs parent.scopeId parent.id index upload = (.ok saved, middle))
      (rest : SavesAt parent numbered middle others after) :
      SavesAt parent ((upload, index) :: numbered) blobs (saved :: others) after

/-- In a batch the indices follow one another. -/
theorem Saves.savesAt {index : Nat} {uploads : List Upload} {blobs after : β}
    {saved : List SavedBlob} (saves : Saves parent index uploads blobs saved after) :
    SavesAt parent (uploads.zipIdx index) blobs saved after := by
  induction saves with
  | nil => exact .nil
  | cons first _ ih => exact .cons first ih

theorem SavesAt.length_eq {numbered : List (Upload × Nat)} {blobs after : β}
    {saved : List SavedBlob} (saves : SavesAt parent numbered blobs saved after) :
    saved.length = numbered.length := by
  induction saves with
  | nil => rfl
  | cons _ _ ih => rw [List.length_cons, List.length_cons, ih]

end Saving

/-- Whatever is saved can be read. -/
theorem readable_of_savesAt {parent : ParentRecord} {numbered : List (Upload × Nat)}
    {blobs after : LocalBlobs} {saved : List SavedBlob}
    (saves : SavesAt parent numbered blobs saved after) (new : blobs.NewNames) :
    LocalBlobs.Readable blobs after
      ((numbered.map fun entry => entry.1.content.ahead).zip (saved.map (·.storageKey))) := by
  induction saves with
  | nil => exact .nil new
  | cons first _ ih =>
      have readable := LocalBlobs.readable_of_save new first
      exact readable.append (ih readable.new)

/-- Upload files one by one. -/
def uploadAll [GalleryTx τ] [GalleryStore σ τ] [ParentStore σ] [BlobStore β]
    (manager : Manager σ β) (parentId : String) :
    List Upload → List (Except GalleryError (List ImageRecord)) × Manager σ β
  | [] => ([], manager)
  | upload :: uploads =>
    let (answer, after) := manager.upload parentId [upload]
    let (answers, last) := after.uploadAll parentId uploads
    (answer :: answers, last)

section Admitting

variable {options : GalleryOptions} {gallery : List ImageRecord}

/-- If there is room for the first file, there is one place less for the others. -/
theorem admitted_cons (free : gallery.length < options.maxImagesPerParent.toNat) (upload : Upload)
    (uploads : List Upload) : admitted options gallery (upload :: uploads) =
      upload :: uploads.take (options.maxImagesPerParent.toNat - (gallery.length + 1)) := by
  have places : options.maxImagesPerParent.toNat - gallery.length =
      options.maxImagesPerParent.toNat - (gallery.length + 1) + 1 := by omega
  rw [admitted, places, List.take_succ_cons]

theorem admitted_of_full (full : options.maxImagesPerParent.toNat ≤ gallery.length)
    (uploads : List Upload) : admitted options gallery uploads = [] := by
  rw [admitted, Nat.sub_eq_zero_of_le full, List.take_zero]

end Admitting

/-! ## Galleries that grow by a run -/

section Growing

variable [GalleryStore σ τ] [ParentStore σ] [StoreView σ τ]

/-- The gallery of a parent grew by the records of saved files, which are a run of new images behind
the gallery. -/
structure Grew (manager after : Manager σ β) (parentId : String) (saved : List SavedBlob)
    (records : List ImageRecord) : Prop where
  run : records.map ImageRecord.unnamed =
    newImages parentId (nextPosition (GalleryStore.listImages manager.store parentId))
      (!(GalleryStore.listImages manager.store parentId).any (·.isCover))
      (StoreView.lastId manager.store) records.length
  keys_eq : records.map (·.storageKey) = saved.map (·.storageKey)
  listed : GalleryStore.listImages after.store parentId =
    GalleryStore.listImages manager.store parentId ++ records
  others (other : String) (differ : other ≠ parentId) :
    GalleryStore.listImages after.store other = GalleryStore.listImages manager.store other
  lastId_eq : StoreView.lastId after.store = StoreView.lastId manager.store + records.length
  registry_eq : ParentStore.registry after.store = ParentStore.registry manager.store
  options_eq : after.options = manager.options

variable {manager middle after : Manager σ β} {parentId : String}
  {saved later : List SavedBlob} {records others : List ImageRecord}

theorem Grew.refl (manager : Manager σ β) (parentId : String) :
    Grew manager manager parentId [] [] :=
  ⟨rfl, rfl, (List.append_nil _).symm, fun _ _ => rfl, (Int.add_zero _).symm, rfl, rfl⟩

theorem Grew.length_eq (grew : Grew manager after parentId saved records) :
    records.length = saved.length := by
  have lengths := congrArg List.length grew.keys_eq
  rwa [List.length_map, List.length_map] at lengths

theorem Grew.nextPosition_eq (grew : Grew manager after parentId saved records)
    (room : nextPosition (GalleryStore.listImages manager.store parentId) + records.length ≤
      UInt32.size) :
    nextPosition (GalleryStore.listImages after.store parentId) =
      nextPosition (GalleryStore.listImages manager.store parentId) + records.length := by
  rw [grew.listed]
  exact nextPosition_append_run grew.run room

/-- After a run there is a cover unless the run is empty. -/
theorem Grew.covered_eq (grew : Grew manager after parentId saved records) :
    (!(GalleryStore.listImages after.store parentId).any (·.isCover)) =
      (!(GalleryStore.listImages manager.store parentId).any (·.isCover) &&
        records.length == 0) := by
  rw [grew.listed, List.any_append, any_isCover_of_run grew.run]
  cases (GalleryStore.listImages manager.store parentId).any (·.isCover) <;> simp [bne]

/-- Counting something afterwards does not matter. -/
theorem Grew.tally (grew : Grew manager after parentId saved records) (counter : Counter)
    (amount : Nat) : Grew manager (after.tally counter amount) parentId saved records :=
  ⟨grew.run, grew.keys_eq, grew.listed, grew.others, grew.lastId_eq, grew.registry_eq,
    grew.options_eq⟩

/-- Counting something before does not matter either. -/
theorem Grew.of_tally {counter : Counter} {amount : Nat}
    (grew : Grew (manager.tally counter amount) after parentId saved records) :
    Grew manager after parentId saved records :=
  ⟨grew.run, grew.keys_eq, grew.listed, grew.others, grew.lastId_eq, grew.registry_eq,
    grew.options_eq⟩

/-- A run behind a run is one run. -/
theorem Grew.trans (first : Grew manager middle parentId saved records)
    (second : Grew middle after parentId later others)
    (room : nextPosition (GalleryStore.listImages manager.store parentId) + records.length ≤
      UInt32.size) :
    Grew manager after parentId (saved ++ later) (records ++ others) where
  run := by
    rw [List.map_append, List.length_append, newImages_add, first.run, second.run,
      first.nextPosition_eq room, first.covered_eq, first.lastId_eq]
  keys_eq := by rw [List.map_append, List.map_append, first.keys_eq, second.keys_eq]
  listed := by rw [second.listed, first.listed, List.append_assoc]
  others other differ := (second.others other differ).trans (first.others other differ)
  lastId_eq := by
    rw [second.lastId_eq, first.lastId_eq, List.length_append, Nat.cast_add, Int.add_assoc]
  registry_eq := second.registry_eq.trans first.registry_eq
  options_eq := second.options_eq.trans first.options_eq

variable [GalleryTx τ] [TxView τ] [LawfulTx τ] [LawfulStore σ τ] [BlobStore β]

/-- An upload that succeeds lets the gallery grow. -/
theorem Stored.grew {parent : ParentRecord} {taken : List Upload} {order : UInt32}
    (stored : Stored manager after parent taken saved records order)
    (room : nextPosition (GalleryStore.listImages manager.store parent.id) + taken.length <
      UInt32.size) : Grew manager after parent.id saved records where
  run := by
    have position := stored.order_eq (by omega)
    rw [stored.length_eq, ← stored.saves.length_eq, any_isCover_listImages, ← position,
      stored.records_eq, map_unnamed_recordsOf, Nat.add_zero]
  keys_eq := by rw [stored.records_eq, map_storageKey_recordsOf]
  listed := stored.listed room
  others other differ := stored.listed_other differ
  lastId_eq := by
    rw [stored.published.lastId_eq, stored.length_eq, stored.saves.length_eq]
  registry_eq := stored.published.registry_eq
  options_eq := stored.options_eq

end Growing

/-! ## One upload after the other -/

section Uploads

variable [GalleryTx τ] [TxView τ] [GalleryStore σ τ] [ParentStore σ] [Obliging σ τ] [BlobStore β]
  {works : σ → Prop} {manager : Manager σ β}

omit [ParentStore σ] in
theorem works_append (steady : Steady works) (working : works manager.store)
    (parent : ParentRecord) (tx : τ) (uploads : List Upload) :
    works (manager.append parent tx uploads).2.store := by
  unfold append
  split
  · exact working
  · split
    · exact working
    · split
      · exact working
      · rename_i records batch _
        have kept : works (commitWith { manager with blobs := batch.blobs, clock := batch.clock }
            batch.tx records).2.store := works_commitWith steady (by exact working) _ _
        split
        · rename_i published committed
          rwa [committed] at kept
        · exact kept

/-- A store that works goes on working after an upload. -/
theorem works_upload (steady : Steady works) (working : works manager.store) (parentId : String)
    (uploads : List Upload) : works (manager.upload parentId uploads).2.store := by
  change works (manager.receive parentId uploads).2.store
  unfold receive
  split
  · exact working
  · split
    · exact working
    · split
      · exact working
      · dsimp only
        split
        · exact working
        · split
          · exact working
          · split
            · refine works_append steady ?_ _ _ _
              exact working
            · exact works_append steady working _ _ _

variable [LawfulTx τ] [StoreView σ τ] [LawfulStore σ τ] {parent : ParentRecord}
  {uploads : List Upload} {saved : List SavedBlob} {blobs : β}

/-- Files that there is room for and that can be saved let the gallery grow. -/
theorem exists_grew (steady : Steady works) (working : works manager.store)
    (registered : (ParentStore.registry manager.store).find? parent.id = some parent)
    (some_uploads : uploads ≠ []) (few : uploads.length ≤ manager.options.maxFilesPerRequest)
    (free : (GalleryStore.listImages manager.store parent.id).length <
      manager.options.maxImagesPerParent.toNat)
    (room : nextPosition (GalleryStore.listImages manager.store parent.id) + uploads.length <
      UInt32.size)
    (supported : ∀ upload ∈ admitted manager.options
      (GalleryStore.listImages manager.store parent.id) uploads, upload.media?.isSome)
    (saves : Saves parent 0 (admitted manager.options
      (GalleryStore.listImages manager.store parent.id) uploads) manager.blobs saved blobs) :
    ∃ records after, manager.upload parent.id uploads = (.ok records, after) ∧
      after.blobs = blobs ∧ Grew manager after parent.id saved records := by
  obtain ⟨records, after, order, received, blobs_eq, stored⟩ :=
    exists_stored (steady.ready working parent.id) registered some_uploads few free (by omega)
      supported saves
  have fewer : (admitted manager.options (GalleryStore.listImages manager.store parent.id)
      uploads).length ≤ uploads.length := (List.take_prefix _ _).length_le
  have grew := stored.grew (by omega)
  refine ⟨records, after.tally (.operations .upload true) 1, ?_, blobs_eq, grew.tally _ _⟩
  rw [Manager.upload, received]
  rfl

/-- One file that there is room for is stored, and the store goes on working. -/
theorem exists_grew_one {upload : Upload} {blob : SavedBlob} (steady : Steady works)
    (working : works manager.store)
    (registered : (ParentStore.registry manager.store).find? parent.id = some parent)
    (single : 1 ≤ manager.options.maxFilesPerRequest)
    (free : (GalleryStore.listImages manager.store parent.id).length <
      manager.options.maxImagesPerParent.toNat)
    (room : nextPosition (GalleryStore.listImages manager.store parent.id) + 1 < UInt32.size)
    (supported : upload.media?.isSome)
    (succeeded : BlobStore.save manager.blobs parent.scopeId parent.id 0 upload =
      (.ok blob, blobs)) :
    ∃ record after, manager.upload parent.id [upload] = (.ok [record], after) ∧
      works after.store ∧ after.blobs = blobs ∧ Grew manager after parent.id [blob] [record] := by
  have alone : admitted manager.options (GalleryStore.listImages manager.store parent.id)
      [upload] = [upload] := by
    rw [admitted_cons free, List.take_nil]
  obtain ⟨records, after, answered, blobs_eq, grew⟩ :=
    exists_grew steady working registered (List.cons_ne_nil upload []) single free room
      (by rw [alone]; exact List.forall_mem_singleton.mpr supported)
      (by rw [alone]; exact Saves.cons succeeded .nil)
  obtain ⟨record, rfl⟩ := List.length_eq_one_iff.mp grew.length_eq
  have kept := works_upload steady working parent.id [upload]
  rw [answered] at kept
  exact ⟨record, after, answered, kept, blobs_eq, grew⟩

/-- A file for a full gallery is refused, and only the refusal is counted. -/
theorem upload_of_full (steady : Steady works) (working : works manager.store)
    (registered : (ParentStore.registry manager.store).find? parent.id = some parent)
    (some_uploads : uploads ≠ []) (few : uploads.length ≤ manager.options.maxFilesPerRequest)
    (full : (GalleryStore.listImages manager.store parent.id).length =
      manager.options.maxImagesPerParent.toNat) :
    manager.upload parent.id uploads =
      (.error (.capacityExceeded parent.id manager.options.maxImagesPerParent.toNat),
        manager.tally (.operations .upload false) 1) := by
  have limit : manager.options.maxImagesPerParent.toNat < UInt32.size :=
    manager.options.maxImagesPerParent.toNat_lt
  have length := length_start manager.store parent.id
  obtain ⟨count, counted⟩ := Obliging.exists_count (steady.ready working parent.id)
    (by rw [length]; omega)
  have count_eq := LawfulTx.count_of_ok counted
  rw [length] at count_eq
  rw [Manager.upload, receive_of_full registered some_uploads few counted (by omega)]
  rfl

/-- Files that are uploaded one by one while there is room. -/
structure UploadsEach (manager : Manager σ β) (parentId : String)
    (uploads : List Upload) (saved : List SavedBlob) (blobs : β) (records : List ImageRecord) :
    Prop where
  answered : (manager.uploadAll parentId uploads).1 =
    records.map (fun record => .ok [record]) ++ List.replicate (uploads.length - records.length)
      (.error (.capacityExceeded parentId manager.options.maxImagesPerParent.toNat))
  blobs_eq : (manager.uploadAll parentId uploads).2.blobs = blobs
  grew : Grew manager (manager.uploadAll parentId uploads).2 parentId saved records

omit [LawfulStore σ τ] [StoreView σ τ] [LawfulTx τ] [Obliging σ τ] [TxView τ] in
theorem uploadAll_cons {parentId : String} {upload : Upload}
    {answer : Except GalleryError (List ImageRecord)} {after : Manager σ β}
    (answered : manager.upload parentId [upload] = (answer, after)) (uploads : List Upload) :
    manager.uploadAll parentId (upload :: uploads) =
      (answer :: (after.uploadAll parentId uploads).1, (after.uploadAll parentId uploads).2) := by
  rw [uploadAll, answered]

/-- A full gallery takes no file. -/
theorem uploadsEach_of_full (steady : Steady works) (working : works manager.store)
    (registered : (ParentStore.registry manager.store).find? parent.id = some parent)
    (single : 1 ≤ manager.options.maxFilesPerRequest)
    (full : (GalleryStore.listImages manager.store parent.id).length =
      manager.options.maxImagesPerParent.toNat) :
    UploadsEach manager parent.id uploads [] manager.blobs [] := by
  induction uploads generalizing manager with
  | nil => exact ⟨rfl, rfl, .refl _ _⟩
  | cons upload uploads ih =>
      have refused := upload_of_full steady working registered (List.cons_ne_nil upload []) single
        full
      have each := @ih (manager.tally (.operations .upload false) 1) working registered single full
      constructor
      · rw [uploadAll_cons refused, each.answered]
        rfl
      · rw [uploadAll_cons refused, each.blobs_eq]
        rfl
      · rw [uploadAll_cons refused]
        exact each.grew.of_tally

/-- As many files as there is room for are stored one by one, and the others are refused. -/
theorem exists_uploadsEach (steady : Steady works) (working : works manager.store)
    (registered : (ParentStore.registry manager.store).find? parent.id = some parent)
    (single : 1 ≤ manager.options.maxFilesPerRequest)
    (within : (GalleryStore.listImages manager.store parent.id).length ≤
      manager.options.maxImagesPerParent.toNat)
    (room : nextPosition (GalleryStore.listImages manager.store parent.id) + uploads.length <
      UInt32.size)
    (supported : ∀ upload ∈ admitted manager.options
      (GalleryStore.listImages manager.store parent.id) uploads, upload.media?.isSome)
    (saves : SavesAt parent ((admitted manager.options
      (GalleryStore.listImages manager.store parent.id) uploads).map (·, 0)) manager.blobs saved
      blobs) :
    ∃ records, UploadsEach manager parent.id uploads saved blobs records := by
  induction uploads generalizing manager saved with
  | nil =>
      rw [admitted, List.take_nil] at saves
      cases saves
      exact ⟨[], rfl, rfl, .refl _ _⟩
  | cons upload uploads ih =>
      rcases within.lt_or_eq with free | full
      · rw [admitted_cons free] at supported saves
        obtain ⟨accepted, supportedRest⟩ := List.forall_mem_cons.mp supported
        cases saves with
        | @cons _ _ _ blob others _ middle _ first rest =>
            rw [List.length_cons] at room
            obtain ⟨record, after, answered, kept, rfl, grew⟩ :=
              exists_grew_one steady working registered single free (by omega) accepted first
            -- The others find the gallery that the file leaves.
            have length : (GalleryStore.listImages after.store parent.id).length =
                (GalleryStore.listImages manager.store parent.id).length + 1 := by
              rw [grew.listed, List.length_append, List.length_singleton]
            have left : admitted after.options (GalleryStore.listImages after.store parent.id)
                uploads = uploads.take (manager.options.maxImagesPerParent.toNat -
                  ((GalleryStore.listImages manager.store parent.id).length + 1)) := by
              rw [admitted, grew.options_eq, length]
            have position := grew.nextPosition_eq (by rw [List.length_singleton]; omega)
            rw [List.length_singleton] at position
            obtain ⟨records, each⟩ := ih kept (by rw [grew.registry_eq, registered])
              (by rw [grew.options_eq]; exact single) (by rw [grew.options_eq, length]; exact free)
              (by rw [position]; omega) (by rw [left]; exact supportedRest)
              (by rw [left]; exact rest)
            refine ⟨record :: records, ?_, ?_, ?_⟩
            · rw [uploadAll_cons answered, each.answered, grew.options_eq, List.length_cons,
                List.length_cons, Nat.add_sub_add_right, List.map_cons, List.cons_append]
            · rw [uploadAll_cons answered, each.blobs_eq]
            · rw [uploadAll_cons answered]
              exact grew.trans each.grew (by rw [List.length_singleton]; omega)
      · rw [admitted_of_full (Nat.le_of_eq full.symm)] at saves
        cases saves
        exact ⟨[], uploadsEach_of_full steady working registered single full⟩

end Uploads

/-! ## A batch and its files -/

section Comparing

variable [GalleryTx τ] [TxView τ] [GalleryStore σ τ] [ParentStore σ]

/-- The same manager where times and names turn out differently. -/
def redrawn (manager : Manager σ LocalBlobs) (clock : Clock) (names : Blob.NameSource) :
    Manager σ LocalBlobs :=
  { manager with clock, blobs := { manager.blobs with names } }

/-- Not too many files for a registered parent with a free place. Those that there is room for are
supported and can be saved, together and also one by one under other names. -/
structure Storable (manager : Manager σ LocalBlobs) (names : Blob.NameSource)
    (parent : ParentRecord) (uploads : List Upload) : Prop where
  registered : (ParentStore.registry manager.store).find? parent.id = some parent
  some_uploads : uploads ≠ []
  few : uploads.length ≤ manager.options.maxFilesPerRequest
  free : (GalleryStore.listImages manager.store parent.id).length <
    manager.options.maxImagesPerParent.toNat
  room : nextPosition (GalleryStore.listImages manager.store parent.id) + uploads.length <
    UInt32.size
  supported : ∀ upload ∈ admitted manager.options
    (GalleryStore.listImages manager.store parent.id) uploads, upload.media?.isSome
  together : ∃ saved blobs, Saves parent 0 (admitted manager.options
    (GalleryStore.listImages manager.store parent.id) uploads) manager.blobs saved blobs
  apart : ∃ saved blobs, SavesAt parent ((admitted manager.options
    (GalleryStore.listImages manager.store parent.id) uploads).map (·, 0))
      { manager.blobs with names } saved blobs

/-- Files that are uploaded together by one manager and one by one by another. `together` and
`apart` are the new images of the two, in the order of the files. -/
structure SameGallery (manager single : Manager σ LocalBlobs) (parentId : String)
    (uploads : List Upload) (together apart : List ImageRecord) : Prop where
  answered : (manager.upload parentId uploads).1 = .ok together
  /-- The files that the batch leaves out are those that are refused one by one. -/
  answeredEach : (single.uploadAll parentId uploads).1 =
    apart.map (fun record => .ok [record]) ++ List.replicate (uploads.length - apart.length)
      (.error (.capacityExceeded parentId single.options.maxImagesPerParent.toNat))
  length_eq : together.length = (admitted manager.options
    (GalleryStore.listImages manager.store parentId) uploads).length
  unnamed_eq : apart.map ImageRecord.unnamed = together.map ImageRecord.unnamed
  listed : GalleryStore.listImages (manager.upload parentId uploads).2.store parentId =
    GalleryStore.listImages manager.store parentId ++ together
  listedEach : GalleryStore.listImages (single.uploadAll parentId uploads).2.store parentId =
    GalleryStore.listImages manager.store parentId ++ apart
  others (other : String) (differ : other ≠ parentId) :
    GalleryStore.listImages (manager.upload parentId uploads).2.store other =
        GalleryStore.listImages manager.store other ∧
      GalleryStore.listImages (single.uploadAll parentId uploads).2.store other =
        GalleryStore.listImages manager.store other
  contents (new : manager.blobs.NewNames) : ∀ pair ∈ (admitted manager.options
      (GalleryStore.listImages manager.store parentId) uploads).zip together,
    (manager.upload parentId uploads).2.blobs.read? pair.2.storageKey =
      some pair.1.content.ahead
  contentsEach (new : single.blobs.NewNames) : ∀ pair ∈ (admitted manager.options
      (GalleryStore.listImages manager.store parentId) uploads).zip apart,
    (single.uploadAll parentId uploads).2.blobs.read? pair.2.storageKey =
      some pair.1.content.ahead
  kept (new : manager.blobs.NewNames) (key : String) (bytes : Bytes)
    (read : manager.blobs.read? key = some bytes) :
    (manager.upload parentId uploads).2.blobs.read? key = some bytes
  keptEach (new : single.blobs.NewNames) (key : String) (bytes : Bytes)
    (read : single.blobs.read? key = some bytes) :
    (single.uploadAll parentId uploads).2.blobs.read? key = some bytes

/-- New images are read like the files that they were saved for. -/
theorem read?_of_readable {before after : LocalBlobs} {numbered : List (Upload × Nat)}
    {taken : List Upload} {saved : List SavedBlob} {records : List ImageRecord}
    (readable : LocalBlobs.Readable before after
      ((numbered.map fun entry => entry.1.content.ahead).zip (saved.map (·.storageKey))))
    (uploads_eq : numbered.map Prod.fst = taken)
    (keys_eq : records.map (·.storageKey) = saved.map (·.storageKey)) :
    ∀ pair ∈ taken.zip records, after.read? pair.2.storageKey = some pair.1.content.ahead := by
  intro pair mem
  refine readable.saved (pair.1.content.ahead, pair.2.storageKey) ?_
  have contents : numbered.map (fun entry => entry.1.content.ahead) =
      taken.map (·.content.ahead) := by
    rw [← uploads_eq, List.map_map]
    rfl
  rw [contents, ← keys_eq, List.zip_map]
  exact List.mem_map_of_mem (f := Prod.map _ _) mem

variable [Obliging σ τ] [LawfulTx τ] [StoreView σ τ] [LawfulStore σ τ] {works : σ → Prop}

theorem exists_sameGallery (steady : Steady works) {manager : Manager σ LocalBlobs}
    {clock : Clock} {names : Blob.NameSource} {parent : ParentRecord} {uploads : List Upload}
    (working : works manager.store) (storable : Storable manager names parent uploads) :
    ∃ together apart, SameGallery manager (manager.redrawn clock names) parent.id uploads
      together apart := by
  obtain ⟨saved, blobs, saves⟩ := storable.together
  obtain ⟨savedEach, blobsEach, savesEach⟩ := storable.apart
  obtain ⟨together, after, answered, blobs_eq, grew⟩ := exists_grew steady working
    storable.registered storable.some_uploads storable.few storable.free storable.room
    storable.supported saves
  have single : 1 ≤ manager.options.maxFilesPerRequest :=
    Nat.le_trans (List.length_pos_iff.mpr storable.some_uploads) storable.few
  obtain ⟨apart, each⟩ : ∃ apart, UploadsEach (manager.redrawn clock names) parent.id uploads
      savedEach blobsEach apart :=
    exists_uploadsEach steady working storable.registered single (Nat.le_of_lt storable.free)
      storable.room storable.supported savesEach
  have length_eq := grew.length_eq.trans saves.length_eq
  have lengths : apart.length = together.length := by
    rw [each.grew.length_eq, savesEach.length_eq, List.length_map, length_eq]
  have readable := readable_of_savesAt saves.savesAt
  have readableEach := readable_of_savesAt savesEach
  refine ⟨together, apart, ?_⟩
  constructor
  · rw [answered]
  · exact each.answered
  · exact length_eq
  · rw [each.grew.run, grew.run, lengths]
    rfl
  · rw [answered, grew.listed]
  · exact each.grew.listed
  · intro other differ
    rw [answered]
    exact ⟨grew.others other differ, each.grew.others other differ⟩
  · intro new
    rw [answered, blobs_eq]
    exact read?_of_readable (readable new) (by simp) grew.keys_eq
  · intro new
    rw [each.blobs_eq]
    exact read?_of_readable (readableEach new) (by simp [Function.comp_def]) each.grew.keys_eq
  · intro new
    rw [answered, blobs_eq]
    exact (readable new).kept
  · intro new
    rw [each.blobs_eq]
    exact (readableEach new).kept

end Comparing

/-- In memory, in a database and in a file that refuse nothing, files that are uploaded together
leave the gallery that they leave one by one, whatever images are there before and whatever times
and names are made up. The files that the batch leaves out are refused one by one. -/
theorem sameGallery_of_everyStore (clock : Clock) (names : Blob.NameSource) (parent : ParentRecord)
    (uploads : List Upload) :
    (∀ manager : Manager MemoryStore LocalBlobs, manager.store.failCommits = false →
      Storable manager names parent uploads → ∃ together apart,
        SameGallery manager (manager.redrawn clock names) parent.id uploads together apart) ∧
    (∀ manager : Manager (Fallible Database) LocalBlobs,
      (∀ call tried, manager.store.refusals call tried = none) →
        Storable manager names parent uploads → ∃ together apart,
          SameGallery manager (manager.redrawn clock names) parent.id uploads together apart) ∧
    ∀ manager : Manager FileStore LocalBlobs,
      (∀ call tried, manager.store.refusals call tried = none) →
        Storable manager names parent uploads → ∃ together apart,
          SameGallery manager (manager.redrawn clock names) parent.id uploads together apart :=
  ⟨fun _ working storable => exists_sameGallery MemoryStore.steady working storable,
    fun _ working storable => exists_sameGallery Fallible.steady working storable,
    fun _ working storable => exists_sameGallery FileStore.steady working storable⟩

/-- There is one place left in the gallery of p, and all names are new. -/
def oneLeft (store : σ) (reading : Nat → Nat) : Manager σ LocalBlobs where
  store := store
  blobs := LocalBlobs.leadingOut
  options := { maxImagesPerParent := 4 }
  clock := { reading }

/-- Twice the same image. -/
def twoImages : List Upload :=
  [LocalBlobs.emptyImage, LocalBlobs.emptyImage]

theorem storable_oneLeft [GalleryTx τ] [TxView τ] [GalleryStore σ τ] [ParentStore σ]
    [StoreView σ τ] [LawfulStore σ τ] {store : σ} (holds : HoldsUneven store) :
    Storable (oneLeft store fun _ => 0) LocalBlobs.leadingOut.names ⟨"p", "t", ""⟩ twoImages := by
  have length : (GalleryStore.listImages store "p").length = 3 := by
    rw [LawfulStore.listImages_eq, (arrange_perm _).length_eq, holds.images_eq]
    rfl
  have admitted_eq : admitted (oneLeft store fun _ => 0).options
      (GalleryStore.listImages store "p") twoImages = [LocalBlobs.emptyImage] := by
    rw [admitted, length]
    rfl
  obtain ⟨saved, after, succeeded⟩ := LocalBlobs.exists_save_leadingOut
  constructor
  · change (ParentStore.registry store).find? "p" = _
    rw [holds.registry_eq]
    rfl
  · exact List.cons_ne_nil _ _
  · change 2 ≤ ({ maxImagesPerParent := 4 } : GalleryOptions).maxFilesPerRequest
    decide
  · change (GalleryStore.listImages store "p").length < 4
    rw [length]
    decide
  · change nextPosition (GalleryStore.listImages store "p") + 2 < _
    rw [LawfulStore.listImages_eq, nextPosition_eq_of_perm (arrange_perm _), holds.images_eq]
    decide
  · change ∀ upload ∈ admitted _ (GalleryStore.listImages store "p") _, _
    rw [admitted_eq, List.forall_mem_singleton]
    decide +kernel
  · change ∃ saved blobs, Saves _ _ (admitted _ (GalleryStore.listImages store "p") _) _ saved blobs
    rw [admitted_eq]
    exact ⟨[saved], after, Saves.cons succeeded .nil⟩
  · change ∃ saved blobs, SavesAt _ ((admitted _ (GalleryStore.listImages store "p") _).map _) _
      saved blobs
    rw [admitted_eq]
    exact ⟨[saved], after, .cons succeeded .nil⟩

/-- Of two files for one place the second is left out, or refused if it comes alone. -/
theorem sameGallery_oneLeft :
    LocalBlobs.leadingOut.NewNames ∧
    (∃ together apart, SameGallery (oneLeft MemoryStore.uneven fun _ => 0)
      (oneLeft MemoryStore.uneven id) "p" twoImages together apart) ∧
    (∃ together apart, SameGallery (oneLeft ({ inner := .uneven } : Fallible Database) fun _ => 0)
      (oneLeft { inner := .uneven } id) "p" twoImages together apart) ∧
    ∃ store : FileStore, store.database = { inner := .uneven } ∧ ∃ together apart,
      SameGallery (oneLeft store fun _ => 0) (oneLeft store id) "p" twoImages together apart := by
  obtain ⟨store, database, works⟩ := exists_file .uneven
  refine ⟨LocalBlobs.newNames_leadingOut, ?_, ?_, store, database, ?_⟩
  · exact (sameGallery_of_everyStore { reading := id } LocalBlobs.leadingOut.names ⟨"p", "t", ""⟩
      twoImages).1 _ rfl (storable_oneLeft MemoryStore.holdsUneven)
  · exact (sameGallery_of_everyStore { reading := id } LocalBlobs.leadingOut.names ⟨"p", "t", ""⟩
      twoImages).2.1 _ (fun _ _ => rfl) (storable_oneLeft Fallible.holdsUneven)
  · exact (sameGallery_of_everyStore { reading := id } LocalBlobs.leadingOut.names ⟨"p", "t", ""⟩
      twoImages).2.2 _ works (storable_oneLeft (FileStore.holdsUneven database))

end Manager

end ImageGallery
