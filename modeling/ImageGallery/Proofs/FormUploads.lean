import ImageGallery.Proofs.Adapter
import ImageGallery.Proofs.Durability
import ImageGallery.Proofs.FormText
import ImageGallery.Proofs.LocalFiles
import ImageGallery.Proofs.Paths

/-!
# A form is an upload

A form that is posted to a parent's gallery does what an upload of its files does: the same files
with the same names, types and bytes, in the order of the form. It does not matter that these are
spooled first and then read from temporary files, as a blob store sees of a file only its name, its
format and the chunks that it delivers. Parts without the name of a file are passed over.
-/

namespace ImageGallery

/-! ## Files that are seen alike -/

namespace Upload

/-- Reads depend on nothing but what lies ahead, wherever it is kept. -/
theorem deliver_congr {first second : UploadContent} (same : first.ahead = second.ahead)
    (size reads : Nat) (behind : List Bytes) (breaksAfter : Option Nat) :
    deliver size reads behind first breaksAfter = deliver size reads behind second breaksAfter := by
  induction reads generalizing first second behind breaksAfter with
  | zero => rfl
  | succ reads ih =>
      by_cases going : breaksAfter = some 0
      · rw [going, deliver, deliver]
      · have left : (first.readChunk size).2.ahead = (second.readChunk size).2.ahead := by
          rw [first.ahead_readChunk, second.ahead_readChunk, same]
        rw [deliver_going going, deliver_going going, same, ih left]

/-- Uploads of the same name and the same format that deliver the same. -/
structure SeenAs (first second : Upload) : Prop where
  filename_eq : first.filename = second.filename
  media?_eq : first.media? = second.media?
  delivery_eq : ∀ size, first.delivery size = second.delivery size

theorem SeenAs.media_eq {first second : Upload} (seen : SeenAs first second) :
    first.media = second.media := by
  rw [media, media, seen.media?_eq, seen.filename_eq]

/-- A spooled file is seen as one that is held in memory. -/
theorem seenAs_ofSpooled {filename : String} {first second : Option String}
    (same : MediaType.detect? filename first = MediaType.detect? filename second)
    (spooled : SpooledContent) :
    SeenAs (ofSpooled filename first spooled) (ofHeld filename second spooled.content) where
  filename_eq := rfl
  media?_eq := same
  delivery_eq size := by
    have same : (ofSpooled filename first spooled).content.ahead =
        (ofHeld filename second spooled.content).content.ahead := rfl
    exact deliver_congr same size _ [] none

end Upload

/-- Blob stores for which files that are seen alike are the same. -/
class SeesFiles (β : Type) [BlobStore β] : Prop where
  save_congr (blobs : β) (scope parent : String) (index : Nat) {first second : Upload}
    (seen : first.SeenAs second) :
    BlobStore.save blobs scope parent index first = BlobStore.save blobs scope parent index second

instance : SeesFiles LocalBlobs where
  save_congr blobs scope parent index first second seen := by
    have written (media : MediaType) : blobs.write scope parent index first media =
        blobs.write scope parent index second media := by
      unfold LocalBlobs.write LocalBlobs.spool
      rw [seen.delivery_eq, seen.filename_eq]
    change blobs.save scope parent index first = blobs.save scope parent index second
    unfold LocalBlobs.save
    rw [seen.media_eq]
    simp only [written]

instance {β : Type} [BlobStore β] [SeesFiles β] : SeesFiles (Faulty β) where
  save_congr blobs scope parent index first second seen := by
    change blobs.save scope parent index first = blobs.save scope parent index second
    unfold Faulty.save
    rw [SeesFiles.save_congr blobs.inner scope parent index seen]

/-! ## Uploads of files that are seen alike -/

namespace Manager

variable {σ τ β : Type} [BlobStore β] {uploads others : List Upload}

theorem checkMedia_congr (seen : List.Forall₂ Upload.SeenAs uploads others) :
    checkMedia uploads = checkMedia others := by
  induction seen with
  | nil => rfl
  | cons first _ ih => rw [checkMedia, checkMedia, first.media_eq, ih]

theorem writeBatch_congr [GalleryTx τ] [SeesFiles β]
    (seen : List.Forall₂ Upload.SeenAs uploads others) (options : GalleryOptions)
    (parent : ParentRecord) (order : UInt32) (index : Nat) (cover : Bool) (batch : Batch τ β) :
    writeBatch options parent order index cover uploads batch =
      writeBatch options parent order index cover others batch := by
  induction seen generalizing index cover batch with
  | nil => rfl
  | cons first _ ih =>
      unfold writeBatch
      rw [SeesFiles.save_congr batch.blobs parent.scopeId parent.id index first]
      simp only [ih]

variable [GalleryTx τ] [GalleryStore σ τ] [ParentStore σ] [SeesFiles β]

omit [ParentStore σ] in
theorem append_congr (seen : List.Forall₂ Upload.SeenAs uploads others) (manager : Manager σ β)
    (parent : ParentRecord) (tx : τ) :
    manager.append parent tx uploads = manager.append parent tx others := by
  unfold append
  rw [checkMedia_congr seen]
  simp only [writeBatch_congr seen]

/-- An upload of files that are seen alike has the same outcome. -/
theorem upload_congr (seen : List.Forall₂ Upload.SeenAs uploads others) (manager : Manager σ β)
    (parent : String) : manager.upload parent uploads = manager.upload parent others := by
  have empty : uploads.isEmpty = others.isEmpty := by
    cases seen <;> rfl
  have received : manager.receive parent uploads = manager.receive parent others := by
    unfold receive
    simp only [empty, seen.length_eq, append_congr seen, append_congr (List.forall₂_take _ seen)]
  rw [upload, upload, received]

end Manager

/-! ## Formats -/

theorem Text.trimBlank_append_blank {chars : List Char} {last : Char} (blank : isBlank last) :
    trimBlank (chars ++ [last]) = trimBlank chars := by
  unfold trimBlank
  rw [List.dropWhile_append]
  split
  · rename_i empty
    rw [List.isEmpty_iff] at empty
    rw [empty, List.dropWhile_cons_of_pos blank]
    rfl
  · rw [List.reverse_append, List.reverse_singleton, List.singleton_append,
      List.dropWhile_cons_of_pos blank]

/-- A blank at the end of a declared type does not matter. -/
theorem MediaType.ofContentType?_append_blank (chars : List Char) :
    ofContentType? (String.ofList (chars ++ [' '])) = ofContentType? (String.ofList chars) := by
  have same : Text.trimBlank (Text.beforeFirst ';' (chars ++ [' '])) =
      Text.trimBlank (Text.beforeFirst ';' chars) := by
    unfold Text.beforeFirst
    rw [List.takeWhile_append]
    split
    · rename_i uncut
      rw [List.takeWhile_cons_of_pos (by decide), List.takeWhile_nil,
        Text.trimBlank_append_blank (by decide),
        (List.takeWhile_prefix _).eq_of_length uncut]
    · rfl
  unfold ofContentType?
  rw [String.toList_ofList, String.toList_ofList, same]

theorem MediaType.ofContentType?_trimmed (declared : String) :
    ofContentType? (Http.ContentType.trimmed declared) = ofContentType? declared :=
  Http.ContentType.trimmed_induction (fun text => ofContentType? text = ofContentType? declared)
    (fun chars same => (ofContentType?_append_blank chars).symm.trans same) rfl

/-! ## Forms -/

namespace Http

/-- The file in a field, if the field has one. -/
def Form.Field.upload? (field : Form.Field) : Option Upload :=
  field.filename.map fun filename => .ofHeld filename field.contentType field.content

/-- The files in the fields of a form. -/
def Form.uploads (fields : List Form.Field) : List Upload :=
  fields.filterMap Form.Field.upload?

/-- The files that are read from a form are seen as those that were written. -/
theorem formFiles_seenAs (fields : List Form.Field) :
    List.Forall₂ Upload.SeenAs (formFiles (fields.map Form.Field.toRead))
      (Form.uploads fields) := by
  unfold formFiles Form.uploads
  rw [List.filterMap_map]
  induction fields with
  | nil => exact .nil
  | cons field fields ih =>
      rw [List.filterMap_cons, List.filterMap_cons]
      cases named : field.filename with
      | none => simpa [Form.Field.toRead, Form.Field.upload?, named] using ih
      | some filename =>
          have same : MediaType.detect? filename
                (field.contentType.map ContentType.trimmed) =
              MediaType.detect? filename field.contentType := by
            unfold MediaType.detect?
            cases field.contentType with
            | none => rfl
            | some declared => simp [MediaType.ofContentType?_trimmed]
          have seen := Upload.seenAs_ofSpooled same ⟨field.content, field.content⟩
          simpa [Form.Field.toRead, Form.Field.upload?, named] using ⟨seen, ih⟩

/-- A request posts a form to a parent's gallery. -/
structure Posts (request : Request) (parent boundary : String) (fields : List Form.Field) :
    Prop where
  method : request.method = .post
  target : request.target = galleryPath parent
  form : request.contentType?.bind ContentType.formBoundary? = some boundary
  body : request.body = Form.write boundary fields
  writable : ∀ field ∈ fields, field.Writable boundary

namespace Posts

variable {request : Request} {parent boundary : String} {fields : List Form.Field}

/-- The form is read as it was written. -/
theorem files_eq (posts : Posts request parent boundary fields) {maxBodyBytes : Nat}
    (small : request.body.length ≤ maxBodyBytes) :
    request.files maxBodyBytes boundary = .ok (formFiles (fields.map Form.Field.toRead)) := by
  have visible : Text.Visible boundary := by
    obtain ⟨contentType, typed, declared⟩ := Option.bind_eq_some_iff.mp posts.form
    obtain ⟨header, -, accepted⟩ := Option.bind_eq_some_iff.mp typed
    apply ContentType.visible_of_formBoundary?
    rw [accepted]
    exact declared
  rw [Request.files, if_neg (Nat.not_lt.mpr small), posts.body,
    Form.read_write visible posts.writable]

/-- The request asks for an upload. -/
theorem asks (posts : Posts request parent boundary fields) (valid : Segment.isValid parent)
    {maxBodyBytes : Nat} (small : request.body.length ≤ maxBodyBytes) :
    Asks maxBodyBytes request (.upload parent (formFiles (fields.map Form.Field.toRead))) :=
  .upload (Request.ofPath?_of_target valid posts.target) posts.method
    (Segment.decode?_of_isValid valid) posts.form (posts.files_eq small)

end Posts

namespace Service

variable {σ τ : Type} [GalleryTx τ] [GalleryStore σ τ] [ParentStore σ]

open Manager (ButForRequests)

/-- The request is answered as the upload of the files is, and does what the upload does. -/
structure Uploads {β : Type} [BlobStore β] (service : Service σ β) (request : Request)
    (parent : String) (files : List Upload) : Prop where
  response : (service.handle request).1 =
    respond service.nextId 201 imagesValue (service.manager.upload parent files).1
  manager : ButForRequests (service.handle request).2.manager
    (service.manager.upload parent files).2

/-- A form that is posted to a parent's gallery is an upload of its files. -/
theorem uploads_of_posts {β : Type} [BlobStore β] [SeesFiles β] {service : Service σ β}
    {request : Request} {parent boundary : String} {fields : List Form.Field}
    (posts : Posts request parent boundary fields) (valid : Segment.isValid parent)
    (small : request.body.length ≤ service.maxBodyBytes) :
    service.Uploads request parent (Form.uploads fields) := by
  have asked := posts.asks valid small
  have dispatched := dispatch_of_asks service.nextId asked
  have same := Manager.upload_congr (formFiles_seenAs fields) service.manager parent
  rw [Manager.perform, same, Manager.answerAs, successStatus,
    ← respond_map service.nextId 201 Answer.stored fun _ => rfl] at dispatched
  constructor
  · have sent : decide (request.method = .head) = false := by
      rw [posts.method]
      rfl
    simp only [handle, dispatched, sent]
    cases (service.manager.upload parent (Form.uploads fields)).1 <;> rfl
  · have state := handle_manager service request
    rw [dispatched] at state
    exact state

/-- Over any metadata store, in any state, a form that is posted to a parent's gallery does and
answers what an upload of its files does that are held in memory. -/
theorem uploads_of_form (service : Service σ (Faulty LocalBlobs)) {request : Request}
    {parent boundary : String} {fields : List Form.Field} (valid : Segment.isValid parent)
    (posts : Posts request parent boundary fields)
    (small : request.body.length ≤ service.maxBodyBytes) :
    service.Uploads request parent (Form.uploads fields) :=
  uploads_of_posts posts valid small

end Service

/-- A form with contents that look like the form around them: the line between two parts but for
its last character, a part without bytes, ends of lines, and a field that is named like the
attribute of a file. -/
def trickyFields : List Form.Field :=
  [ { filename := some "a.jpg", contentType := some "image/jpeg",
      content := Form.lineEnd ++ Form.dashes ++ [116, 101, 115] },
    { filename := none, contentType := none, content := Form.lineEnd, name := "filename" },
    { filename := some "b; filename=c.PNG", contentType := none, content := [] },
    { filename := some "d", contentType := some "image/webp; q=\"1\" ",
      content := Form.dashes ++ [116, 101, 115, 116] ++ Form.dashes ++ Form.lineEnd } ]

/-- The form is sent in a request. -/
def trickyRequest : Request where
  method := .post
  target := "/parents/listing-1/images"
  headers := [("Content-Type", "multipart/form-data; boundary=test")]
  body := Form.write "test" trickyFields

/-- A service without galleries that lets a request with this form just pass. -/
def trickyService : Service MemoryStore (Faulty LocalBlobs) where
  manager :=
    { store := { parents := ⟨[⟨"listing-1", "tenant", "now"⟩]⟩ }
      blobs := Manager.emptyDirectory
      options := {}
      clock := { reading := fun _ => 0 } }
  maxBodyBytes := trickyRequest.body.length
  tags := fun _ => 0

theorem writable_tricky : ∀ field ∈ trickyFields, field.Writable "test" := by
  have names : ∀ field ∈ trickyFields, Text.Visible field.name ∧
      (field.name = "files" ∨ field.name = "filename") := by decide
  have filenames : ∀ field ∈ trickyFields, ∀ filename ∈ field.filename,
      Text.Visible filename ∧ '"' ∉ filename.toList ∧ '\\' ∉ filename.toList := by decide
  have types : ∀ field ∈ trickyFields, ∀ contentType ∈ field.contentType,
      (ContentType.ofHeader? contentType).isSome := by decide +kernel
  have boundary : Text.encode "test" = [116, 101, 115, 116] := by
    rw [Text.encode_of_visible (by decide)]
    decide
  have contents : ∀ field ∈ trickyFields,
      ¬Form.lineEnd ++ Form.dashes ++ [116, 101, 115, 116] <:+: field.content := by decide
  intro field mem
  refine ⟨(names field mem).1, ?_, filenames field mem, types field mem, ?_⟩
  · rcases (names field mem).2 with plain | keyed
    · apply Form.Unkeyed.of_absent
      rw [plain, Form.filenameKey_eq, Text.encode_of_visible (by decide)]
      decide
    · rw [keyed]
      exact Form.Unkeyed.of_length_le (Nat.le_refl _)
  · rw [boundary]
    exact contents field mem

theorem posts_tricky : Posts trickyRequest "listing-1" "test" trickyFields where
  method := rfl
  target := by decide
  form := by decide +kernel
  body := rfl
  writable := writable_tricky

theorem uploads_of_form_tricky :
    Segment.isValid "listing-1" ∧ Posts trickyRequest "listing-1" "test" trickyFields ∧
      trickyRequest.body.length ≤ trickyService.maxBodyBytes ∧
      trickyService.Uploads trickyRequest "listing-1" (Form.uploads trickyFields) := by
  have valid : Segment.isValid "listing-1" := by decide
  have small : trickyRequest.body.length ≤ trickyService.maxBodyBytes := Nat.le_refl _
  exact ⟨valid, posts_tricky, small,
    Service.uploads_of_form trickyService valid posts_tricky small⟩

end Http

end ImageGallery
