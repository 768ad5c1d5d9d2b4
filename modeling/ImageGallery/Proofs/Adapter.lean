import ImageGallery.Http.Service
import ImageGallery.Proofs.CountedRequests
import ImageGallery.Proofs.JsonRecords

/-!
# The service adds nothing to the manager

A request that a gallery's route matches and that can be read asks for one call of the manager. The
service carries out this call and no other, and answers with what the call answered: with the value
as JSON, or with the status and the code of the error. Any other request leaves the manager alone.
Requests are counted on the way, and the counters of requests are all that the service changes by
itself.

A call that fails leaves the store as it was. So a response that reports no success is a promise
that nothing was changed.
-/

namespace ImageGallery.Http

open Json (Value)
open Manager (ButForRequests)

/-! ## What a request asks for -/

/-- A request asks for a call: a route matches its path and its method, the ids in the path are
texts, and the body can be read. -/
inductive Asks (maxBodyBytes : Nat) (request : Request) : Call → Prop where
  | list {segment parent : String} (route : Route.ofPath? request.path = some (.gallery segment))
      (method : request.method = .get ∨ request.method = .head)
      (decoded : Text.PercentEncoding.decode? segment = some parent) :
      Asks maxBodyBytes request (.list parent)
  | upload {segment parent boundary : String} {files : List Upload}
      (route : Route.ofPath? request.path = some (.gallery segment))
      (method : request.method = .post)
      (decoded : Text.PercentEncoding.decode? segment = some parent)
      (form : request.contentType?.bind ContentType.formBoundary? = some boundary)
      (read : request.files maxBodyBytes boundary = .ok files) :
      Asks maxBodyBytes request (.upload parent files)
  | reorder {segment parent : String} {items : List ReorderItem}
      (route : Route.ofPath? request.path = some (.order segment)) (method : request.method = .put)
      (decoded : Text.PercentEncoding.decode? segment = some parent)
      (read : request.items maxBodyBytes = .ok items) :
      Asks maxBodyBytes request (.reorder parent items)
  | delete {segment parent written raw : String} {id : Int}
      (route : Route.ofPath? request.path = some (.image segment written))
      (method : request.method = .delete)
      (decoded : Text.PercentEncoding.decode? segment = some parent)
      (image : Text.PercentEncoding.decode? written = some raw)
      (number : Text.readSigned64? raw.toList = some id) :
      Asks maxBodyBytes request (.delete parent id)
  | setCover {segment parent written raw : String} {id : Int}
      (route : Route.ofPath? request.path = some (.cover segment written))
      (method : request.method = .put)
      (decoded : Text.PercentEncoding.decode? segment = some parent)
      (image : Text.PercentEncoding.decode? written = some raw)
      (number : Text.readSigned64? raw.toList = some id) :
      Asks maxBodyBytes request (.setCover parent id)

/-! ## What a client reads -/

/-- The images in an answer. -/
def imagesOf? (value : Value) : Option (List ImageRecord) :=
  value.listMember? "images" ImageRecord.ofJson?

/-- The outcome of a deletion in an answer. -/
def outcomeOf? (value : Value) : Option DeleteOutcome := do
  return {
    deletedId := ← value.integerMember? "deleted_id"
    newCoverId := ←
      match value.member? "new_cover_id" with
      | some .null => some none
      | _ => (value.integerMember? "new_cover_id").map some
    blobRemoved := ← value.flagMember? "blob_removed" }

/-- The number of images in an answer. -/
def countOf? (value : Value) : Option Nat :=
  (value.integerMember? "count").map Int.toNat

/-- The code of an error in an answer. -/
def codeOf? (value : Value) : Option String :=
  (value.member? "error").bind fun error => error.textMember? "code"

/-- The answer of a call as its client reads it. -/
def readAnswer? (call : Call) (value : Value) : Option Answer :=
  match call with
  | .register .. => none
  | .upload .. => (imagesOf? value).map .stored
  | .delete .. => (outcomeOf? value).map .deleted
  | .setCover .. => (ImageRecord.ofJson? value).map .covered
  | .reorder .. => (countOf? value).map .ranked
  | .list _ => (imagesOf? value).map .listed

/-- The numbers in an answer have at most 64 bits. -/
def Fits : Answer → Prop
  | .registered _ => True
  | .stored images | .listed images => ∀ image ∈ images, image.id.natAbs < Json.Numeral.room
  | .deleted outcome =>
    outcome.deletedId.natAbs < Json.Numeral.room ∧
      ∀ id ∈ outcome.newCoverId, id.natAbs < Json.Numeral.room
  | .covered image => image.id.natAbs < Json.Numeral.room
  | .ranked count => count < Json.Numeral.room

/-- The text that is sent as the body of a response. -/
def Response.body (response : Response) : String :=
  if response.headersOnly then ""
  else
    match response.content with
    | .nothing => ""
    | .json value => value.compact
    | .text _ contents => contents

/-- The value that a call's answer is written as. -/
def answerValue : Answer → Value
  | .registered _ => .null
  | .stored images | .listed images => imagesValue images
  | .deleted outcome => outcomeValue outcome
  | .covered image => image.toJson
  | .ranked count => countValue count

/-- The status of a call that succeeds. -/
def successStatus : Call → Nat
  | .upload .. => 201
  | _ => 200

theorem imagesOf?_imagesValue (images : List ImageRecord) :
    imagesOf? (imagesValue images) = some images :=
  Value.listMember?_of_map rfl ImageRecord.ofJson?_toJson

theorem outcomeOf?_outcomeValue (outcome : DeleteOutcome) :
    outcomeOf? (outcomeValue outcome) = some outcome := by
  have deleted : (outcomeValue outcome).integerMember? "deleted_id" = some outcome.deletedId :=
    Value.integerMember?_of_ofInt rfl
  have removed : (outcomeValue outcome).flagMember? "blob_removed" = some outcome.blobRemoved :=
    rfl
  rcases outcome with ⟨id, _ | cover, flag⟩
  · have member : (outcomeValue ⟨id, none, flag⟩).member? "new_cover_id" = some .null := rfl
    simp [outcomeOf?, deleted, removed, member]
  · have promoted : (outcomeValue ⟨id, some cover, flag⟩).integerMember? "new_cover_id" =
        some cover := Value.integerMember?_of_ofInt rfl
    have member : (outcomeValue ⟨id, some cover, flag⟩).member? "new_cover_id" =
        some (.ofInt cover) := rfl
    simp [outcomeOf?, deleted, removed, promoted, member, Value.ofInt]

theorem countOf?_countValue (count : Nat) : countOf? (countValue count) = some count := by
  have number : (countValue count).integerMember? "count" = some (count : Int) :=
    Value.integerMember?_of_ofNat rfl
  simp [countOf?, number]

theorem codeOf?_errorValue (error : GalleryError) (requestId : String) :
    codeOf? (errorValue error requestId) = some error.code :=
  rfl

theorem printable_imagesValue {images : List ImageRecord}
    (small : ∀ image ∈ images, image.id.natAbs < Json.Numeral.room) :
    (imagesValue images).Printable Json.depthLimit := by
  refine .cons (.list fun value mem => ?_) .nil
  obtain ⟨image, stored, rfl⟩ := List.mem_map.mp mem
  exact ImageRecord.printable_toJson (small image stored)

/-- What is written for an answer that fits is read back from its text. -/
theorem printable_answerValue {answer : Answer} (fits : Fits answer) :
    (answerValue answer).Printable Json.depthLimit := by
  cases answer with
  | registered record => exact .null _
  | stored records => exact printable_imagesValue fits
  | listed records => exact printable_imagesValue fits
  | deleted outcome =>
      refine .cons (Value.printable_ofInt fits.1) (.cons ?_ (.cons (.boolean _ _) .nil))
      cases promoted : outcome.newCoverId with
      | none => exact .null _
      | some id => exact Value.printable_ofInt (fits.2 id (promoted ▸ rfl))
  | covered image => exact ImageRecord.printable_toJson fits
  | ranked count => exact .cons (Value.printable_ofNat fits) .nil

theorem printable_errorValue (error : GalleryError) (requestId : String) :
    (errorValue error requestId).Printable Json.depthLimit :=
  .cons (.cons (.text _ _) (.cons (.text _ _) (.cons (.text _ _) .nil))) .nil

/-! ## Requests that ask for a call, and requests that do not -/


theorem respond_map {α : Type} (requestId : String) (status : Nat) {value : α → Value}
    (wrap : α → Answer) (same : ∀ result, value result = answerValue (wrap result))
    (result : Except GalleryError α) :
    respond requestId status value result =
      respond requestId status answerValue (result.map wrap) := by
  cases result with
  | error error => rfl
  | ok result =>
      rw [respond, same]
      rfl

theorem decodeAll_one {name segment id : String}
    (decoded : Text.PercentEncoding.decode? segment = some id) :
    decodeAll [(name, segment)] = .ok [id] := by
  simp [decodeAll, decoded, Except.map]

theorem decodeAll_two {first second segment written parent id : String}
    (decoded : Text.PercentEncoding.decode? segment = some parent)
    (image : Text.PercentEncoding.decode? written = some id) :
    decodeAll [(first, segment), (second, written)] = .ok [parent, id] := by
  simp [decodeAll, decoded, image, Except.map]

theorem exists_of_decodeAll_one {name segment : String} {ids : List String}
    (decoded : decodeAll [(name, segment)] = .ok ids) :
    ∃ id, Text.PercentEncoding.decode? segment = some id ∧ ids = [id] := by
  cases found : Text.PercentEncoding.decode? segment with
  | none => simp [decodeAll, found] at decoded
  | some id => exact ⟨id, rfl, (Except.ok.inj ((decodeAll_one found).symm.trans decoded)).symm⟩

theorem exists_of_decodeAll_two {first second segment written : String} {ids : List String}
    (decoded : decodeAll [(first, segment), (second, written)] = .ok ids) :
    ∃ parent raw, Text.PercentEncoding.decode? segment = some parent ∧
      Text.PercentEncoding.decode? written = some raw ∧ ids = [parent, raw] := by
  cases found : Text.PercentEncoding.decode? segment with
  | none => simp [decodeAll, found] at decoded
  | some parent =>
      cases image : Text.PercentEncoding.decode? written with
      | none => simp [decodeAll, found, image, Except.map] at decoded
      | some raw =>
          exact ⟨parent, raw, rfl, rfl,
            (Except.ok.inj ((decodeAll_two found image).symm.trans decoded)).symm⟩

namespace Service

variable {σ τ β : Type} [GalleryTx τ] [GalleryStore σ τ] [ParentStore σ] [BlobStore β]

omit [GalleryTx τ] [GalleryStore σ τ] [ParentStore σ] [BlobStore β] in
theorem route?_eq {service : Service σ β} {request : Request} {route : Route}
    (found : Route.ofPath? request.path = some route) (other : route ≠ .metrics) :
    service.route? request = some route := by
  simp [route?, found, other]

/-- The response to a request that asks for a call, and the manager after it. -/
theorem dispatch_of_asks {service : Service σ β} {request : Request} {call : Call}
    (requestId : String) (asked : Asks service.maxBodyBytes request call) :
    service.dispatch requestId request =
      (respond requestId (successStatus call) answerValue (service.manager.perform call).1,
        (service.manager.perform call).2) := by
  cases asked with
  | list route method decoded =>
      have notPost : request.method ≠ .post := by
        rcases method with got | head
        · simp [got]
        · simp [head]
      have allowed : ∀ segment, request.method ∈ Route.methods (.gallery segment) := by
        rcases method with got | head
        · simp [got, Route.methods]
        · simp [head, Route.methods]
      simp only [dispatch, route?_eq route (by simp), allowed, if_true, Route.parameters,
        decodeAll_one decoded, perform, notPost, if_false, answer, Manager.perform,
        Manager.answerAs]
      exact congrArg (·, service.manager) (respond_map _ _ Answer.listed (fun _ => rfl) _)
  | upload route method decoded form read =>
      simp only [dispatch, route?_eq route (by simp), Route.methods, method, Route.parameters,
        decodeAll_one decoded, perform, acceptUpload, form, read, answer,
        Manager.perform, Manager.answerAs]
      simp only [List.mem_cons, true_or, or_true, if_true]
      exact congrArg (·, _) (respond_map _ _ Answer.stored (fun _ => rfl) _)
  | reorder route method decoded read =>
      simp only [dispatch, route?_eq route (by simp), Route.methods, method, Route.parameters,
        decodeAll_one decoded, perform, read, answer, Manager.perform, Manager.answerAs]
      simp only [List.mem_cons, true_or, if_true]
      exact congrArg (·, _) (respond_map _ _ Answer.ranked (fun _ => rfl) _)
  | delete route method decoded image number =>
      simp only [dispatch, route?_eq route (by simp), Route.methods, method, Route.parameters,
        decodeAll_two decoded image, perform, withImage, imageId, number, answer,
        Manager.perform, Manager.answerAs]
      simp only [List.mem_cons, true_or, if_true]
      exact congrArg (·, _) (respond_map _ _ Answer.deleted (fun _ => rfl) _)
  | setCover route method decoded image number =>
      simp only [dispatch, route?_eq route (by simp), Route.methods, method, Route.parameters,
        decodeAll_two decoded image, perform, withImage, imageId, number, answer,
        Manager.perform, Manager.answerAs]
      simp only [List.mem_cons, true_or, if_true]
      exact congrArg (·, _) (respond_map _ _ Answer.covered (fun _ => rfl) _)

omit [GalleryTx τ] [GalleryStore σ τ] [ParentStore σ] [BlobStore β] in
theorem ofPath?_of_route? {service : Service σ β} {request : Request} {route : Route}
    (found : service.route? request = some route) : Route.ofPath? request.path = some route :=
  (Option.filter_eq_some_iff.mp found).1

/-- A request that asks for no call leaves the manager alone. -/
theorem dispatch_of_not_asks {service : Service σ β} {request : Request} (requestId : String)
    (unasked : ¬∃ call, Asks service.maxBodyBytes request call) :
    (service.dispatch requestId request).2 = service.manager := by
  unfold dispatch
  split
  · rfl
  · rename_i route found
    have path := ofPath?_of_route? found
    split
    · rename_i allowed
      split
      · rfl
      · rename_i ids decodedAll
        cases route with
        | health | description | metrics => rfl
        | gallery segment =>
            obtain ⟨parent, decoded, rfl⟩ := exists_of_decodeAll_one decodedAll
            by_cases post : request.method = .post
            · simp only [perform, post, if_true, acceptUpload]
              split
              · rfl
              · rename_i boundary form
                cases read : request.files service.maxBodyBytes boundary with
                | error error => rfl
                | ok files => exact absurd ⟨_, .upload path post decoded form read⟩ unasked
            · have listing : request.method = .get ∨ request.method = .head := by
                simpa [Route.methods, post] using allowed
              exact absurd ⟨_, .list path listing decoded⟩ unasked
        | order segment =>
            obtain ⟨parent, decoded, rfl⟩ := exists_of_decodeAll_one decodedAll
            have put : request.method = .put := by simpa [Route.methods] using allowed
            cases read : request.items service.maxBodyBytes with
            | error error => simp only [perform, read, answer]
            | ok items => exact absurd ⟨_, .reorder path put decoded read⟩ unasked
        | image segment written =>
            obtain ⟨parent, raw, decoded, image, rfl⟩ := exists_of_decodeAll_two decodedAll
            have deleting : request.method = .delete := by simpa [Route.methods] using allowed
            cases number : Text.readSigned64? raw.toList with
            | none => simp only [perform, withImage, imageId, number, answer]
            | some id => exact absurd ⟨_, .delete path deleting decoded image number⟩ unasked
        | cover segment written =>
            obtain ⟨parent, raw, decoded, image, rfl⟩ := exists_of_decodeAll_two decodedAll
            have put : request.method = .put := by simpa [Route.methods] using allowed
            cases number : Text.readSigned64? raw.toList with
            | none => simp only [perform, withImage, imageId, number, answer]
            | some id => exact absurd ⟨_, .setCover path put decoded image number⟩ unasked
    · rfl

omit [GalleryTx τ] [GalleryStore σ τ] [ParentStore σ] [BlobStore β] in
/-- Counting a request raises counters of requests. -/
theorem count_butForRequests (service : Service σ β) (request : Request) (status : Nat) :
    ButForRequests (service.count request status) service.manager := by
  unfold count
  split
  · exact (ButForRequests.tally_request _ _ rfl).trans (ButForRequests.tally_request _ _ rfl)
  · exact .refl _

/-! ## Responses -/

/-- The response to a request that asks for a call, and the state after it. -/
structure Performs (service : Service σ β) (request : Request) (call : Call) : Prop where
  /-- The call is carried out, and nothing else. -/
  state : ButForRequests (service.handle request).2.manager (service.manager.perform call).2
  ok : ∀ answer, (service.manager.perform call).1 = .ok answer →
    (service.handle request).1.status = successStatus call ∧
      ∃ value, (service.handle request).1.content = .json value ∧
        readAnswer? call value = some answer ∧
        (Fits answer → request.method ≠ .head →
          Json.parse (service.handle request).1.body.toList = .ok value)
  error : ∀ error, (service.manager.perform call).1 = .error error →
    (service.handle request).1.status = error.status ∧
      ∃ value, (service.handle request).1.content = .json value ∧
        codeOf? value = some error.code ∧
        (request.method ≠ .head →
          Json.parse (service.handle request).1.body.toList = .ok value)

/-- A service answers a request in the manager's name. -/
structure Faithful (service : Service σ β) (request : Request) : Prop where
  /-- Without success nothing is changed. -/
  unchanged : (service.handle request).1.status ≠ 200 → (service.handle request).1.status ≠ 201 →
    (service.handle request).2.manager.store = service.manager.store
  performed : ∀ call, Asks service.maxBodyBytes request call → service.Performs request call
  idle : (¬∃ call, Asks service.maxBodyBytes request call) →
    ButForRequests (service.handle request).2.manager service.manager
  headless : request.method = .head → (service.handle request).1.body = ""

theorem handle_manager (service : Service σ β) (request : Request) :
    ButForRequests (service.handle request).2.manager
      (service.dispatch service.nextId request).2 := by
  unfold handle
  dsimp only
  rcases service.dispatch service.nextId request with ⟨response, manager⟩
  exact count_butForRequests _ request _

@[simp]
theorem maxBodyBytes_handle (service : Service σ β) (request : Request) :
    (service.handle request).2.maxBodyBytes = service.maxBodyBytes := by
  unfold handle
  dsimp only

@[simp]
theorem headersOnly_handle (service : Service σ β) (request : Request) :
    (service.handle request).1.headersOnly = decide (request.method = .head) := by
  unfold handle
  dsimp only

/-- An answer to a call is read back by its client. -/
theorem readAnswer?_answerValue {manager after : Manager σ β} {call : Call} {answer : Answer}
    (performed : manager.perform call = (.ok answer, after))
    (asked : ¬∃ parent scope, call = .register parent scope) :
    readAnswer? call (answerValue answer) = some answer := by
  cases call with
  | register parent scope => exact absurd ⟨parent, scope, rfl⟩ asked
  | upload parent uploads =>
      obtain ⟨records, -, rfl⟩ := Manager.answerAs_eq_ok performed
      simp [readAnswer?, answerValue, imagesOf?_imagesValue]
  | delete parent id =>
      obtain ⟨outcome, -, rfl⟩ := Manager.answerAs_eq_ok performed
      simp [readAnswer?, answerValue, outcomeOf?_outcomeValue]
  | setCover parent id =>
      obtain ⟨image, -, rfl⟩ := Manager.answerAs_eq_ok performed
      simp [readAnswer?, answerValue, ImageRecord.ofJson?_toJson]
  | reorder parent items =>
      obtain ⟨count, -, rfl⟩ := Manager.answerAs_eq_ok performed
      simp [readAnswer?, answerValue, countOf?_countValue]
  | list parent =>
      obtain ⟨images, -, rfl⟩ := Manager.answerAs_eq_ok performed
      simp [readAnswer?, answerValue, imagesOf?_imagesValue]

/-- The body of a response with JSON is read back, but for a `HEAD` request. -/
theorem parse_body {service : Service σ β} {request : Request} {value : Value}
    (content : (service.handle request).1.content = .json value)
    (printable : value.Printable Json.depthLimit) (sent : request.method ≠ .head) :
    Json.parse (service.handle request).1.body.toList = .ok value := by
  rw [Response.body, headersOnly_handle, decide_eq_false sent, content]
  exact Json.parse_compact printable

theorem performs_of_asks {service : Service σ β} {request : Request} {call : Call}
    (asked : Asks service.maxBodyBytes request call) : service.Performs request call := by
  have dispatched := dispatch_of_asks service.nextId asked
  have status : (service.handle request).1.status =
      (respond service.nextId (successStatus call) answerValue
        (service.manager.perform call).1).status := by
    simp [handle, dispatched]
  have content : (service.handle request).1.content =
      (respond service.nextId (successStatus call) answerValue
        (service.manager.perform call).1).content := by
    simp [handle, dispatched]
  constructor
  · have state := handle_manager service request
    rw [dispatched] at state
    exact state
  · intro answer answered
    rw [answered] at status content
    have performed : service.manager.perform call =
        (.ok answer, (service.manager.perform call).2) := Prod.ext answered rfl
    have gallery : ¬∃ parent scope, call = .register parent scope := by
      rintro ⟨parent, scope, rfl⟩
      cases asked
    exact ⟨status, answerValue answer, content, readAnswer?_answerValue performed gallery,
      fun fits sent => parse_body content (printable_answerValue fits) sent⟩
  · intro error failed
    rw [failed] at status content
    exact ⟨status, errorValue error service.nextId, content, codeOf?_errorValue _ _,
      fun sent => parse_body content (printable_errorValue _ _) sent⟩

theorem faithful [TxView τ] [LawfulTx τ] [StoreView σ τ] [LawfulStore σ τ]
    (service : Service σ β) (request : Request) : service.Faithful request := by
  have idle : (¬∃ call, Asks service.maxBodyBytes request call) →
      ButForRequests (service.handle request).2.manager service.manager := by
    intro unasked
    have state := handle_manager service request
    rw [dispatch_of_not_asks _ unasked] at state
    exact state
  constructor
  · intro notOk notCreated
    by_cases asking : ∃ call, Asks service.maxBodyBytes request call
    · obtain ⟨call, asked⟩ := asking
      have performs := performs_of_asks asked
      rw [performs.state.store_eq]
      cases outcome : (service.manager.perform call).1 with
      | error error => exact (Manager.store_of_perform_eq_error (Prod.ext outcome rfl)).1
      | ok answer =>
          have status := (performs.ok answer outcome).1
          cases asked with
          | upload => exact absurd status notCreated
          | list | reorder | delete | setCover => exact absurd status notOk
    · exact (idle asking).store_eq
  · exact fun call asked => performs_of_asks asked
  · exact idle
  · intro head
    rw [Response.body, headersOnly_handle, decide_eq_true head]
    rfl

/-! ## Runs -/

/-- The service after some requests. -/
def serve (service : Service σ β) (requests : List Request) : Service σ β :=
  requests.foldl (fun service request => (service.handle request).2) service

/-- The calls that requests ask for, in the order of the requests. -/
inductive AskAll (maxBodyBytes : Nat) : List Request → List Call → Prop where
  | nil : AskAll maxBodyBytes [] []
  | ask {request : Request} {call : Call} {requests : List Request} {calls : List Call}
      (asked : Asks maxBodyBytes request call) (others : AskAll maxBodyBytes requests calls) :
      AskAll maxBodyBytes (request :: requests) (call :: calls)
  | skip {request : Request} {requests : List Request} {calls : List Call}
      (unasked : ¬∃ call, Asks maxBodyBytes request call)
      (others : AskAll maxBodyBytes requests calls) :
      AskAll maxBodyBytes (request :: requests) calls

omit [GalleryTx τ] [GalleryStore σ τ] [ParentStore σ] [BlobStore β] in
theorem exists_askAll (maxBodyBytes : Nat) (requests : List Request) :
    ∃ calls, AskAll maxBodyBytes requests calls := by
  induction requests with
  | nil => exact ⟨[], .nil⟩
  | cons request requests ih =>
      obtain ⟨calls, others⟩ := ih
      by_cases asking : ∃ call, Asks maxBodyBytes request call
      · obtain ⟨call, asked⟩ := asking
        exact ⟨call :: calls, .ask asked others⟩
      · exact ⟨calls, .skip asking others⟩

/-- A run of requests does to the manager what the run of the calls does that they ask for. -/
theorem serve_butForRequests {service : Service σ β} {manager : Manager σ β}
    (same : ButForRequests service.manager manager) {requests : List Request} {calls : List Call}
    (asked : AskAll service.maxBodyBytes requests calls) :
    ButForRequests (service.serve requests).manager
      (calls.foldl (fun manager call => (manager.perform call).2) manager) := by
  induction requests generalizing service manager calls with
  | nil =>
      cases asked
      exact same
  | cons request requests ih =>
      rw [serve, List.foldl_cons]
      cases asked with
      | ask asked others =>
          have step := (performs_of_asks asked).state
          rw [← maxBodyBytes_handle service request] at others
          exact ih (step.trans (same.perform _)) others
      | skip unasked others =>
          have step := handle_manager service request
          rw [dispatch_of_not_asks _ unasked] at step
          rw [← maxBodyBytes_handle service request] at others
          exact ih (step.trans same) others

/-- Each of some requests is answered in the manager's name, and together they do what the calls do
that they ask for. -/
structure FaithfulRun (service : Service σ β) (requests : List Request) : Prop where
  each : ∀ earlier request later, requests = earlier ++ request :: later →
    (service.serve earlier).Faithful request
  whole : ∃ calls, AskAll service.maxBodyBytes requests calls ∧
    ButForRequests (service.serve requests).manager
      (calls.foldl (fun manager call => (manager.perform call).2) service.manager)

theorem faithfulRun [TxView τ] [LawfulTx τ] [StoreView σ τ] [LawfulStore σ τ]
    (service : Service σ β) (requests : List Request) : service.FaithfulRun requests where
  each earlier request _ _ := faithful (service.serve earlier) request
  whole := by
    obtain ⟨calls, asked⟩ := exists_askAll service.maxBodyBytes requests
    exact ⟨calls, asked, serve_butForRequests (.refl _) asked⟩

end Service

end ImageGallery.Http
