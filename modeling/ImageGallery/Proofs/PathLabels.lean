import ImageGallery.Proofs.Accounting
import ImageGallery.Proofs.Paths

/-!
# Labels of routes

A route can be written as a path and is found again under it, and under no other path. So the paths
of a route differ in their ids alone. The label of such a path is the same path with names in place
of the ids, and any other path has a label of the same short list. However long a service runs,
requests are counted under no other label.
-/

namespace ImageGallery

/-! ## Fields -/

namespace Text

variable {separator : Char}

/-- No field of a text holds the separator. -/
theorem not_mem_of_mem_fields {chars field : List Char} (mem : field ∈ fields separator chars) :
    separator ∉ field := by
  induction chars generalizing field with
  | nil =>
      rw [fields_nil, List.mem_singleton] at mem
      rw [mem]
      exact List.not_mem_nil
  | cons char rest ih =>
      rw [fields] at mem
      split at mem
      · rcases List.mem_cons.mp mem with rfl | later
        · exact List.not_mem_nil
        · exact ih later
      · rename_i other
        split at mem
        · rename_i nothing
          exact absurd nothing (fields_ne_nil separator rest)
        · rename_i first others cut
          rw [cut] at ih
          rcases List.mem_cons.mp mem with rfl | later
          · rw [List.mem_cons, not_or]
            exact ⟨Ne.symm other, ih List.mem_cons_self⟩
          · exact ih (List.mem_cons_of_mem _ later)

/-- The fields of a text that is made of fields. -/
theorem fields_unfields {texts : List (List Char)} (some_texts : texts ≠ [])
    (whole : ∀ text ∈ texts, separator ∉ text) :
    fields separator (unfields separator texts) = texts := by
  induction texts with
  | nil => exact absurd rfl some_texts
  | cons text others ih =>
      rw [List.forall_mem_cons] at whole
      cases others with
      | nil => exact fields_of_not_mem whole.1
      | cons other others =>
          rw [unfields, fields_append_cons whole.1, ih (List.cons_ne_nil _ _) whole.2]

end Text

namespace Http

/-! ## The paths of routes -/

/-- A text that can stand for an id in a path. -/
structure PathId (id : String) : Prop where
  filled : id ≠ ""
  whole : '/' ∉ id.toList

namespace Route

/-- The segments of the path of a route. -/
def names : Route → List String
  | health => ["health"]
  | description => ["openapi.json"]
  | metrics => ["metrics"]
  | gallery parent => ["parents", parent, "images"]
  | order parent => ["parents", parent, "images", "order"]
  | image parent id => ["parents", parent, "images", id]
  | cover parent id => ["parents", parent, "images", id, "cover"]

/-- The path of a route. -/
def path : Route → String
  | health => "/health"
  | description => "/openapi.json"
  | metrics => "/metrics"
  | gallery parent => "/parents/" ++ parent ++ "/images"
  | order parent => "/parents/" ++ parent ++ "/images/order"
  | image parent id => "/parents/" ++ parent ++ "/images/" ++ id
  | cover parent id => "/parents/" ++ parent ++ "/images/" ++ id ++ "/cover"

/-- The ids of a route can stand in a path, and none is taken for the order of a gallery. -/
def Proper : Route → Prop
  | health | description | metrics => True
  | gallery parent | order parent => PathId parent
  | image parent id => PathId parent ∧ PathId id ∧ id ≠ "order"
  | cover parent id => PathId parent ∧ PathId id

/-- The path of a route with names in place of its ids. -/
def template : Route → String
  | gallery _ => (gallery (PathLabel.placeholder "parent")).path
  | order _ => (order (PathLabel.placeholder "parent")).path
  | image .. => (image (PathLabel.placeholder "parent") (PathLabel.placeholder "image")).path
  | cover .. => (cover (PathLabel.placeholder "parent") (PathLabel.placeholder "image")).path
  | route => route.path

variable {route : Route}

theorem toList_path (route : Route) :
    route.path.toList = '/' :: Text.unfields '/' (route.names.map String.toList) := by
  cases route <;> simp [path, names, Text.unfields]

theorem names_ne_nil (route : Route) : route.names ≠ [] := by
  cases route <;> simp [names]

theorem Proper.pathId_of_mem (proper : route.Proper) : ∀ name ∈ route.names, PathId name := by
  have parents : PathId "parents" := ⟨by decide, by decide⟩
  have images : PathId "images" := ⟨by decide, by decide⟩
  cases route with
  | health | description | metrics =>
      simp only [names, List.mem_singleton, forall_eq]
      exact ⟨by decide, by decide⟩
  | gallery parent =>
      have owner : PathId parent := proper
      simp [names, parents, images, owner]
  | order parent =>
      have owner : PathId parent := proper
      have last : PathId "order" := ⟨by decide, by decide⟩
      simp [names, parents, images, owner, last]
  | image parent id =>
      obtain ⟨owner, image, -⟩ := proper
      simp [names, parents, images, owner, image]
  | cover parent id =>
      obtain ⟨owner, image⟩ := proper
      have last : PathId "cover" := ⟨by decide, by decide⟩
      simp [names, parents, images, owner, image, last]

/-- Segments without a slash, after a slash each, are found again. -/
theorem segments_path (proper : route.Proper) : segments route.path = "" :: route.names := by
  have whole : ∀ text ∈ route.names.map String.toList, '/' ∉ text := by
    intro text mem
    obtain ⟨name, named, rfl⟩ := List.mem_map.mp mem
    exact (proper.pathId_of_mem name named).whole
  have some_names : route.names.map String.toList ≠ [] :=
    fun none => route.names_ne_nil (List.map_eq_nil_iff.mp none)
  rw [segments, toList_path, Text.fields, if_pos rfl, Text.fields_unfields some_names whole]
  simp

theorem ofSegments?_names (proper : route.Proper) : ofSegments? route.names = some route := by
  cases route with
  | health | description | metrics => rfl
  | gallery parent => simp [names, ofSegments?, PathId.filled proper]
  | order parent => simp [names, ofSegments?, PathId.filled proper]
  | image parent id =>
      obtain ⟨owner, image, other⟩ := proper
      simp [names, ofSegments?, owner.filled, image.filled, other]
  | cover parent id =>
      obtain ⟨owner, image⟩ := proper
      simp [names, ofSegments?, owner.filled, image.filled]

/-- Segments that lead to a route are its own, and proper if they hold no slash. -/
theorem names_of_ofSegments? {rest : List String} (found : ofSegments? rest = some route)
    (whole : ∀ name ∈ rest, '/' ∉ name.toList) : route.Proper ∧ rest = route.names := by
  unfold ofSegments? at found
  split at found
  case h_1 | h_2 | h_3 =>
    cases found
    exact ⟨trivial, rfl⟩
  case h_4 parent =>
    simp only [List.forall_mem_cons] at whole
    split at found
    · cases found
    · rename_i filled
      cases found
      exact ⟨⟨filled, whole.2.1⟩, rfl⟩
  case h_5 parent id =>
    simp only [List.forall_mem_cons] at whole
    split at found
    · cases found
    · rename_i filled
      rw [not_or] at filled
      have owner : PathId parent := ⟨filled.1, whole.2.1⟩
      split at found
      · rename_i order
        cases found
        exact ⟨owner, by rw [names, order]⟩
      · rename_i other
        cases found
        exact ⟨⟨owner, ⟨filled.2, whole.2.2.2.1⟩, other⟩, rfl⟩
  case h_6 parent id =>
    simp only [List.forall_mem_cons] at whole
    split at found
    · cases found
    · rename_i filled
      rw [not_or] at filled
      cases found
      exact ⟨⟨⟨filled.1, whole.2.1⟩, filled.2, whole.2.2.2.1⟩, rfl⟩
  case h_7 => cases found

/-- A path leads to a route exactly if the route can be written, and is written as this path. -/
theorem ofPath?_eq_some_iff {path : String} :
    ofPath? path = some route ↔ route.Proper ∧ path = route.path := by
  constructor
  · intro found
    unfold ofPath? at found
    split at found
    · rename_i rest cut
      have whole : ∀ name ∈ "" :: rest, '/' ∉ name.toList := by
        intro name mem
        rw [← cut] at mem
        obtain ⟨field, own, rfl⟩ := List.mem_map.mp mem
        rw [String.toList_ofList]
        exact Text.not_mem_of_mem_fields own
      obtain ⟨proper, rfl⟩ :=
        names_of_ofSegments? found fun name mem => whole name (List.mem_cons_of_mem _ mem)
      refine ⟨proper, ?_⟩
      have chars : Text.fields '/' path.toList = [] :: route.names.map String.toList := by
        have texts := congrArg (List.map String.toList) cut
        simpa [segments, Function.comp_def] using texts
      apply String.toList_inj.mp
      rw [toList_path, ← Text.unfields_fields '/' path.toList, chars]
      cases named : route.names.map String.toList with
      | nil => exact absurd (List.map_eq_nil_iff.mp named) route.names_ne_nil
      | cons first others => rfl
    · cases found
  · rintro ⟨proper, rfl⟩
    rw [ofPath?, segments_path proper]
    exact ofSegments?_names proper

end Route

/-! ## The labels of paths -/

namespace PathLabel

/-- The texts of all labels. -/
def texts : List String :=
  [ "/", "/health", "/openapi.json", "/metrics", "/parents/\x7bparent\x7d",
    "/parents/\x7bparent\x7d/images", "/parents/\x7bparent\x7d/images/order",
    "/parents/\x7bparent\x7d/images/\x7bimage\x7d",
    "/parents/\x7bparent\x7d/images/\x7bimage\x7d/cover", "/\x7bother\x7d" ]

theorem text_mem_texts (label : PathLabel) : label.text ∈ texts := by
  cases label <;> decide

/-- The label of a route. -/
def ofRoute : Route → PathLabel
  | .health => health
  | .description => description
  | .metrics => metrics
  | .gallery _ => gallery
  | .order _ => order
  | .image .. => image
  | .cover .. => cover

theorem text_ofRoute (route : Route) : (ofRoute route).text = route.template := by
  cases route <;> rfl

section Trimming

variable {chars : List Char} {names : List (List Char)}

/-- The slash in front goes, where there is no other one at either end. -/
theorem trimSlashes_slash_cons (head : chars.head? ≠ some '/') (last : chars.getLast? ≠ some '/') :
    trimSlashes ('/' :: chars) = chars := by
  have kept {chars : List Char} (head : chars.head? ≠ some '/') :
      chars.dropWhile (· = '/') = chars := by
    cases chars with
    | nil => rfl
    | cons char rest =>
        rw [List.dropWhile_cons_of_neg]
        simpa using head
  rw [trimSlashes, List.dropWhile_cons_of_pos (by decide), kept head, kept, List.reverse_reverse]
  rwa [List.head?_reverse]

theorem unfields_ne_nil (some_names : names ≠ []) (filled : ∀ name ∈ names, name ≠ []) :
    Text.unfields '/' names ≠ [] := by
  cases names with
  | nil => exact absurd rfl some_names
  | cons name others =>
      cases others with
      | nil => exact filled name List.mem_cons_self
      | cons other others => simp [Text.unfields]

theorem head?_unfields (filled : ∀ name ∈ names, name ≠ [] ∧ '/' ∉ name) :
    (Text.unfields '/' names).head? ≠ some '/' := by
  cases names with
  | nil => simp [Text.unfields]
  | cons name others =>
      obtain ⟨char, rest, rfl⟩ := List.exists_cons_of_ne_nil (filled name List.mem_cons_self).1
      have other : char ≠ '/' := fun slash =>
        (filled _ List.mem_cons_self).2 (slash ▸ List.mem_cons_self)
      cases others <;> simpa [Text.unfields] using other

theorem getLast?_unfields (filled : ∀ name ∈ names, name ≠ [] ∧ '/' ∉ name) :
    (Text.unfields '/' names).getLast? ≠ some '/' := by
  induction names with
  | nil => simp [Text.unfields]
  | cons name others ih =>
      rw [List.forall_mem_cons] at filled
      cases others with
      | nil => exact fun slash => filled.1.2 (List.mem_of_getLast? slash)
      | cons other others =>
          have rest := unfields_ne_nil (List.cons_ne_nil other others)
            fun name mem => (filled.2 name mem).1
          obtain ⟨last, final⟩ := Option.isSome_iff_exists.mp (List.getLast?_isSome.mpr rest)
          have other_last := ih filled.2
          rw [final] at other_last
          rw [Text.unfields, List.getLast?_append, List.getLast?_cons, final]
          exact other_last

end Trimming

/-- The path of a route is cut into its segments. -/
theorem segments_trimSlashes_path {route : Route} (proper : route.Proper) :
    Route.segments (String.ofList (trimSlashes route.path.toList)) = route.names := by
  have filled : ∀ text ∈ route.names.map String.toList, text ≠ [] ∧ '/' ∉ text := by
    intro text mem
    obtain ⟨name, named, rfl⟩ := List.mem_map.mp mem
    obtain ⟨some_chars, whole⟩ := proper.pathId_of_mem name named
    exact ⟨fun none => some_chars (String.toList_inj.mp none), whole⟩
  have some_names : route.names.map String.toList ≠ [] :=
    fun none => route.names_ne_nil (List.map_eq_nil_iff.mp none)
  rw [Route.toList_path, trimSlashes_slash_cons (head?_unfields filled) (getLast?_unfields filled),
    Route.segments, String.toList_ofList,
    Text.fields_unfields some_names fun text mem => (filled text mem).2]
  simp

theorem ofSegments_names {route : Route} (proper : route.Proper)
    (named : route.parameters ≠ []) : ofSegments route.names = ofRoute route := by
  cases route with
  | health | description | metrics => exact absurd rfl named
  | gallery parent | order parent => rfl
  | image parent id =>
      have other : id ≠ "order" := proper.2.2
      unfold ofSegments Route.names
      split <;> simp_all [ofRoute]
  | cover parent id =>
      unfold ofSegments Route.names
      split <;> simp_all [ofRoute]

/-- The label of a path that leads to a route is that of the route. -/
theorem ofPath_of_ofPath? {path : String} {route : Route} (found : Route.ofPath? path = some route) :
    ofPath path = ofRoute route := by
  obtain ⟨proper, same⟩ := Route.ofPath?_eq_some_iff.mp found
  unfold ofPath
  split
  case h_1 => cases (show Route.ofPath? "/" = none by decide).symm.trans found
  case h_2 =>
    cases (show Route.ofPath? "/health" = some .health by decide).symm.trans found
    rfl
  case h_3 =>
    cases (show Route.ofPath? "/openapi.json" = some .description by decide).symm.trans found
    rfl
  case h_4 =>
    cases (show Route.ofPath? "/metrics" = some .metrics by decide).symm.trans found
    rfl
  case h_5 notRoot notHealth notDescription notMetrics =>
    rw [same, segments_trimSlashes_path proper]
    refine ofSegments_names proper fun unnamed => ?_
    cases route with
    | health => exact notHealth same
    | description => exact notDescription same
    | metrics => exact notMetrics same
    | gallery | order | image | cover => cases unnamed

end PathLabel

/-! ## Counted labels -/

/-- The label of a path in a counter of requests. -/
def pathLabel? : Counter → Option String
  | .httpRequests _ label _ | .httpDurations _ label => some label
  | _ => none

section Sessions

variable {σ τ ρ : Type} [GalleryTx τ] [GalleryStore σ τ] [ParentStore σ]

/-- A call of the manager counts no request. -/
theorem value_perform_of_pathLabel? {β : Type} [BlobStore β] (manager : Manager σ β) (call : Call)
    {counter : Counter} {label : String} (counts : pathLabel? counter = some label) :
    (manager.perform call).2.counters.value counter = manager.counters.value counter := by
  have unrelated : counter ≠ .imagesTruncated ∧ counter ≠ .imagesUploaded ∧
      counter ≠ .blobDeleteFailures ∧
      ∀ operation succeeded, counter ≠ .operations operation succeeded := by
    cases counter <;> simp [pathLabel?] at counts ⊢
  obtain ⟨notTruncated, notUploaded, notFailures, noOperation⟩ := unrelated
  rw [Manager.raises_perform manager call counter notTruncated, Event.rise_of_other _ noOperation]
  unfold told
  split <;> simp [notUploaded, notFailures]

namespace Service

omit [ParentStore σ] in
/-- A request is counted under the label of its path only. -/
theorem value_count_of_pathLabel? {β : Type} (service : Service σ β) (request : Request)
    (status : Nat) {counter : Counter} {label : String} (counts : pathLabel? counter = some label)
    (unknown : label ∉ PathLabel.texts) :
    (service.count request status).counters.value counter =
      service.manager.counters.value counter := by
  have other : label ≠ (PathLabel.ofPath request.path).text :=
    fun same => unknown (same ▸ PathLabel.text_mem_texts _)
  have notThis {own : Counter} (labelled : pathLabel? own =
      some (PathLabel.ofPath request.path).text) : counter ≠ own := by
    rintro rfl
    exact other (Option.some.inj (counts.symm.trans labelled))
  unfold count
  split
  · rw [Manager.value_tally, Manager.value_tally, if_neg (notThis rfl), if_neg (notThis rfl)]
    rfl
  · rfl

variable {service : Service σ (Faulty LocalBlobs)} {counter : Counter} {label : String}

theorem value_handle_of_pathLabel? (request : Request) (counts : pathLabel? counter = some label)
    (unknown : label ∉ PathLabel.texts) :
    (service.handle request).2.manager.counters.value counter =
      service.manager.counters.value counter := by
  have dispatched : (service.dispatch service.nextId request).2.counters.value counter =
      service.manager.counters.value counter := by
    by_cases asking : ∃ call, Asks service.maxBodyBytes request call
    · obtain ⟨call, asked⟩ := asking
      rw [dispatch_of_asks _ asked]
      exact value_perform_of_pathLabel? _ _ counts
    · rw [dispatch_of_not_asks _ asking]
  rw [← dispatched]
  unfold handle
  dsimp only
  rcases service.dispatch service.nextId request with ⟨response, manager⟩
  exact value_count_of_pathLabel? _ request _ counts unknown

variable [Refusing σ ρ]

theorem value_turn_of_pathLabel? (turn : Turn ρ) (counts : pathLabel? counter = some label)
    (unknown : label ∉ PathLabel.texts) :
    (service.turn turn).manager.counters.value counter =
      service.manager.counters.value counter := by
  cases turn with
  | request request => exact value_handle_of_pathLabel? request counts unknown
  | direct step =>
      cases step with
      | call call => exact value_perform_of_pathLabel? _ call counts
      | refuse | upkeep | change => rfl

/-- No turn of a session counts a request under another label than those of paths. -/
theorem value_session_of_pathLabel? (turns : List (Turn ρ))
    (counts : pathLabel? counter = some label) (unknown : label ∉ PathLabel.texts) :
    (service.session turns).manager.counters.value counter =
      service.manager.counters.value counter := by
  induction turns generalizing service with
  | nil => rfl
  | cons turn turns ih =>
      have later : ((service.turn turn).session turns).manager.counters.value counter =
          (service.turn turn).manager.counters.value counter := ih
      rw [session, List.foldl_cons]
      exact later.trans (value_turn_of_pathLabel? turn counts unknown)

/-- How the paths of requests are labelled, in general and in the counters of a session. -/
structure Labelled (service : Service σ (Faulty LocalBlobs)) (turns : List (Turn ρ)) : Prop where
  /-- There are as many labels as the list has, whatever the path. -/
  bounded (path : String) : (PathLabel.ofPath path).text ∈ PathLabel.texts
  /-- The label of a route has names in place of its ids. -/
  routed {path : String} {route : Route} (found : Route.ofPath? path = some route) :
    (PathLabel.ofPath path).text = route.template
  /-- The order of a gallery is no image. -/
  order {parent : String} (id : PathId parent) :
    (PathLabel.ofPath ("/parents/" ++ parent ++ "/images/order")).text =
      "/parents/\x7bparent\x7d/images/order"
  /-- The image with the id `order` may be the cover. -/
  cover {parent : String} (id : PathId parent) :
    (PathLabel.ofPath ("/parents/" ++ parent ++ "/images/order/cover")).text =
      "/parents/\x7bparent\x7d/images/\x7bimage\x7d/cover"
  /-- No request is counted under another label. -/
  counted {counter : Counter} {label : String} (counts : pathLabel? counter = some label)
    (unknown : label ∉ PathLabel.texts) : (service.session turns).manager.counters.value counter =
      service.manager.counters.value counter

/-- Labels are bounded and agree with the routes, and no session counts others. -/
theorem labelled_session (service : Service σ (Faulty LocalBlobs)) (turns : List (Turn ρ)) :
    service.Labelled turns where
  bounded path := PathLabel.text_mem_texts _
  routed {_ route} found := by rw [PathLabel.ofPath_of_ofPath? found, PathLabel.text_ofRoute]
  order {parent} id := by
    have found : Route.ofPath? (Route.order parent).path = some (.order parent) :=
      Route.ofPath?_eq_some_iff.mpr ⟨id, rfl⟩
    change (PathLabel.ofPath (Route.order parent).path).text = _
    rw [PathLabel.ofPath_of_ofPath? found]
    rfl
  cover {parent} id := by
    have found : Route.ofPath? (Route.cover parent "order").path = some (.cover parent "order") :=
      Route.ofPath?_eq_some_iff.mpr ⟨⟨id, by decide, by decide⟩, rfl⟩
    have path : "/parents/" ++ parent ++ "/images/order/cover" =
        (Route.cover parent "order").path := by
      apply String.toList_inj.mp
      simp [Route.path]
    rw [path, PathLabel.ofPath_of_ofPath? found]
    rfl
  counted counts unknown := value_session_of_pathLabel? turns counts unknown

end Service

end Sessions

/-- A gallery whose parent is called `images`, an image that is called `order`, and slashes that
lead nowhere. -/
example :
    PathLabel.ofPath "/parents/images/images" = .gallery ∧
    PathLabel.ofPath "/parents/p/images/order/cover" = .cover ∧
    PathLabel.ofPath "//parents/p/" = .parent ∧
    PathLabel.ofPath "/parents//images//cover" = .cover ∧
    PathLabel.ofPath "/parents/p//images" = .other := by
  decide

end Http

end ImageGallery
