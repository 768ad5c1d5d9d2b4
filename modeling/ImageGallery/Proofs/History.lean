import Mathlib.Data.List.Nodup
import ImageGallery.Proofs.Run

/-!
# Histories

The history of a run is what was called, what was answered, and how it was before and after. It
tells which upload an image goes back to, long after other images came and went.
-/

namespace ImageGallery

/-! ## Holdings -/

/-- What the image of a parent is known by, and the key of its file. -/
structure Holding where
  parent : String
  id : Int
  key : String

/-- The holdings of a parent's images. -/
def holdings (parent : String) (images : List ImageRecord) : List Holding :=
  images.map fun image => ⟨parent, image.id, image.storageKey⟩

section Holdings

variable {parent : String} {images : List ImageRecord}

theorem mem_holdings_iff {holding : Holding} : holding ∈ holdings parent images ↔
    ∃ image ∈ images, holding = ⟨parent, image.id, image.storageKey⟩ := by
  simp [holdings, eq_comm]

@[simp]
theorem map_id_holdings : (holdings parent images).map (·.id) = images.map (·.id) :=
  List.map_map

@[simp]
theorem holdings_withCover {id : Int} :
    holdings parent (Manager.withCover images id) = holdings parent images :=
  List.map_map

@[simp]
theorem holdings_settle {effective : ImageRecord → Nat} :
    holdings parent (settle effective images) = holdings parent images :=
  List.map_map

@[simp]
theorem holdings_promote {promoted : Option Int} :
    holdings parent (Manager.promote promoted images) = holdings parent images := by
  cases promoted with
  | none => rfl
  | some id => exact holdings_withCover

theorem holdings_without {target : ImageRecord} :
    holdings parent (Manager.without images target) =
      (holdings parent images).filter fun holding => holding.id ≠ target.id := by
  have ranked (others ranking : List ImageRecord) :
      holdings parent (others.map fun image => image.atRankIn ranking) =
        holdings parent others := List.map_map
  rw [Manager.without, ranked, holdings_promote, holdings, holdings, List.filter_map]
  rfl

theorem holdings_append {others : List ImageRecord} :
    holdings parent (images ++ others) = holdings parent images ++ holdings parent others :=
  List.map_append

/-- An id has one holding. -/
theorem eq_of_mem_holdings (distinct : (images.map (·.id)).Nodup) {first second : Holding}
    (firstMem : first ∈ holdings parent images) (secondMem : second ∈ holdings parent images)
    (same : first.id = second.id) : first = second := by
  rw [← map_id_holdings] at distinct
  exact List.inj_on_of_nodup_map distinct firstMem secondMem same

end Holdings

section Held

variable {σ τ : Type} [ParentStore σ] [StoreView σ τ] {store after : σ} {holding : Holding}

/-- A store holds an image of a parent with its key. -/
def Held (store : σ) (holding : Holding) : Prop :=
  holding ∈ holdings holding.parent (StoreView.images store holding.parent)

/-- What a store holds after a draft was published in it. -/
theorem Published.held_iff {draft : Draft} (published : Published store after draft) :
    Held after holding ↔ if holding.parent = draft.parent
      then holding ∈ holdings draft.parent draft.images else Held store holding := by
  unfold Held
  split
  · rename_i own
    rw [own, published.images_self]
  · rename_i foreign
    rw [published.images_other _ foreign]

/-- A draft that has the holdings of its gallery changes nothing about them. -/
theorem Published.held_iff_of_holdings_eq {draft : Draft} (published : Published store after draft)
    (same : holdings draft.parent draft.images =
      holdings draft.parent (StoreView.images store draft.parent)) :
    Held after holding ↔ Held store holding := by
  rw [published.held_iff]
  split
  · rename_i own
    rw [same, Held, own]
  · rfl

end Held

theorem map_storageKey_recordsOf {options : GalleryOptions} {parent : ParentRecord}
    {order : UInt32} {index : Nat} {cover : Bool} {lastId : Int} {clock : Clock}
    {saved : List SavedBlob} :
    (Manager.recordsOf options parent order index cover lastId clock saved).map (·.storageKey) =
      saved.map (·.storageKey) := by
  induction saved generalizing index cover lastId clock with
  | nil => rfl
  | cons first others ih => rw [Manager.recordsOf, List.map_cons, ih, List.map_cons]

/-! ## Events -/

/-- A call that was made: its answer, and the states before and after it. -/
structure Event (σ β : Type) where
  before : Manager σ β
  call : Call
  answer : Except GalleryError Answer
  after : Manager σ β

namespace Event

variable {σ β : Type}

/-- The call uploaded a file with the given bytes to a parent, and answered with its record, which
has the given id. -/
def Creates (event : Event σ β) (parent : String) (id : Int) (bytes : Bytes) : Prop :=
  ∃ uploads records, event.call = .upload parent uploads ∧
    event.answer = .ok (.stored records) ∧
    ∃ pair ∈ uploads.zip records, pair.2.id = id ∧ pair.1.content.ahead = bytes

/-- The call was answered neither with new records nor with a deletion. -/
def isIdle (event : Event σ β) : Bool :=
  match event.answer with
  | .ok (.stored _) | .ok (.deleted _) => false
  | _ => true

theorem not_creates_of_isIdle {event : Event σ β} (idle : event.isIdle) {parent : String} {id : Int}
    {bytes : Bytes} : ¬ event.Creates parent id bytes := by
  rintro ⟨uploads, records, -, answered, -⟩
  rw [isIdle, answered] at idle
  cases idle

theorem answer_ne_deleted_of_isIdle {event : Event σ β} (idle : event.isIdle)
    (outcome : DeleteOutcome) : event.answer ≠ .ok (.deleted outcome) := by
  intro answered
  rw [isIdle, answered] at idle
  cases idle

theorem creates_stored_iff {before after : Manager σ β} {parent other : String}
    {uploads : List Upload} {records : List ImageRecord} {id : Int} {bytes : Bytes} :
    Creates ⟨before, .upload parent uploads, .ok (.stored records), after⟩ other id bytes ↔
      other = parent ∧ ∃ pair ∈ uploads.zip records, pair.2.id = id ∧
        pair.1.content.ahead = bytes := by
  constructor
  · rintro ⟨_, _, uploaded, answered, created⟩
    cases uploaded
    cases answered
    exact ⟨rfl, created⟩
  · rintro ⟨rfl, created⟩
    exact ⟨uploads, records, rfl, rfl, created⟩

end Event

/-- An upload of the history created an image of a parent from the given bytes. -/
def Created {σ β : Type} (history : List (Event σ β)) (parent : String) (id : Int)
    (bytes : Bytes) : Prop :=
  ∃ event ∈ history, event.Creates parent id bytes

section Created

variable {σ β : Type} {past present : List (Event σ β)} {parent : String} {id : Int} {bytes : Bytes}

theorem not_created_nil : ¬ Created ([] : List (Event σ β)) parent id bytes := by
  rintro ⟨event, mem, -⟩
  cases mem

theorem created_append : Created (past ++ present) parent id bytes ↔
    Created past parent id bytes ∨ Created present parent id bytes := by
  simp only [Created, List.mem_append, or_and_right, exists_or]

theorem created_append_of_isIdle (idle : ∀ event ∈ present, event.isIdle) :
    Created (past ++ present) parent id bytes ↔ Created past parent id bytes := by
  rw [created_append, or_iff_left]
  rintro ⟨event, mem, creation⟩
  exact Event.not_creates_of_isIdle (idle event mem) creation

theorem created_singleton {event : Event σ β} :
    Created [event] parent id bytes ↔ event.Creates parent id bytes := by
  simp [Created]

theorem created_append_deletion {before after : Manager σ β} {owner : String} {target : Int}
    {outcome : DeleteOutcome} :
    Created (past ++ [⟨before, .delete owner target, .ok (.deleted outcome), after⟩])
      parent id bytes ↔ Created past parent id bytes := by
  rw [created_append, created_singleton, or_iff_left]
  rintro ⟨_, _, impossible, -⟩
  cases impossible

end Created

/-- A history in which every id was given once, and none above the last one. -/
structure Recorded {σ β : Type} (history : List (Event σ β)) (lastId : Int) : Prop where
  bounded : ∀ parent id bytes, Created history parent id bytes → id ≤ lastId
  unique : ∀ parent other id bytes otherBytes, Created history parent id bytes →
    Created history other id otherBytes → bytes = otherBytes

theorem Recorded.nil {σ β : Type} {lastId : Int} :
    Recorded ([] : List (Event σ β)) lastId where
  bounded _ _ _ creation := absurd creation not_created_nil
  unique _ _ _ _ _ creation := absurd creation not_created_nil

/-- Events that create nothing. -/
theorem Recorded.append {σ β : Type} {past present : List (Event σ β)} {lastId : Int}
    (recorded : Recorded past lastId)
    (same : ∀ parent id bytes,
      Created (past ++ present) parent id bytes ↔ Created past parent id bytes) :
    Recorded (past ++ present) lastId where
  bounded parent id bytes creation :=
    recorded.bounded parent id bytes ((same parent id bytes).mp creation)
  unique parent other id bytes otherBytes creation otherCreation :=
    recorded.unique parent other id bytes otherBytes ((same parent id bytes).mp creation)
      ((same other id otherBytes).mp otherCreation)

namespace Manager

section Events

variable {σ τ ρ β : Type} [GalleryTx τ] [GalleryStore σ τ] [ParentStore σ] [BlobStore β]

/-- A call as an event. -/
def event (manager : Manager σ β) (call : Call) : Event σ β :=
  ⟨manager, call, (manager.perform call).1, (manager.perform call).2⟩

theorem event_eq {manager after : Manager σ β} {call : Call} {answer : Except GalleryError Answer}
    (performed : manager.perform call = (answer, after)) :
    manager.event call = ⟨manager, call, answer, after⟩ := by
  rw [event, performed]

/-- The events of one step. -/
def events (manager : Manager σ β) : Step ρ β → List (Event σ β)
  | .call call => [manager.event call]
  | .refuse _ => []
  | .disturb _ => []

/-- The events of a run, in their order. -/
def history [Refusing σ ρ] (manager : Manager σ β) : List (Step ρ β) → List (Event σ β)
  | [] => []
  | step :: steps => manager.events step ++ (manager.step step).history steps

end Events

/-! ## What calls do to holdings -/

section Effects

variable {σ τ β : Type} [ParentStore σ] [StoreView σ τ] [BlobStore β] {manager after : Manager σ β}
  {past : List (Event σ β)}

/-- After a deletion everything is held but the image. -/
theorem Deleted.held_iff {parent : String} {target : ImageRecord} {outcome : DeleteOutcome}
    (deleted : Deleted manager after parent target outcome)
    (distinct : ((StoreView.images manager.store parent).map (·.id)).Nodup) {holding : Holding} :
    Held after.store holding ↔
      Held manager.store holding ∧ holding ≠ ⟨parent, target.id, target.storageKey⟩ := by
  rw [deleted.published.held_iff]
  dsimp only
  split
  · rename_i own
    rw [holdings_without, List.mem_filter, decide_eq_true_iff, Held, own]
    refine and_congr_right fun mem => not_congr ⟨fun same => ?_, fun same => same ▸ rfl⟩
    exact eq_of_mem_holdings distinct mem (mem_holdings_iff.mpr ⟨target, deleted.mem, rfl⟩) same
  · rename_i foreign
    rw [iff_self_and]
    rintro - rfl
    exact foreign rfl

variable [GalleryTx τ] [GalleryStore σ τ] {parent : ParentRecord} {uploads taken : List Upload}
  {saved : List SavedBlob} {records : List ImageRecord} {order : UInt32}

theorem Stored.length_eq (stored : Stored manager after parent taken saved records order) :
    records.length = taken.length := by
  rw [stored.records_eq, length_recordsOf, stored.saves.length_eq]

/-- Records go with the uploads that were taken. -/
theorem Stored.zip_eq (stored : Stored manager after parent taken saved records order)
    (leading : taken <+: uploads) : uploads.zip records = taken.zip records := by
  obtain ⟨rest, rfl⟩ := leading
  have zipped : (taken ++ rest).zip (records ++ []) = taken.zip records ++ rest.zip [] :=
    List.zip_append stored.length_eq.symm
  rwa [List.append_nil, List.zip_nil_right, List.append_nil] at zipped

theorem Stored.exists_pair (stored : Stored manager after parent taken saved records order)
    {record : ImageRecord} (mem : record ∈ records) :
    ∃ upload, (upload, record) ∈ taken.zip records := by
  have second : (taken.zip records).map Prod.snd = records :=
    List.map_snd_zip (Nat.le_of_eq stored.length_eq)
  rw [← second] at mem
  obtain ⟨⟨upload, same⟩, pairMem, rfl⟩ := List.mem_map.mp mem
  exact ⟨upload, pairMem⟩

/-- New records have ids that no record had before, and each another one. -/
theorem Stored.distinct (stored : Stored manager after parent taken saved records order) :
    (records.map (·.id)).Nodup := by
  rw [stored.records_eq, map_id_recordsOf]
  refine List.Nodup.map ?_ List.nodup_range'
  intro first second same
  exact Int.ofNat.inj (Int.add_left_cancel same)

theorem Stored.id_bounds (stored : Stored manager after parent taken saved records order)
    {record : ImageRecord} (mem : record ∈ records) :
    StoreView.lastId manager.store < record.id ∧ record.id ≤ StoreView.lastId after.store := by
  have listed : record.id ∈ records.map (·.id) := List.mem_map_of_mem mem
  rw [stored.records_eq, map_id_recordsOf] at listed
  obtain ⟨offset, offsetMem, same⟩ := List.mem_map.mp listed
  have bounds := List.mem_range'_1.mp offsetMem
  rw [stored.published.lastId_eq]
  dsimp only
  omega

/-- A record goes with one upload. -/
theorem Stored.pair_eq (stored : Stored manager after parent taken saved records order)
    {first second : Upload × ImageRecord}
    (firstMem : first ∈ taken.zip records) (secondMem : second ∈ taken.zip records)
    (same : first.2.id = second.2.id) : first = second := by
  have ids : (taken.zip records).map (·.2.id) = records.map (·.id) := by
    conv_rhs => rw [← List.map_snd_zip (Nat.le_of_eq stored.length_eq), List.map_map]
    rfl
  have distinct := stored.distinct
  rw [← ids] at distinct
  exact List.inj_on_of_nodup_map distinct firstMem secondMem same

theorem Stored.held_iff (stored : Stored manager after parent taken saved records order)
    {holding : Holding} : Held after.store holding ↔
      Held manager.store holding ∨ holding ∈ holdings parent.id records := by
  rw [stored.published.held_iff]
  dsimp only
  split
  · rename_i own
    rw [holdings_append, List.mem_append, Held, own]
  · rename_i foreign
    rw [or_iff_left]
    intro mem
    obtain ⟨record, -, rfl⟩ := mem_holdings_iff.mp mem
    exact foreign rfl

/-- The images that were created up to an upload: those that were created before it, and its own. -/
theorem Stored.created_iff (stored : Stored manager after parent taken saved records order)
    (leading : taken <+: uploads) {other : String} {id : Int} {bytes : Bytes} :
    Created (past ++ [⟨manager, .upload parent.id uploads, .ok (.stored records), after⟩])
        other id bytes ↔
      Created past other id bytes ∨ other = parent.id ∧ ∃ pair ∈ taken.zip records,
        pair.2.id = id ∧ pair.1.content.ahead = bytes := by
  rw [created_append, created_singleton, Event.creates_stored_iff, stored.zip_eq leading]

/-- An upload creates images under new ids. -/
theorem Recorded.stored (recorded : Recorded past (StoreView.lastId manager.store))
    (stored : Stored manager after parent taken saved records order) (leading : taken <+: uploads) :
    Recorded (past ++ [⟨manager, .upload parent.id uploads, .ok (.stored records), after⟩])
      (StoreView.lastId after.store) where
  bounded := by
    intro other id bytes creation
    rcases (stored.created_iff leading).mp creation with old | ⟨-, pair, pairMem, rfl, -⟩
    · have bound := recorded.bounded other id bytes old
      rw [stored.published.lastId_eq]
      dsimp only
      omega
    · exact (stored.id_bounds (List.of_mem_zip pairMem).2).2
  unique := by
    intro one other id bytes otherBytes creation otherCreation
    rcases (stored.created_iff leading).mp creation with old | ⟨-, pair, pairMem, rfl, rfl⟩
    · rcases (stored.created_iff leading).mp otherCreation with
        otherOld | ⟨-, pair, pairMem, rfl, rfl⟩
      · exact recorded.unique one other id bytes otherBytes old otherOld
      · have later := (stored.id_bounds (List.of_mem_zip pairMem).2).1
        have bound := recorded.bounded one _ bytes old
        omega
    · rcases (stored.created_iff leading).mp otherCreation with
        otherOld | ⟨-, second, secondMem, same, rfl⟩
      · have later := (stored.id_bounds (List.of_mem_zip pairMem).2).1
        have bound := recorded.bounded other _ otherBytes otherOld
        omega
      · rw [stored.pair_eq secondMem pairMem same]

end Effects

end Manager

end ImageGallery
