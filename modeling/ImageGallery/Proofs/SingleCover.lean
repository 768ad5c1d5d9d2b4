import ImageGallery.Proofs.Transactions

/-!
# One cover for each parent

A unique index of the database allows each parent one row that is flagged as cover. The index is
looked at whenever a row was written, also in the middle of a statement that writes several rows.
So it is not enough that a statement ends well: no row may be a second cover at its turn, in
whatever order the statement visits its rows.

The statements behind the calls of a transaction keep to this. A cover is assigned in two
statements, of which the first one only takes flags away. After it the second one is free to set
the flag; without it the index would refuse that.
-/

namespace ImageGallery

namespace ImageRecord

/-- The image without the flag of a cover. -/
def unflagged (image : ImageRecord) : ImageRecord :=
  { image with isCover := false }

/-- The image with the flag of a cover. -/
def flagged (image : ImageRecord) : ImageRecord :=
  { image with isCover := true }

end ImageRecord

namespace Database

/-! ## Row by row -/

/-- The row with an id is a cover, and another row of its parent is one as well. -/
def conflicts (database : Database) (id : Int) : Bool :=
  database.images.any fun row => row.id = id && row.isCover &&
    database.images.any fun other =>
      other.id ≠ id && other.parentId = row.parentId && other.isCover

/-- Change the row with an id, unless the index refuses the changed row. -/
def updateRow (change : ImageRecord → ImageRecord) (database : Database) (id : Int) :
    Except StoreError Database :=
  let changed := database.update (fun row => row.id = id) change
  if changed.conflicts id then .error .secondCover else .ok changed

/-- Change the rows with some ids one after the other. The first refusal ends the statement. -/
def updateRows (change : ImageRecord → ImageRecord) :
    (visits : List Int) → Database → Except StoreError Database
  | [], database => .ok database
  | id :: visits, database =>
    match database.updateRow change id with
    | .ok changed => updateRows change visits changed
    | .error error => .error error

/-! ## Constraints -/

/-- The constraints on the rows of images: an id is given once, none is above the sequence, and
two covers of one parent are the same row. -/
structure Constrained (database : Database) : Prop where
  distinct : (database.images.map (·.id)).Nodup
  bounded : ∀ row ∈ database.images, row.id ≤ database.sequence
  single : ∀ first ∈ database.images, ∀ second ∈ database.images, first.isCover = true →
    second.isCover = true → first.parentId = second.parentId → first.id = second.id

theorem map_id_update (database : Database) (selects : ImageRecord → Bool)
    {change : ImageRecord → ImageRecord} (keepsId : ∀ row, (change row).id = row.id) :
    (database.update selects change).images.map (·.id) = database.images.map (·.id) := by
  rw [update, List.map_map]
  apply List.map_congr_left
  intro row mem
  simp only [Function.comp_apply]
  split
  · exact keepsId row
  · rfl

namespace Constrained

variable {database : Database}

theorem countP_isCover_le_one (constrained : database.Constrained) (parent : String) :
    (database.rowsOf parent).countP (·.isCover) ≤ 1 := by
  have distinct : (((database.rowsOf parent).filter (·.isCover)).map (·.id)).Nodup :=
    constrained.distinct.sublist ((List.filter_sublist.trans List.filter_sublist).map _)
  have isCover : ∀ row ∈ (database.rowsOf parent).filter (·.isCover),
      row ∈ database.images ∧ row.parentId = parent ∧ row.isCover = true := by
    intro row mem
    obtain ⟨own, flag⟩ := List.mem_filter.mp mem
    exact ⟨(List.mem_filter.mp own).1, parentId_of_mem_rowsOf own, flag⟩
  rw [List.countP_eq_length_filter]
  generalize (database.rowsOf parent).filter (·.isCover) = covers at distinct isCover ⊢
  rcases covers with _ | ⟨first, _ | ⟨second, others⟩⟩
  · exact Nat.zero_le 1
  · exact Nat.le_refl 1
  · obtain ⟨firstMem, firstOwn, firstFlag⟩ := isCover first (by simp)
    obtain ⟨secondMem, secondOwn, secondFlag⟩ := isCover second (by simp)
    have same := constrained.single first firstMem second secondMem firstFlag secondFlag
      (firstOwn.trans secondOwn.symm)
    simp [same] at distinct

/-- No row is refused at its turn. -/
theorem conflicts_eq_false (constrained : database.Constrained) (id : Int) :
    database.conflicts id = false := by
  rw [conflicts, List.any_eq_false]
  intro row mem conflict
  simp only [Bool.and_eq_true, decide_eq_true_eq, List.any_eq_true] at conflict
  obtain ⟨⟨rfl, flag⟩, other, otherMem, ⟨differ, own⟩, otherFlag⟩ := conflict
  exact differ (constrained.single other otherMem row mem otherFlag flag own)

/-- Changes that keep the ids keep the constraints if covers stay single. -/
theorem change (constrained : database.Constrained) (selects : ImageRecord → Bool)
    {change : ImageRecord → ImageRecord} (keepsId : ∀ row, (change row).id = row.id)
    (single : ∀ first ∈ (database.update selects change).images,
      ∀ second ∈ (database.update selects change).images, first.isCover = true →
        second.isCover = true → first.parentId = second.parentId → first.id = second.id) :
    (database.update selects change).Constrained where
  distinct := by
    rw [map_id_update database selects keepsId]
    exact constrained.distinct
  bounded row mem := by
    have given : row.id ∈ (database.update selects change).images.map (·.id) :=
      List.mem_map_of_mem mem
    rw [map_id_update database selects keepsId] at given
    obtain ⟨before, stored, same⟩ := List.mem_map.mp given
    exact same ▸ constrained.bounded before stored
  single := single

/-- Changes that set no flags keep covers single. -/
theorem recede (constrained : database.Constrained) (selects : ImageRecord → Bool)
    (change : ImageRecord → ImageRecord) (keepsId : ∀ row, (change row).id = row.id)
    (keepsParent : ∀ row, (change row).parentId = row.parentId)
    (recedes : ∀ row, (change row).isCover = true → row.isCover = true) :
    (database.update selects change).Constrained := by
  have origin : ∀ row ∈ (database.update selects change).images, row.isCover = true →
      ∃ before ∈ database.images, before.isCover = true ∧ before.id = row.id ∧
        before.parentId = row.parentId := by
    intro row mem flag
    obtain ⟨before, stored, rfl⟩ := List.mem_map.mp mem
    by_cases chosen : selects before = true
    · rw [if_pos chosen] at flag ⊢
      exact ⟨before, stored, recedes before flag, (keepsId before).symm, (keepsParent before).symm⟩
    · rw [if_neg chosen] at flag ⊢
      exact ⟨before, stored, flag, rfl, rfl⟩
  refine constrained.change selects keepsId ?_
  intro first firstMem second secondMem firstFlag secondFlag own
  obtain ⟨before, stored, flag, sameId, sameParent⟩ := origin first firstMem firstFlag
  obtain ⟨other, otherStored, otherFlag, otherId, otherParent⟩ :=
    origin second secondMem secondFlag
  rw [← sameId, ← otherId]
  exact constrained.single before stored other otherStored flag otherFlag
    (sameParent.trans (own.trans otherParent.symm))

/-- So does setting the flag of one row, if no row of its parent is a cover. -/
theorem flag (constrained : database.Constrained) {parent : String}
    (coverless : ∀ row ∈ database.rowsOf parent, row.isCover = false) (id : Int) :
    (database.update (fun row => row.parentId = parent && row.id = id)
      ImageRecord.flagged).Constrained := by
  have origin : ∀ row ∈ (database.update (fun row => row.parentId = parent && row.id = id)
      ImageRecord.flagged).images, row.isCover = true →
        row.parentId = parent ∧ row.id = id ∨
          row.parentId ≠ parent ∧ row ∈ database.images := by
    intro row mem flag
    obtain ⟨before, stored, rfl⟩ := List.mem_map.mp mem
    by_cases chosen : (before.parentId = parent && before.id = id) = true
    · rw [if_pos chosen]
      simp only [Bool.and_eq_true, decide_eq_true_eq] at chosen
      exact .inl chosen
    · rw [if_neg chosen] at flag ⊢
      refine .inr ⟨fun own => ?_, stored⟩
      rw [coverless before (List.mem_filter.mpr ⟨stored, by simpa using own⟩)] at flag
      cases flag
  refine constrained.change _ (fun _ => rfl) ?_
  intro first firstMem second secondMem firstFlag secondFlag own
  rcases origin first firstMem firstFlag with ⟨here, chosen⟩ | ⟨foreign, stored⟩
  · rcases origin second secondMem secondFlag with ⟨-, otherChosen⟩ | ⟨otherForeign, -⟩
    · rw [chosen, otherChosen]
    · exact absurd (own.symm.trans here) otherForeign
  · rcases origin second secondMem secondFlag with ⟨there, -⟩ | ⟨-, otherStored⟩
    · exact absurd (own.trans there) foreign
    · exact constrained.single first stored second otherStored firstFlag secondFlag own

/-- A row with the next id may be added, if it is no second cover of its parent. -/
theorem add (constrained : database.Constrained) {record : ImageRecord}
    (next : record.id = database.sequence + 1)
    (single : record.isCover = true →
      ∀ row ∈ database.images, row.parentId = record.parentId → row.isCover = false) :
    { database with
      images := database.images ++ [record], sequence := record.id : Database }.Constrained where
  distinct := by
    rw [List.map_append, List.map_cons, List.map_nil]
    refine List.nodup_append.mpr ⟨constrained.distinct, List.nodup_singleton _, ?_⟩
    intro id given other new same
    obtain ⟨row, stored, rfl⟩ := List.mem_map.mp given
    rw [List.mem_singleton.mp new] at same
    have bound := constrained.bounded row stored
    omega
  bounded row mem := by
    rcases List.mem_append.mp mem with old | new
    · have bound := constrained.bounded row old
      change row.id ≤ record.id
      omega
    · exact Int.le_of_eq (congrArg ImageRecord.id (List.mem_singleton.mp new))
  single first firstMem second secondMem firstFlag secondFlag own := by
    rcases List.mem_append.mp firstMem with old | new
    · rcases List.mem_append.mp secondMem with otherOld | otherNew
      · exact constrained.single first old second otherOld firstFlag secondFlag own
      · rw [List.mem_singleton.mp otherNew] at secondFlag own
        rw [single secondFlag first old own] at firstFlag
        cases firstFlag
    · rw [List.mem_singleton.mp new] at firstFlag own ⊢
      rcases List.mem_append.mp secondMem with otherOld | otherNew
      · rw [single firstFlag second otherOld own.symm] at secondFlag
        cases secondFlag
      · rw [List.mem_singleton.mp otherNew]

/-- Rows may be removed. -/
theorem remove (constrained : database.Constrained) (keeps : ImageRecord → Bool) :
    { database with images := database.images.filter keeps : Database }.Constrained where
  distinct := constrained.distinct.sublist (List.filter_sublist.map _)
  bounded row mem := constrained.bounded row (List.mem_filter.mp mem).1
  single first firstMem second secondMem :=
    constrained.single first (List.mem_filter.mp firstMem).1 second (List.mem_filter.mp secondMem).1

end Constrained

/-! ## Statements that pass the index -/

theorem update_congr {database : Database} {first second : ImageRecord → Bool}
    (change : ImageRecord → ImageRecord) (same : ∀ row ∈ database.images, first row = second row) :
    database.update first change = database.update second change := by
  simp only [update]
  congr 1
  apply List.map_congr_left
  intro row mem
  rw [same row mem]

theorem update_update {database : Database} {change : ImageRecord → ImageRecord}
    (keepsId : ∀ row, (change row).id = row.id) {id : Int} {visits : List Int}
    (fresh : id ∉ visits) :
    (database.update (fun row => row.id = id) change).update (fun row => row.id ∈ visits) change =
      database.update (fun row => row.id ∈ id :: visits) change := by
  simp only [update, List.map_map]
  congr 1
  apply List.map_congr_left
  intro row mem
  simp only [Function.comp_apply, List.mem_cons, decide_eq_true_eq]
  by_cases own : row.id = id
  · simp [own, keepsId, fresh]
  · simp [own]

/-- A change is not refused if the changed rows keep the constraints. -/
theorem updateRow_eq_ok {database : Database} {change : ImageRecord → ImageRecord} {id : Int}
    (changed : (database.update (fun row => row.id = id) change).Constrained) :
    database.updateRow change id = .ok (database.update (fun row => row.id = id) change) :=
  if_neg (by rw [changed.conflicts_eq_false]; decide)

/-- A statement that sets no flags is refused at no row. -/
theorem updateRows_of_recedes {database : Database} (constrained : database.Constrained)
    (change : ImageRecord → ImageRecord) (keepsId : ∀ row, (change row).id = row.id)
    (keepsParent : ∀ row, (change row).parentId = row.parentId)
    (recedes : ∀ row, (change row).isCover = true → row.isCover = true) {visits : List Int}
    (once : visits.Nodup) : updateRows change visits database =
      .ok (database.update (fun row => row.id ∈ visits) change) := by
  induction visits generalizing database with
  | nil => simp [updateRows, update]
  | cons id visits ih =>
      obtain ⟨fresh, once⟩ := List.nodup_cons.mp once
      have changed := constrained.recede (fun row => row.id = id) change keepsId keepsParent
        recedes
      rw [updateRows, updateRow_eq_ok changed, ← update_update keepsId fresh]
      exact ih changed once

/-- The flags of a parent's rows are taken away in whatever order its rows are visited. -/
theorem updateRows_unflagged {database : Database} (constrained : database.Constrained)
    {parent : String} {visits : List Int}
    (visited : visits.Perm ((database.rowsOf parent).map (·.id))) :
    updateRows ImageRecord.unflagged visits database =
      .ok (database.update (fun row => row.parentId = parent) ImageRecord.unflagged) := by
  have once : visits.Nodup :=
    visited.nodup_iff.mpr (constrained.distinct.sublist (List.filter_sublist.map _))
  have selected : ∀ row ∈ database.images,
      decide (row.id ∈ visits) = decide (row.parentId = parent) := by
    intro row mem
    rw [decide_eq_decide, visited.mem_iff, List.mem_map]
    constructor
    · rintro ⟨other, own, same⟩
      rw [← List.inj_on_of_nodup_map constrained.distinct (List.mem_filter.mp own).1 mem same]
      exact parentId_of_mem_rowsOf own
    · intro own
      exact ⟨row, List.mem_filter.mpr ⟨mem, by simpa using own⟩, rfl⟩
  have visiting : updateRows ImageRecord.unflagged visits database =
      .ok (database.update (fun row => row.id ∈ visits) ImageRecord.unflagged) :=
    updateRows_of_recedes constrained ImageRecord.unflagged (fun _ => rfl)
      (fun _ => rfl) (by simp [ImageRecord.unflagged]) once
  rw [visiting, update_congr ImageRecord.unflagged selected]

/-- A row of a parent is selected by its id alone. -/
theorem update_member {database : Database} (constrained : database.Constrained) {parent : String}
    {id : Int} (member : ∃ row ∈ database.rowsOf parent, row.id = id)
    (change : ImageRecord → ImageRecord) :
    database.update (fun row => row.id = id) change =
      database.update (fun row => row.parentId = parent && row.id = id) change := by
  obtain ⟨chosen, own, rfl⟩ := member
  refine update_congr change fun row mem => ?_
  by_cases same : row.id = chosen.id
  · have equal := List.inj_on_of_nodup_map constrained.distinct mem (List.mem_filter.mp own).1 same
    simp [equal, parentId_of_mem_rowsOf own]
  · simp [same]

/-- The position of a parent's row is written. -/
theorem updateRows_moved {database : Database} (constrained : database.Constrained)
    {parent : String} {id : Int} (member : ∃ row ∈ database.rowsOf parent, row.id = id)
    (order : UInt32) :
    updateRows (fun row => { row with sortOrder := order }) [id] database =
      .ok (database.update (fun row => row.parentId = parent && row.id = id)
        fun row => { row with sortOrder := order }) := by
  have changed := constrained.recede (fun row => row.id = id)
    (fun row => { row with sortOrder := order }) (fun _ => rfl) (fun _ => rfl)
    fun _ flag => flag
  simp only [updateRows, updateRow_eq_ok changed, update_member constrained member]

/-- Without covers of the parent, one of its rows can be flagged. -/
theorem updateRows_flagged {database : Database} (constrained : database.Constrained)
    {parent : String} (coverless : ∀ row ∈ database.rowsOf parent, row.isCover = false) {id : Int}
    (member : ∃ row ∈ database.rowsOf parent, row.id = id) :
    updateRows ImageRecord.flagged [id] database =
      .ok (database.update (fun row => row.parentId = parent && row.id = id)
        ImageRecord.flagged) := by
  have changed := constrained.flag coverless id
  rw [← update_member constrained member] at changed
  simp only [updateRows, updateRow_eq_ok changed, update_member constrained member]

/-- With another cover of the parent, none of its other rows can be flagged. -/
theorem updateRows_flagged_of_cover {database : Database} {parent : String}
    {cover : ImageRecord} (own : cover ∈ database.rowsOf parent) (covers : cover.isCover = true)
    {id : Int} (member : ∃ row ∈ database.rowsOf parent, row.id = id) (differ : cover.id ≠ id) :
    updateRows ImageRecord.flagged [id] database = .error .secondCover := by
  obtain ⟨chosen, chosenOwn, rfl⟩ := member
  have conflict : (database.update (fun row => row.id = chosen.id)
      ImageRecord.flagged).conflicts chosen.id = true := by
    have flagged : chosen.flagged ∈
        (database.update (fun row => row.id = chosen.id) ImageRecord.flagged).images :=
      List.mem_map.mpr ⟨chosen, (List.mem_filter.mp chosenOwn).1, by simp⟩
    have untouched : cover ∈
        (database.update (fun row => row.id = chosen.id) ImageRecord.flagged).images :=
      List.mem_map.mpr ⟨cover, (List.mem_filter.mp own).1, by simp [differ]⟩
    have together : cover.parentId = chosen.flagged.parentId :=
      (parentId_of_mem_rowsOf own).trans (parentId_of_mem_rowsOf chosenOwn).symm
    refine List.any_eq_true.mpr ⟨chosen.flagged, flagged, ?_⟩
    have rival : (database.update (fun row => row.id = chosen.id)
        ImageRecord.flagged).images.any (fun other => other.id ≠ chosen.id &&
          other.parentId = chosen.flagged.parentId && other.isCover) = true :=
      List.any_eq_true.mpr ⟨cover, untouched, by simp [differ, together, covers]⟩
    rw [rival]
    simp [ImageRecord.flagged]
  rw [updateRows, updateRow, if_pos conflict]

end Database

/-! ## Calls -/

namespace DatabaseTx

variable {tx : DatabaseTx}

theorem isCover_of_uncovered {row : ImageRecord} (mem : row ∈ tx.uncovered.rows) :
    row.isCover = false := by
  have coverless := hasCover_uncovered tx
  change tx.uncovered.rows.any (·.isCover) = false at coverless
  simpa using List.any_eq_false.mp coverless row mem

theorem constrained_uncovered (constrained : tx.working.Constrained) :
    tx.uncovered.working.Constrained :=
  constrained.recede _ _ (fun _ => rfl) (fun _ => rfl) (by simp)

/-- Whether it succeeds or fails, a call keeps the constraints. -/
theorem constrained_run (constrained : tx.working.Constrained) (call : GalleryCall) :
    (call.run tx).2.working.Constrained := by
  cases call with
  | count | nextOrder | hasCover | list | get => exact constrained
  | insert image =>
      simp only [GalleryCall.run, GalleryTx.insert, insert]
      split
      · exact constrained
      · rename_i allowed
        refine constrained.add rfl fun flag row mem own => ?_
        have coverless : tx.rows.any (·.isCover) = false :=
          Bool.eq_false_iff.mpr fun covered => allowed ⟨flag, covered⟩
        have here : row ∈ tx.rows := List.mem_filter.mpr ⟨mem, by simpa using own⟩
        simpa using List.any_eq_false.mp coverless row here
  | setSortOrder id order =>
      simp only [GalleryCall.run, GalleryTx.setSortOrder, touch]
      split
      · exact constrained.recede _ _ (fun _ => rfl) (fun _ => rfl) fun _ flag => flag
      · exact constrained
  | assignExclusiveCover id =>
      change (tx.uncovered.touch id ImageRecord.flagged).2.working.Constrained
      unfold touch
      split
      · exact (constrained_uncovered constrained).flag (fun _ mem => isCover_of_uncovered mem) id
      · exact constrained_uncovered constrained
  | delete id => exact constrained.remove _

theorem constrained_runAll (constrained : tx.working.Constrained) (calls : List GalleryCall) :
    (GalleryCall.runAll tx calls).working.Constrained := by
  induction calls generalizing tx with
  | nil => exact constrained
  | cons call calls ih => exact ih (constrained_run constrained call)

theorem insert_eq_error_iff (image : NewImage) (error : StoreError) :
    (tx.insert image).1 = .error error ↔
      error = .secondCover ∧ image.isCover = true ∧ ∃ row ∈ tx.rows, row.isCover = true := by
  unfold insert
  split
  · rename_i refused
    constructor
    · intro answered
      cases answered
      exact ⟨rfl, refused.1, List.any_eq_true.mp refused.2⟩
    · rintro ⟨rfl, -⟩
      rfl
  · rename_i allowed
    simp only [reduceCtorEq, false_iff, not_and]
    rintro - flag ⟨row, mem, covers⟩
    exact allowed ⟨flag, List.any_eq_true.mpr ⟨row, mem, covers⟩⟩

theorem exists_uncovered_row {id : Int} (member : ∃ row ∈ tx.rows, row.id = id) :
    ∃ row ∈ tx.uncovered.rows, row.id = id := by
  obtain ⟨row, mem, rfl⟩ := member
  have own := Database.parentId_of_mem_rowsOf mem
  have cleared : row.unflagged ∈ tx.uncovered.working.images :=
    List.mem_map.mpr ⟨row, (List.mem_filter.mp mem).1, by simp [own, ImageRecord.unflagged]⟩
  exact ⟨row.unflagged, List.mem_filter.mpr ⟨cleared, decide_eq_true own⟩, rfl⟩

theorem foreign_of_uncovered {id : Int} (foreign : ∀ row ∈ tx.rows, row.id ≠ id)
    {row : ImageRecord} (mem : row ∈ tx.uncovered.rows) : row.id ≠ id := by
  obtain ⟨cleared, own⟩ := List.mem_filter.mp mem
  obtain ⟨before, stored, rfl⟩ := List.mem_map.mp cleared
  by_cases chosen : decide (before.parentId = tx.parent) = true
  · rw [if_pos chosen]
    exact foreign before (List.mem_filter.mpr ⟨stored, chosen⟩)
  · rw [if_neg chosen] at own
    exact absurd own chosen

/-- What holds of the covers at one point of a transaction. -/
structure SingleCover (tx : DatabaseTx) : Prop where
  covers : ∀ parent, (tx.working.rowsOf parent).countP (·.isCover) ≤ 1
  /-- A second cover is refused, and nothing else. -/
  insert_refused_iff : ∀ (image : NewImage) (error : StoreError),
    (GalleryTx.insert tx image).1 = .error error ↔
      error = .secondCover ∧ image.isCover = true ∧ ∃ row ∈ tx.rows, row.isCover = true
  insert_refused : ∀ (image : NewImage) (error : StoreError) (after : DatabaseTx),
    GalleryTx.insert tx image = (.error error, after) → after = tx
  insert_accepted : ∀ (image : NewImage) (record : ImageRecord) (after : DatabaseTx),
    GalleryTx.insert tx image = (.ok record, after) →
      record.toNewImage = image ∧ after.rows = tx.rows ++ [record]
  /-- An image of the parent becomes the only cover, and the index lets both statements through in
  whatever order the first one visits its rows. -/
  assign_member : ∀ id, (∃ row ∈ tx.rows, row.id = id) → ∃ after : DatabaseTx,
    GalleryTx.assignExclusiveCover tx id = (.ok (), after) ∧
      (∀ row ∈ after.rows, row.isCover = true ↔ row.id = id) ∧
      ∀ visits : List Int, visits.Perm (tx.rows.map (·.id)) → ∃ cleared : Database,
        Database.updateRows ImageRecord.unflagged visits tx.working = .ok cleared ∧
          Database.updateRows ImageRecord.flagged [id] cleared = .ok after.working
  assign_foreign : ∀ id, (∀ row ∈ tx.rows, row.id ≠ id) →
    (GalleryTx.assignExclusiveCover tx id).1 = .error (.notMember id tx.parent)
  set_order_member : ∀ id order, (∃ row ∈ tx.rows, row.id = id) → ∃ after : DatabaseTx,
    GalleryTx.setSortOrder tx id order = (.ok (), after) ∧
      Database.updateRows (fun row => { row with sortOrder := order }) [id] tx.working =
        .ok after.working
  /-- Without the first statement the index would refuse the second one. -/
  uncleared : ∀ id, (∃ row ∈ tx.rows, row.id = id) →
    (∃ cover ∈ tx.rows, cover.isCover = true ∧ cover.id ≠ id) →
      Database.updateRows ImageRecord.flagged [id] tx.working = .error .secondCover

theorem singleCover_of_working (constrained : tx.working.Constrained) : SingleCover tx where
  covers := constrained.countP_isCover_le_one
  insert_refused_iff image error := insert_eq_error_iff image error
  insert_refused image error after refused := insert_eq_error refused
  insert_accepted image record after inserted := by
    obtain ⟨rfl, rfl⟩ := insert_eq_ok inserted
    refine ⟨rfl, ?_⟩
    simp [rows, Database.rowsOf]
  assign_member id member := by
    have staged := exists_uncovered_row member
    obtain ⟨after, touched⟩ := touch_of_member ImageRecord.flagged staged
    have assigned : tx.assignExclusiveCover id = (.ok (), after) := touched
    refine ⟨after, assigned, ?_, ?_⟩
    · obtain ⟨rows, -, -⟩ := assignExclusiveCover_eq_ok assigned
      intro row mem
      rw [rows] at mem
      obtain ⟨before, own, rfl⟩ := List.mem_map.mp mem
      exact decide_eq_true_iff
    · intro visits visited
      refine ⟨tx.uncovered.working, Database.updateRows_unflagged constrained visited, ?_⟩
      rw [Database.updateRows_flagged (constrained_uncovered constrained)
        (fun _ mem => isCover_of_uncovered mem) staged]
      rw [touch, if_pos (by simpa using staged)] at touched
      rw [← (Prod.mk.inj touched).2]
  assign_foreign id foreign := by
    have unstaged : ¬tx.uncovered.rows.any (fun row => row.id = id) = true := by
      simpa using fun row mem => foreign_of_uncovered foreign mem
    have refused : (tx.uncovered.touch id ImageRecord.flagged).1 =
        .error (.notMember id tx.parent) := by
      rw [touch, if_neg unstaged]
      rfl
    exact refused
  set_order_member id order member := by
    obtain ⟨after, touched⟩ := touch_of_member (fun row => { row with sortOrder := order }) member
    refine ⟨after, touched, ?_⟩
    rw [Database.updateRows_moved constrained member]
    rw [touch, if_pos (by simpa using member)] at touched
    rw [← (Prod.mk.inj touched).2]
  uncleared := by
    rintro id member ⟨cover, own, covers, differ⟩
    exact Database.updateRows_flagged_of_cover own covers member differ

end DatabaseTx

/-! ## Runs of transactions -/

/-- A transaction from its start to its end. One whose commit is refused counts as dropped. -/
structure Transaction where
  parent : String
  calls : List GalleryCall
  commits : Bool
deriving DecidableEq, Inhabited

namespace Database

/-- The database after a transaction. -/
def carryOut (database : Database) (transaction : Transaction) : Database :=
  if transaction.commits then
    (GalleryStore.commit (GalleryCall.runAll
      (GalleryStore.start database transaction.parent) transaction.calls) database).2
  else database

/-- The database after some transactions. -/
def carryOutAll (database : Database) (transactions : List Transaction) : Database :=
  transactions.foldl carryOut database

theorem Constrained.start {database : Database} (constrained : database.Constrained)
    (parent : String) : (GalleryStore.start database parent : DatabaseTx).working.Constrained :=
  constrained

theorem Constrained.carryOut {database : Database} (constrained : database.Constrained)
    (transaction : Transaction) : (database.carryOut transaction).Constrained := by
  unfold Database.carryOut
  split
  · exact DatabaseTx.constrained_runAll (constrained.start transaction.parent) transaction.calls
  · exact constrained

theorem Constrained.carryOutAll {database : Database} (constrained : database.Constrained)
    (transactions : List Transaction) : (database.carryOutAll transactions).Constrained := by
  induction transactions generalizing database with
  | nil => exact constrained
  | cons transaction transactions ih => exact ih (constrained.carryOut transaction)

end Database

namespace DatabaseTx

/-- At every point of every transaction, whatever was called before in this one and in others,
committed or dropped, no parent has two covers, and the index refuses second covers alone. -/
theorem singleCover_of_constrained {database : Database} (constrained : database.Constrained)
    (transactions : List Transaction) (parent : String) (calls : List GalleryCall) :
    SingleCover (GalleryCall.runAll
      (GalleryStore.start (database.carryOutAll transactions) parent) calls) :=
  singleCover_of_working
    (constrained_runAll ((constrained.carryOutAll transactions).start parent) calls)

/-- A second cover is tried in a first transaction, which then loses its cover, and again after
another one was assigned. -/
theorem singleCover_oneCover :
    GalleryCall.oneCover.Constrained ∧
      SingleCover (GalleryCall.runAll
        (GalleryStore.start (GalleryCall.oneCover.carryOutAll
          [ ⟨"p", [.insert (Manager.fileless true 1), .assignExclusiveCover 9,
              .insert (Manager.fileless false 1)], true⟩,
            ⟨"p", [.delete 1], false⟩ ]) "p")
        [.assignExclusiveCover 2, .insert (Manager.fileless true 2)]) := by
  have constrained : GalleryCall.oneCover.Constrained := ⟨by decide, by decide, by decide⟩
  exact ⟨constrained, singleCover_of_constrained constrained _ "p" _⟩

end DatabaseTx

end ImageGallery
