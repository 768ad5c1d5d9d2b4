import Mathlib
import ImageGallery.Proofs.Identifiers
import ImageGallery.Proofs.Owners

/-!
# What a call counts

Each counter is raised at a place of its own, in the middle of an operation that may still fail or
is done already. Seen from outside, a call raises counters by amounts that its answer tells: one
for its outcome, one for each record that it answered with, and one for a file that it left behind.
Only files that were left out are counted where no answer tells it.

The bytes in saved files are counted by the blob store. They are those of all files in its ledger.
-/

namespace ImageGallery

variable {σ τ ρ β α : Type}

/-! ## What an answer tells -/

/-- The operation that a call is counted as. -/
def Call.operation? : Call → Option Operation
  | .register .. | .list _ => none
  | .upload .. => some .upload
  | .delete .. => some .delete
  | .setCover .. => some .setCover
  | .reorder .. => some .reorder

/-- The amount that a counter is raised by on the way to an answer. -/
def told : Except GalleryError Answer → Counter → Nat
  | .ok (.stored records), counter => if counter = .imagesUploaded then records.length else 0
  | .ok (.deleted outcome), counter =>
    if counter = .blobDeleteFailures ∧ outcome.blobRemoved = false then 1 else 0
  | _, _ => 0

namespace Event

/-- The call was one of an operation, and succeeded or failed. -/
def isOf (operation : Operation) (succeeded : Bool) (event : Event σ β) : Bool :=
  event.call.operation? = some operation && event.answer.toBool = succeeded

/-- The call deleted an image and did not remove its file. -/
def leavesFile (event : Event σ β) : Bool :=
  match event.answer with
  | .ok (.deleted outcome) => !outcome.blobRemoved
  | _ => false

/-- The amount that a call raises a counter by. -/
def rise (event : Event σ β) (counter : Counter) : Nat :=
  told event.answer counter +
    match event.call.operation? with
    | some operation => if counter = .operations operation event.answer.toBool then 1 else 0
    | none => 0

variable (event : Event σ β)

theorem rise_of_other {counter : Counter}
    (other : ∀ operation succeeded, counter ≠ .operations operation succeeded) :
    event.rise counter = told event.answer counter := by
  unfold rise
  split
  · rw [if_neg (other _ _), Nat.add_zero]
  · exact Nat.add_zero _

theorem rise_operations (operation : Operation) (succeeded : Bool) :
    event.rise (.operations operation succeeded) =
      if event.isOf operation succeeded then 1 else 0 := by
  have none : told event.answer (.operations operation succeeded) = 0 := by
    unfold told
    split <;> simp
  rw [rise, none, Nat.zero_add, isOf]
  cases event.call.operation? with
  | none => simp
  | some other => simp [eq_comm (a := operation), eq_comm (a := succeeded)]

theorem rise_imagesUploaded : event.rise .imagesUploaded = (recordsIn event.answer).length := by
  rw [rise_of_other event (by simp)]
  unfold told recordsIn
  split <;> simp_all

theorem rise_blobDeleteFailures :
    event.rise .blobDeleteFailures = if event.leavesFile then 1 else 0 := by
  rw [rise_of_other event (by simp)]
  unfold told leavesFile
  split <;> simp_all

end Event

namespace Manager

/-! ## Raising counters -/

theorem value_tally (manager : Manager σ β) (counter other : Counter) (amount : Nat) :
    (manager.tally counter amount).counters.value other =
      manager.counters.value other + if other = counter then amount else 0 := by
  split
  · rename_i same
    rw [same]
    exact Counters.value_add_self _ _ _
  · rename_i differ
    exact Counters.value_add_of_ne _ _ differ

/-- The counters of the second manager are those of the first, each raised by an amount. Files that
were left out are counted apart. -/
def Raises (before : Manager σ β) (amounts : Counter → Nat) (after : Manager σ β) : Prop :=
  ∀ counter, counter ≠ .imagesTruncated →
    after.counters.value counter = before.counters.value counter + amounts counter

namespace Raises

variable {before middle after : Manager σ β} {amounts others : Counter → Nat}

theorem none (same : after.counters = before.counters) : Raises before (fun _ => 0) after := by
  intro counter _
  rw [same, Nat.add_zero]

theorem trans (first : Raises before amounts middle) (second : Raises middle others after) :
    Raises before (fun counter => amounts counter + others counter) after := by
  intro counter counted
  rw [second counter counted, first counter counted, Nat.add_assoc]

theorem congr (raises : Raises before amounts after)
    (same : ∀ counter, counter ≠ .imagesTruncated → amounts counter = others counter) :
    Raises before others after := by
  intro counter counted
  rw [raises counter counted, same counter counted]

theorem tally (manager : Manager σ β) (counter : Counter) (amount : Nat) :
    Raises manager (fun other => if other = counter then amount else 0)
      (manager.tally counter amount) := by
  intro other _
  exact value_tally manager counter other amount

/-- Files that are left out do not show in the other counters. -/
theorem of_truncated {dropped : Nat}
    (raises : Raises (before.tally .imagesTruncated dropped) amounts after) :
    Raises before amounts after := by
  intro counter counted
  rw [raises counter counted, value_tally, if_neg counted, Nat.add_zero]

/-- The outcome of a call is counted on top of what its answer tells. -/
theorem record {call : Call} {operation : Operation} (wrap : α → Answer)
    {result : Except GalleryError α × Manager σ β} (counted : call.operation? = some operation)
    (raises : Raises before (told (result.1.map wrap)) result.2) :
    Raises before
      (Event.rise ⟨before, call, result.1.map wrap, (Manager.record operation result).2⟩)
      (Manager.record operation result).2 := by
  have outcome : (result.1.map wrap).toBool = result.1.toBool := by
    cases result.1 <;> rfl
  refine (raises.trans (tally _ _ _)).congr fun counter _ => ?_
  rw [Event.rise, counted, outcome]

end Raises

/-! ## Operations -/

section Operations

variable [GalleryTx τ] [GalleryStore σ τ]

omit [GalleryTx τ] in
theorem counters_commitWith (manager : Manager σ β) (tx : τ) (value : α) :
    (manager.commitWith tx value).2.counters = manager.counters := by
  unfold commitWith
  split <;> rfl

variable [BlobStore β]

theorem raises_append (manager : Manager σ β) (parent : ParentRecord) (tx : τ)
    (uploads : List Upload) :
    Raises manager (told ((manager.append parent tx uploads).1.map .stored))
      (manager.append parent tx uploads).2 := by
  unfold append
  split
  · exact .none rfl
  · split
    · exact .none rfl
    · rename_i order _
      rcases writeBatch manager.options parent order 0 (!GalleryTx.hasCover tx) uploads
        { tx, blobs := manager.blobs, clock := manager.clock } with ⟨error | records, batch⟩
      · exact .none rfl
      · have counters := counters_commitWith
          { manager with blobs := batch.blobs, clock := batch.clock } batch.tx records
        dsimp only
        rcases committed : commitWith
          { manager with blobs := batch.blobs, clock := batch.clock } batch.tx records with
          ⟨error | answer, published⟩
        · rw [committed] at counters
          exact .none counters
        · rw [committed] at counters
          refine ((Raises.none counters).trans (.tally _ _ _)).congr fun counter _ => ?_
          exact Nat.zero_add _

theorem raises_receive [ParentStore σ] (manager : Manager σ β) (parentId : String)
    (uploads : List Upload) :
    Raises manager (told ((manager.receive parentId uploads).1.map .stored))
      (manager.receive parentId uploads).2 := by
  unfold receive
  split
  · exact .none rfl
  · split
    · exact .none rfl
    · split
      · exact .none rfl
      · dsimp only
        split
        · exact .none rfl
        · split
          · exact .none rfl
          · split
            · exact (raises_append _ _ _ _).of_truncated
            · exact raises_append _ _ _ _

theorem raises_withdraw (manager : Manager σ β) (parentId : String) (id : Int) :
    Raises manager (told ((manager.withdraw parentId id).1.map .deleted))
      (manager.withdraw parentId id).2 := by
  unfold withdraw
  dsimp only
  split
  · exact .none rfl
  · split
    · exact .none rfl
    · rename_i target _ _ promoted tx _
      have counters := counters_commitWith manager tx ()
      rcases committed : manager.commitWith tx () with ⟨error | answer, published⟩
      · rw [committed] at counters
        exact .none counters
      · rw [committed] at counters
        dsimp only
        rcases BlobStore.delete published.blobs target.storageKey with ⟨removed, blobs⟩
        have kept : Raises manager (fun _ => 0) { published with blobs } := .none counters
        cases removed with
        | true => exact kept.congr fun counter _ => by simp [told, Except.map]
        | false =>
            refine (kept.trans (.tally _ _ _)).congr fun counter _ => ?_
            simp [told, Except.map]

omit [BlobStore β] in
theorem counters_flag (manager : Manager σ β) (parentId : String) (id : Int) :
    (manager.flag parentId id).2.counters = manager.counters := by
  unfold flag
  dsimp only
  split
  · rfl
  · split
    · rfl
    · split
      · rfl
      · exact counters_commitWith _ _ _

omit [BlobStore β] in
theorem counters_rearrange (manager : Manager σ β) (parentId : String)
    (items : List ReorderItem) :
    (manager.rearrange parentId items).2.counters = manager.counters := by
  unfold rearrange
  split
  · rfl
  · dsimp only
    split
    · rfl
    · exact counters_commitWith _ _ _

/-- A call raises the counters by what its answer tells. -/
theorem raises_perform [ParentStore σ] (manager : Manager σ β) (call : Call) :
    Raises manager (manager.event call).rise (manager.perform call).2 := by
  cases call with
  | register parent scope =>
      refine (Raises.none rfl).congr fun counter _ => ?_
      rcases registered : (manager.register parent scope).1 with error | record <;>
        simp [Event.rise, event, perform, answerAs, registered, told, Call.operation?, Except.map]
  | upload parent uploads => exact (raises_receive manager parent uploads).record _ rfl
  | delete parent id => exact (raises_withdraw manager parent id).record _ rfl
  | setCover parent id =>
      refine Raises.record .covered rfl ?_
      refine (Raises.none (counters_flag manager parent id)).congr fun counter _ => ?_
      cases (manager.flag parent id).1 <;> rfl
  | reorder parent items =>
      refine Raises.record .ranked rfl ?_
      refine (Raises.none (counters_rearrange manager parent items)).congr fun counter _ => ?_
      cases (manager.rearrange parent items).1 <;> rfl
  | list parent =>
      refine (Raises.none rfl).congr fun counter _ => ?_
      rcases listed : manager.list parent with error | images <;>
        simp [Event.rise, event, perform, answerAs, listed, told, Call.operation?, Except.map]

end Operations

/-! ## What files keep -/

section Files

variable [BlobStore β]

/-- Something that neither a save nor the removal of a file changes. -/
structure KeptByFiles (holds : β → Prop) : Prop where
  save {blobs after : β} {scope parent : String} {index : Nat} {upload : Upload}
    {result : Except GalleryError SavedBlob}
    (saved : BlobStore.save blobs scope parent index upload = (result, after)) :
    holds blobs → holds after
  delete {blobs after : β} {key : String} {removed : Bool}
    (deleted : BlobStore.delete blobs key = (removed, after)) : holds blobs → holds after

namespace KeptByFiles

variable {holds : β → Prop}

theorem saves (kept : KeptByFiles holds) {parent : ParentRecord} {index : Nat}
    {uploads : List Upload} {blobs after : β} {saved : List SavedBlob}
    (saves : Saves parent index uploads blobs saved after) (start : holds blobs) : holds after := by
  induction saves with
  | nil => exact start
  | cons first rest ih => exact ih (kept.save first start)

theorem halted [ParentStore σ] (kept : KeptByFiles holds) {manager : Manager σ β}
    {parent : String} {error : GalleryError} {blobs : β}
    (halted : Halted manager parent error blobs) (start : holds manager.blobs) : holds blobs := by
  cases halted with
  | early => exact start
  | refused _ saves _ => exact kept.saves saves start
  | unsaved _ saves _ failed => exact kept.save failed (kept.saves saves start)

variable [GalleryTx τ] [TxView τ] [LawfulTx τ] [GalleryStore σ τ] [ParentStore σ] [StoreView σ τ]
  [LawfulStore σ τ]

/-- What saves and removals keep, a call keeps. -/
theorem perform (kept : KeptByFiles holds) {manager : Manager σ β}
    (distinct : ∀ parent, ((StoreView.images manager.store parent).map (·.id)).Nodup)
    (start : holds manager.blobs) (call : Call) : holds (manager.perform call).2.blobs := by
  rcases performed : manager.perform call with ⟨error | answer, after⟩
  · rcases blobs_of_perform_eq_error performed with same | ⟨parent, uploads, rfl, halted⟩
    · exact same ▸ start
    · exact kept.halted halted start
  · obtain ⟨effect, -⟩ := effect_of_perform_eq_ok distinct performed
    cases effect with
    | registered _ _ same => exact same ▸ start
    | stored _ _ stored => exact kept.saves stored.saves start
    | deleted deleted => exact kept.delete deleted.removed.symm start
    | covered _ _ same => exact same ▸ start
    | ranked _ _ same => exact same ▸ start
    | listed same => exact same ▸ start

end KeptByFiles

end Files

end Manager

/-! ## Bytes -/

/-- The number of bytes in files. -/
def totalSize (saved : List SavedBlob) : Nat :=
  (saved.map (·.size)).sum

theorem totalSize_append (first second : List SavedBlob) :
    totalSize (first ++ second) = totalSize first + totalSize second := by
  simp [totalSize]

namespace LocalBlobs

/-- Writing counts the bytes of a file that came to its place. -/
theorem bytesWritten_write {blobs after : LocalBlobs} {scope parent : String} {index : Nat}
    {upload : Upload} {media : MediaType} {result : Except Failure SavedBlob}
    (written : blobs.write scope parent index upload media = (result, after)) :
    after.bytesWritten = blobs.bytesWritten + totalSize result.toOption.toList := by
  rcases write_outcome written with ⟨failure, rfl, bytes_eq, -⟩ | ⟨saved, rfl, bytes_eq, -⟩
  · exact bytes_eq
  · exact bytes_eq

theorem bytesWritten_save {blobs after : LocalBlobs} {scope parent : String} {index : Nat}
    {upload : Upload} {result : Except GalleryError SavedBlob}
    (saved : blobs.save scope parent index upload = (result, after)) :
    after.bytesWritten = blobs.bytesWritten + totalSize result.toOption.toList := by
  rcases save_cases saved with ⟨-, rfl, error, rfl⟩ | ⟨media, -, -, -, -, outcome, written, rfl⟩
  · rfl
  · rw [bytesWritten_write written]
    cases outcome <;> rfl

theorem bytesWritten_delete {blobs after : LocalBlobs} {key : String} {removed : Bool}
    (deleted : blobs.delete key = (removed, after)) : after.bytesWritten = blobs.bytesWritten := by
  unfold delete at deleted
  split at deleted
  · cases deleted
    rfl
  · split at deleted
    · split at deleted <;> cases deleted <;> rfl
    · cases deleted
      rfl

theorem bytesWritten_sweep (blobs : LocalBlobs) :
    blobs.sweep.2.bytesWritten = blobs.bytesWritten := by
  unfold sweep
  dsimp only
  split <;> rfl

end LocalBlobs

namespace Manager

/-- The bytes in the files of a ledger are those that were counted since a state of the store. -/
def Weighed (bytes : Nat) (blobs : Ledger (Faulty LocalBlobs)) : Prop :=
  blobs.inner.inner.bytesWritten = bytes + totalSize blobs.saved

theorem weighed_keptByFiles (bytes : Nat) : KeptByFiles (Weighed bytes) where
  save {blobs after scope parent index upload result} saved start := by
    have entered : after.saved = blobs.saved ++ result.toOption.toList := by
      cases saved
      rfl
    have within : BlobStore.save blobs.inner scope parent index upload = (result, after.inner) := by
      cases saved
      rfl
    rw [Weighed, entered, totalSize_append]
    rcases Faulty.save_cases within with ⟨rfl, same⟩ | below
    · rw [same, start]
      rfl
    · rw [LocalBlobs.bytesWritten_save below, start, Nat.add_assoc]
  delete {blobs after key removed} deleted start := by
    cases deleted
    rw [Weighed, ← start]
    exact LocalBlobs.bytesWritten_delete rfl

end Manager

/-! ## Images -/

/-- A store lists the parents that own images, each of them once. -/
class OwnersListed (σ : Type) {τ : outParam Type} [GalleryStore σ τ] [StoreView σ τ] : Prop where
  distinct (store : σ) : (GalleryStore.galleryParentIds store).Nodup
  listed (store : σ) {parent : String} (owns : StoreView.images store parent ≠ []) :
    parent ∈ GalleryStore.galleryParentIds store

instance : OwnersListed MemoryStore where
  distinct store := nodup_sortedIds _
  listed store parent owns := by
    change store.gallery parent ≠ [] at owns
    refine mem_sortedIds.mpr ?_
    unfold MemoryStore.gallery at owns
    cases found : store.galleries.find? fun entry => entry.1 = parent with
    | none =>
        rw [found] at owns
        exact absurd rfl owns
    | some entry =>
        have named : entry.1 = parent := by simpa using List.find?_some found
        exact named ▸ List.mem_map_of_mem (List.mem_of_find?_eq_some found)

instance : OwnersListed Database where
  distinct database := database.listsOwners.distinct
  listed database parent owns := (database.listsOwners.mem_iff parent).mpr owns

instance [GalleryTx τ] [GalleryStore σ τ] [StoreView σ τ] [OwnersListed σ] :
    OwnersListed (Fallible σ) where
  distinct store := OwnersListed.distinct store.inner
  listed store _ owns := OwnersListed.listed store.inner owns

instance : OwnersListed FileStore where
  distinct store := OwnersListed.distinct store.database
  listed store _ owns := OwnersListed.listed store.database owns

section Totals

variable [GalleryStore σ τ]

/-- The number of images in all galleries. -/
def totalImages (store : σ) : Nat :=
  ((GalleryStore.galleryParentIds store).map fun parent =>
    (GalleryStore.listImages store parent).length).sum

variable [GalleryTx τ] [TxView τ] [ParentStore σ] [StoreView σ τ] [LawfulStore σ τ]
  [OwnersListed σ]

omit [OwnersListed σ] in
theorem listImages_eq_nil_iff {store : σ} {parent : String} :
    GalleryStore.listImages store parent = [] ↔ StoreView.images store parent = [] := by
  have lengths := (arrange_perm (StoreView.images store parent)).length_eq
  rw [LawfulStore.listImages_eq, ← List.length_eq_zero_iff, lengths, List.length_eq_zero_iff]

/-- Parents without images may be counted with the others. -/
theorem totalImages_eq_sum {store : σ} (parents : Finset String)
    (whole : ∀ parent ∈ GalleryStore.galleryParentIds store, parent ∈ parents) :
    totalImages store = ∑ parent ∈ parents, (StoreView.images store parent).length := by
  have lengths : ((GalleryStore.galleryParentIds store).map fun parent =>
      (GalleryStore.listImages store parent).length) =
      (GalleryStore.galleryParentIds store).map fun parent =>
        (StoreView.images store parent).length := by
    refine List.map_congr_left fun parent _ => ?_
    rw [LawfulStore.listImages_eq, (arrange_perm _).length_eq]
  rw [totalImages, lengths, ← List.sum_toFinset _ (OwnersListed.distinct store)]
  refine Finset.sum_subset (fun parent mem => whole parent (List.mem_toFinset.mp mem)) ?_
  intro parent _ unlisted
  rw [List.length_eq_zero_iff]
  by_contra owns
  exact unlisted (List.mem_toFinset.mpr (OwnersListed.listed store owns))

/-- When a draft is published, the total changes by what its gallery changed. -/
theorem Published.totalImages_add {store after : σ} {draft : Draft}
    (published : Published store after draft) :
    totalImages after + (StoreView.images store draft.parent).length =
      totalImages store + draft.images.length := by
  -- All parents of either store, and that of the draft.
  let parents : Finset String := insert draft.parent
    ((GalleryStore.galleryParentIds store).toFinset ∪
      (GalleryStore.galleryParentIds after).toFinset)
  have own : draft.parent ∈ parents := Finset.mem_insert_self _ _
  have before : totalImages store = ∑ parent ∈ parents, (StoreView.images store parent).length :=
    totalImages_eq_sum parents fun parent mem => by simp [parents, mem]
  have later : totalImages after = ∑ parent ∈ parents, (StoreView.images after parent).length :=
    totalImages_eq_sum parents fun parent mem => by simp [parents, mem]
  have others : ∑ parent ∈ parents.erase draft.parent, (StoreView.images after parent).length =
      ∑ parent ∈ parents.erase draft.parent, (StoreView.images store parent).length :=
    Finset.sum_congr rfl fun parent mem => by
      rw [published.images_other parent (Finset.ne_of_mem_erase mem)]
  rw [before, later, ← Finset.add_sum_erase _ _ own, ← Finset.add_sum_erase _ _ own, others,
    published.images_self]
  omega

/-- Stores that hold the same images have the same total. -/
theorem totalImages_congr {store after : σ}
    (same : ∀ parent, StoreView.images after parent = StoreView.images store parent) :
    totalImages after = totalImages store := by
  let parents : Finset String := (GalleryStore.galleryParentIds store).toFinset ∪
    (GalleryStore.galleryParentIds after).toFinset
  have before : totalImages store = ∑ parent ∈ parents, (StoreView.images store parent).length :=
    totalImages_eq_sum parents fun parent mem => by simp [parents, mem]
  have later : totalImages after = ∑ parent ∈ parents, (StoreView.images after parent).length :=
    totalImages_eq_sum parents fun parent mem => by simp [parents, mem]
  rw [before, later]
  exact Finset.sum_congr rfl fun parent _ => by rw [same]

theorem totalImages_of_empty {store : σ} (empty : ∀ parent, StoreView.images store parent = []) :
    totalImages store = 0 := by
  rw [totalImages_eq_sum (GalleryStore.galleryParentIds store).toFinset
    fun parent mem => List.mem_toFinset.mpr mem]
  exact Finset.sum_eq_zero fun parent _ => by rw [empty, List.length_nil]

namespace Manager

variable [LawfulTx τ] [BlobStore β]

/-- A call changes the number of images by those that it stores or deletes. -/
theorem totalImages_perform {manager : Manager σ β}
    (distinct : ∀ parent, ((StoreView.images manager.store parent).map (·.id)).Nodup)
    (call : Call) :
    totalImages (manager.perform call).2.store +
        (if (manager.event call).isOf .delete true then 1 else 0) =
      totalImages manager.store + (recordsIn (manager.perform call).1).length := by
  rcases performed : manager.perform call with ⟨error | answer, after⟩
  · rw [(store_of_perform_eq_error performed).1]
    simp [event, performed, Event.isOf, recordsIn, Except.toBool]
  · obtain ⟨effect, -⟩ := effect_of_perform_eq_ok distinct performed
    rw [event_eq performed]
    cases effect with
    | registered _ store_eq _ =>
        have same : totalImages after.store = totalImages manager.store :=
          totalImages_congr fun parent => by rw [store_eq, LawfulStore.images_withRegistry]
        simp [same, Event.isOf, Call.operation?, recordsIn]
    | stored _ _ stored =>
        have total := stored.published.totalImages_add
        simp [Event.isOf, Call.operation?, recordsIn] at total ⊢
        omega
    | deleted deleted =>
        have total := deleted.published.totalImages_add
        have gallery := (perm_cons_filter (distinct _) deleted.mem).length_eq
        rw [List.length_cons] at gallery
        simp [Event.isOf, Call.operation?, Except.toBool, recordsIn, length_without]
          at total gallery ⊢
        omega
    | covered _ published _ =>
        have total := published.totalImages_add
        simp [Event.isOf, Call.operation?, recordsIn] at total ⊢
        omega
    | ranked _ published _ =>
        have total := published.totalImages_add
        simp [Event.isOf, Call.operation?, recordsIn] at total ⊢
        omega
    | listed same =>
        rw [same]
        simp [Event.isOf, Call.operation?, recordsIn]

end Manager

end Totals

end ImageGallery
