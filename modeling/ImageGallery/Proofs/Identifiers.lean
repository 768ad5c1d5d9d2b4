import ImageGallery.Proofs.Durability
import ImageGallery.Proofs.FileStore
import ImageGallery.Proofs.NewNames

/-!
# Identifiers

No id, key, address or path is ever given twice while the program runs, whatever the clock and the
random numbers say, whatever fails, and however many images are deleted in between. Ids come from
the store, which never takes one back; everything else ends in the name of a file, and names have
ascending times.
-/

namespace ImageGallery

open Disk

variable {σ τ ρ β : Type}

/-! ## What lasts of an image -/

/-- An image without what changes about it: its position and its cover flag. -/
def ImageRecord.lasting (image : ImageRecord) : ImageRecord :=
  { image with isCover := false, sortOrder := 0 }

section Lasting

variable {images : List ImageRecord}

theorem map_lasting_withCover {id : Int} :
    (Manager.withCover images id).map (·.lasting) = images.map (·.lasting) :=
  List.map_map

theorem map_lasting_settle {effective : ImageRecord → Nat} :
    (settle effective images).map (·.lasting) = images.map (·.lasting) :=
  List.map_map

theorem map_lasting_promote {promoted : Option Int} :
    (Manager.promote promoted images).map (·.lasting) = images.map (·.lasting) := by
  cases promoted with
  | none => rfl
  | some id => exact map_lasting_withCover

/-- The images that a deletion leaves are as they were. -/
theorem map_lasting_without_sublist {target : ImageRecord} :
    ((Manager.without images target).map (·.lasting)).Sublist (images.map (·.lasting)) := by
  have ranked (others ranking : List ImageRecord) :
      (others.map fun image => image.atRankIn ranking).map (·.lasting) =
        others.map (·.lasting) := List.map_map
  rw [Manager.without, ranked, map_lasting_promote]
  exact List.filter_sublist.map _

end Lasting

/-! ## Records that were committed -/

/-- The records in the answer to an upload that succeeded. -/
def recordsIn : Except GalleryError Answer → List ImageRecord
  | .ok (.stored records) => records
  | _ => []

/-- All records that were ever committed, in their order. -/
def committed (history : List (Event σ β)) : List ImageRecord :=
  history.flatMap fun event => recordsIn event.answer

theorem committed_append (past present : List (Event σ β)) :
    committed (past ++ present) = committed past ++ committed present :=
  List.flatMap_append

theorem committed_singleton (event : Event σ β) : committed [event] = recordsIn event.answer :=
  List.flatMap_singleton _ _

theorem committed_eq_flatMap (history : List (Event σ β)) :
    committed history = (history.map (·.answer)).flatMap recordsIn :=
  (List.flatMap_map _ _ history).symm

/-! ## Numbered stores -/

/-- The images of a gallery have different ids, and none has a greater one than the last. -/
structure Numbered [StoreView σ τ] (store : σ) : Prop where
  distinct : ∀ parent, ((StoreView.images store parent).map (·.id)).Nodup
  bounded : ∀ parent, ∀ image ∈ StoreView.images store parent,
    image.id ≤ StoreView.lastId store

theorem Numbered.of_empty [StoreView σ τ] {store : σ}
    (empty : ∀ parent, StoreView.images store parent = []) : Numbered store where
  distinct parent := by simp [empty]
  bounded parent := by simp [empty]

/-- Three images of the parent p, two of them at one position, and an image of the parent q. -/
def unevenImages : List ImageRecord :=
  [ { url := "/images/p/1.png", storageKey := "t/p/1.png", isCover := false, sortOrder := 4,
      createdAt := "", id := 1, parentId := "p" },
    { url := "/images/p/2.png", storageKey := "t/p/2.png", isCover := true, sortOrder := 4,
      createdAt := "", id := 2, parentId := "p" },
    { url := "/images/q/3.png", storageKey := "t/q/3.png", isCover := true, sortOrder := 0,
      createdAt := "", id := 3, parentId := "q" },
    { url := "/images/p/4.png", storageKey := "t/p/4.png", isCover := false, sortOrder := 0,
      createdAt := "", id := 4, parentId := "p" } ]

/-- The parents of these images. -/
def unevenParents : Registry :=
  ⟨[⟨"p", "t", ""⟩, ⟨"q", "t", ""⟩]⟩

def Database.uneven : Database where
  parents := unevenParents
  images := unevenImages
  sequence := 4

def MemoryStore.uneven : MemoryStore where
  lastId := 4
  parents := unevenParents
  galleries := ["p", "q"].map fun parent => (parent, unevenImages.filter (·.parentId = parent))

/-- A store holds these images and their parents. -/
structure HoldsUneven [ParentStore σ] [StoreView σ τ] (store : σ) : Prop where
  images_eq (parent : String) : StoreView.images store parent = Database.uneven.rowsOf parent
  lastId_eq : StoreView.lastId store = 4
  registry_eq : ParentStore.registry store = unevenParents

theorem MemoryStore.gallery_uneven (parent : String) :
    MemoryStore.uneven.gallery parent = Database.uneven.rowsOf parent := by
  by_cases first : "p" = parent
  · subst first
    rfl
  by_cases second : "q" = parent
  · subst second
    rfl
  simp [gallery, uneven, Database.rowsOf, Database.uneven, unevenImages, first, second]

theorem MemoryStore.holdsUneven : HoldsUneven MemoryStore.uneven :=
  ⟨gallery_uneven, rfl, rfl⟩

theorem Fallible.holdsUneven : HoldsUneven ({ inner := .uneven } : Fallible Database) :=
  ⟨fun _ => rfl, rfl, rfl⟩

theorem FileStore.holdsUneven {store : FileStore}
    (database : store.database = { inner := .uneven }) : HoldsUneven store where
  images_eq parent := congrArg (fun database => StoreView.images database parent) database
  lastId_eq := congrArg StoreView.lastId database
  registry_eq := congrArg ParentStore.registry database

/-- Every store of these images is numbered. -/
theorem HoldsUneven.numbered [ParentStore σ] [StoreView σ τ] {store : σ}
    (holds : HoldsUneven store) : Numbered store where
  distinct parent := by
    have distinct : (unevenImages.map (·.id)).Nodup := by decide
    rw [holds.images_eq]
    exact distinct.sublist (List.filter_sublist.map _)
  bounded parent image mem := by
    have bounded : ∀ image ∈ unevenImages, image.id ≤ 4 := by decide
    rw [holds.images_eq] at mem
    rw [holds.lastId_eq]
    exact bounded image (List.mem_of_mem_filter mem)

theorem HoldsUneven.distinct [GalleryTx τ] [TxView τ] [GalleryStore σ τ] [ParentStore σ]
    [StoreView σ τ] [LawfulStore σ τ] {store : σ} (holds : HoldsUneven store) (parent : String) :
    ((GalleryStore.listImages store parent).map (·.id)).Nodup := by
  rw [LawfulStore.listImages_eq, ((arrange_perm _).map _).nodup_iff]
  exact holds.numbered.distinct parent

section Published

variable [ParentStore σ] [StoreView σ τ] {store after : σ} {parent : String}
  {images : List ImageRecord}

/-- Images that were there before keep a store numbered. -/
theorem Numbered.published (numbered : Numbered store)
    (published : Published store after ⟨parent, images, StoreView.lastId store⟩)
    (old : (images.map (·.lasting)).Sublist
      ((StoreView.images store parent).map (·.lasting))) :
    Numbered after := by
  have ids : (images.map (·.id)).Sublist ((StoreView.images store parent).map (·.id)) := by
    have mapped := old.map (·.id)
    rwa [List.map_map, List.map_map] at mapped
  constructor
  · intro other
    by_cases own : other = parent
    · rw [own, published.images_self]
      exact (numbered.distinct parent).sublist ids
    · rw [published.images_other other own]
      exact numbered.distinct other
  · intro other image mem
    rw [published.lastId_eq]
    by_cases own : other = parent
    · rw [own, published.images_self] at mem
      obtain ⟨origin, originMem, same⟩ :=
        List.mem_map.mp (ids.subset (List.mem_map_of_mem mem))
      rw [← same]
      exact numbered.bounded parent origin originMem
    · rw [published.images_other other own] at mem
      exact numbered.bounded other image mem

end Published

namespace Manager

/-! ## Steps of a process -/

/-- What happens while a process runs: calls, refusals of the store, and work on the files, which
others may change as well. -/
inductive ProcessStep (ρ : Type) where
  | call (call : Call)
  | refuse (refusals : ρ)
  | upkeep (upkeep : Upkeep)
  | change (change : Tree → Tree)

/-- A step of a process as one of any run. -/
def ProcessStep.toStep : ProcessStep ρ → Step ρ (Faulty LocalBlobs)
  | .call operation => .call operation
  | .refuse refusals => .refuse refusals
  | .upkeep work => .disturb work.apply
  | .change edit => .disturb fun blobs =>
      { blobs with inner := { blobs.inner with tree := edit blobs.inner.tree } }

/-! ## New records -/

section New

variable [GalleryTx τ] [GalleryStore σ τ] [ParentStore σ] [StoreView σ τ] [BlobStore β]
  {manager after : Manager σ β} {parent : ParentRecord} {taken : List Upload}
  {saved : List SavedBlob} {records : List ImageRecord} {order : UInt32}

/-- New records have ascending ids. -/
theorem Stored.ascending (stored : Stored manager after parent taken saved records order) :
    records.Pairwise fun earlier later => earlier.id < later.id := by
  have ids : (records.map (·.id)).Pairwise (· < ·) := by
    rw [stored.records_eq, map_id_recordsOf, List.pairwise_map]
    exact (List.pairwise_lt_range' (s := 1) (n := saved.length)).imp fun less => by omega
  rwa [List.pairwise_map] at ids

/-- New images keep a store numbered. -/
theorem Stored.numbered (stored : Stored manager after parent taken saved records order)
    (numbered : Numbered manager.store) : Numbered after.store := by
  constructor
  · intro other
    by_cases own : other = parent.id
    · rw [own, stored.published.images_self, List.map_append, List.nodup_append]
      refine ⟨numbered.distinct parent.id, stored.distinct, ?_⟩
      intro old oldMem new newMem
      obtain ⟨image, imageMem, rfl⟩ := List.mem_map.mp oldMem
      obtain ⟨record, recordMem, rfl⟩ := List.mem_map.mp newMem
      have bound := numbered.bounded parent.id image imageMem
      have later := (stored.id_bounds recordMem).1
      omega
    · rw [stored.published.images_other other own]
      exact numbered.distinct other
  · intro other image mem
    have old (mem : image ∈ StoreView.images manager.store other) :
        image.id ≤ StoreView.lastId after.store := by
      have bound := numbered.bounded other image mem
      rw [stored.published.lastId_eq]
      dsimp only
      omega
    by_cases own : other = parent.id
    · subst own
      rw [stored.published.images_self] at mem
      rcases List.mem_append.mp mem with known | new
      · exact old known
      · exact (stored.id_bounds new).2
    · rw [stored.published.images_other other own] at mem
      exact old mem

end New

/-! ## The invariant -/

section Accounted

variable [StoreView σ τ]

/-- All records that were committed since a first state have ids of their own, above those of the
images that were there at first, and go back to saved files of their own, after which their keys
and addresses are named. All images of now are among the first ones or were committed. -/
structure Accounted (first : σ) (history : List (Event σ (Ledger (Faulty LocalBlobs))))
    (manager : Manager σ (Ledger (Faulty LocalBlobs))) : Prop where
  numbered : Numbered manager.store
  orderly : manager.blobs.Orderly
  grown : StoreView.lastId first ≤ StoreView.lastId manager.store
  ascending : (committed history).Pairwise fun earlier later => earlier.id < later.id
  fresh : ∀ record ∈ committed history, StoreView.lastId first < record.id
  reached : ∀ record ∈ committed history, record.id ≤ StoreView.lastId manager.store
  keyed : ((committed history).map (·.storageKey)).Sublist
    (manager.blobs.saved.map (·.storageKey))
  addressed : ∀ record ∈ committed history,
    Text.lastName record.url = Text.lastName record.storageKey
  rooted : ∀ parent, ∀ image ∈ StoreView.images manager.store parent, ∃ origin,
    (origin ∈ StoreView.images first parent ∨ origin ∈ committed history) ∧
      origin.lasting = image.lasting

variable {first : σ} {past present : List (Event σ (Ledger (Faulty LocalBlobs)))}
  {manager after : Manager σ (Ledger (Faulty LocalBlobs))}

theorem Accounted.start {manager : Manager σ (Ledger (Faulty LocalBlobs))}
    (numbered : Numbered manager.store) (orderly : manager.blobs.Orderly) :
    Accounted manager.store [] manager where
  numbered := numbered
  orderly := orderly
  grown := Int.le_refl _
  ascending := .nil
  fresh _ mem := absurd mem List.not_mem_nil
  reached _ mem := absurd mem List.not_mem_nil
  keyed := List.nil_sublist _
  addressed _ mem := absurd mem List.not_mem_nil
  rooted _ image mem := ⟨image, .inl mem, rfl⟩

/-- Events that commit nothing and leave images that were there keep the account. -/
theorem Accounted.idle (accounted : Accounted first past manager) (idle : committed present = [])
    (numbered : Numbered after.store) (orderly : after.blobs.Orderly)
    (entered : manager.blobs.saved <+: after.blobs.saved)
    (sameLast : StoreView.lastId after.store = StoreView.lastId manager.store)
    (old : ∀ parent, ((StoreView.images after.store parent).map (·.lasting)).Sublist
      ((StoreView.images manager.store parent).map (·.lasting))) :
    Accounted first (past ++ present) after := by
  have same : committed (past ++ present) = committed past := by
    rw [committed_append, idle, List.append_nil]
  constructor
  · exact numbered
  · exact orderly
  · rw [sameLast]
    exact accounted.grown
  · rw [same]
    exact accounted.ascending
  · rw [same]
    exact accounted.fresh
  · rw [same, sameLast]
    exact accounted.reached
  · rw [same]
    exact accounted.keyed.trans (entered.sublist.map _)
  · rw [same]
    exact accounted.addressed
  · rw [same]
    intro parent image mem
    obtain ⟨kept, keptMem, sameKept⟩ :=
      List.mem_map.mp ((old parent).subset (List.mem_map_of_mem mem))
    obtain ⟨origin, known, sameOrigin⟩ := accounted.rooted parent kept keptMem
    exact ⟨origin, known, sameOrigin.trans sameKept⟩

/-- Events that commit nothing and leave the images as they are keep the account. -/
theorem Accounted.unmoved (accounted : Accounted first past manager)
    (idle : committed present = []) (orderly : after.blobs.Orderly)
    (entered : manager.blobs.saved <+: after.blobs.saved)
    (same : StoreView.images after.store = StoreView.images manager.store)
    (sameLast : StoreView.lastId after.store = StoreView.lastId manager.store) :
    Accounted first (past ++ present) after := by
  refine accounted.idle idle ⟨?_, ?_⟩ orderly entered sameLast ?_
  · rw [same]
    exact accounted.numbered.distinct
  · rw [same, sameLast]
    exact accounted.numbered.bounded
  · intro parent
    rw [same]

variable [ParentStore σ]

/-- A call that publishes images that were there keeps the account. -/
theorem Accounted.published (accounted : Accounted first past manager)
    (idle : committed present = []) {parent : String} {images : List ImageRecord}
    (published : Published manager.store after.store
      ⟨parent, images, StoreView.lastId manager.store⟩)
    (old : (images.map (·.lasting)).Sublist
      ((StoreView.images manager.store parent).map (·.lasting)))
    (orderly : after.blobs.Orderly) (entered : manager.blobs.saved <+: after.blobs.saved) :
    Accounted first (past ++ present) after := by
  refine accounted.idle idle (accounted.numbered.published published old) orderly entered
    published.lastId_eq ?_
  intro other
  by_cases own : other = parent
  · rw [own, published.images_self]
    exact old
  · rw [published.images_other other own]

/-! ## Uploads -/

theorem exists_saved_of_mem_recordsOf {options : GalleryOptions} {parent : ParentRecord}
    {order : UInt32} {index : Nat} {cover : Bool} {lastId : Int} {clock : Clock}
    {saved : List SavedBlob} {record : ImageRecord}
    (mem : record ∈ recordsOf options parent order index cover lastId clock saved) :
    ∃ blob ∈ saved, record.url = options.imageUrl parent.id blob.filename ∧
      record.storageKey = blob.storageKey := by
  induction saved generalizing index cover lastId clock with
  | nil => cases mem
  | cons blob others ih =>
      rw [recordsOf] at mem
      rcases List.mem_cons.mp mem with rfl | later
      · exact ⟨blob, List.mem_cons_self, rfl, rfl⟩
      · obtain ⟨other, otherMem, addressed, keyed⟩ := ih later
        exact ⟨other, List.mem_cons_of_mem _ otherMem, addressed, keyed⟩

/-- The address of an image ends in the name of its file. -/
theorem lastName_imageUrl {options : GalleryOptions} {parent filename : String}
    (whole : '/' ∉ filename.toList) :
    Text.lastName (options.imageUrl parent filename) = filename :=
  Text.lastName_slash whole

section Stored

variable [GalleryTx τ] [GalleryStore σ τ] {parent : ParentRecord} {taken : List Upload}
  {saved : List SavedBlob} {records : List ImageRecord} {order : UInt32}

/-- The records of an upload are accounted for. -/
theorem Accounted.stored (accounted : Accounted first past manager)
    (stored : Stored manager after parent taken saved records order)
    (new : committed present = records) : Accounted first (past ++ present) after := by
  obtain ⟨orderly, entered⟩ := accounted.orderly.saves stored.saves
  have all : committed (past ++ present) = committed past ++ records := by
    rw [committed_append, new]
  have grown : StoreView.lastId manager.store ≤ StoreView.lastId after.store := by
    rw [stored.published.lastId_eq]
    dsimp only
    omega
  have named (blob : SavedBlob) (mem : blob ∈ saved) : blob.Named :=
    orderly.named blob (entered ▸ List.mem_append_right _ mem)
  constructor
  · exact stored.numbered accounted.numbered
  · exact orderly
  · exact Int.le_trans accounted.grown grown
  · rw [all, List.pairwise_append]
    refine ⟨accounted.ascending, stored.ascending, ?_⟩
    intro earlier earlierMem later laterMem
    exact Int.lt_of_le_of_lt (accounted.reached earlier earlierMem) (stored.id_bounds laterMem).1
  · rw [all]
    intro record mem
    rcases List.mem_append.mp mem with old | new
    · exact accounted.fresh record old
    · exact Int.lt_of_le_of_lt accounted.grown (stored.id_bounds new).1
  · rw [all]
    intro record mem
    rcases List.mem_append.mp mem with old | new
    · exact Int.le_trans (accounted.reached record old) grown
    · exact (stored.id_bounds new).2
  · have keys : records.map (·.storageKey) = saved.map (·.storageKey) := by
      rw [stored.records_eq, map_storageKey_recordsOf]
    rw [all, entered, List.map_append, List.map_append, keys]
    exact accounted.keyed.append (List.Sublist.refl _)
  · rw [all]
    intro record mem
    rcases List.mem_append.mp mem with old | new
    · exact accounted.addressed record old
    · rw [stored.records_eq] at new
      obtain ⟨blob, blobMem, addressed, keyed⟩ := exists_saved_of_mem_recordsOf new
      obtain ⟨draw, index, media, made⟩ := (named blob blobMem).made
      have whole : '/' ∉ blob.filename.toList := made ▸ Blob.entryName_filename.whole
      rw [addressed, keyed, lastName_imageUrl whole, (named blob blobMem).key]
  · rw [all]
    intro other image mem
    have old (mem : image ∈ StoreView.images manager.store other) : ∃ origin,
        (origin ∈ StoreView.images first other ∨ origin ∈ committed past ++ records) ∧
          origin.lasting = image.lasting := by
      obtain ⟨origin, known, same⟩ := accounted.rooted other image mem
      exact ⟨origin, known.imp_right (List.mem_append_left _), same⟩
    by_cases own : other = parent.id
    · subst own
      rw [stored.published.images_self] at mem
      rcases List.mem_append.mp mem with known | new
      · exact old known
      · exact ⟨image, .inr (List.mem_append_right _ new), rfl⟩
    · rw [stored.published.images_other other own] at mem
      exact old mem

end Stored

/-! ## Runs -/

variable [GalleryTx τ] [TxView τ] [LawfulTx τ] [GalleryStore σ τ] [LawfulStore σ τ]

/-- A call that fails commits nothing, though it may have saved files. -/
theorem Accounted.failed (accounted : Accounted first past manager) {call : Call}
    {error : GalleryError} (failed : manager.perform call = (.error error, after)) :
    Accounted first (past ++ [⟨manager, call, .error error, after⟩]) after := by
  have sameStore := (store_of_perform_eq_error failed).1
  obtain ⟨orderly, entered⟩ : after.blobs.Orderly ∧ manager.blobs.saved <+: after.blobs.saved := by
    rcases blobs_of_perform_eq_error failed with sameBlobs | ⟨parent, uploads, -, halted⟩
    · rw [sameBlobs]
      exact ⟨accounted.orderly, List.prefix_refl _⟩
    · exact accounted.orderly.halted halted
  apply accounted.unmoved (committed_singleton _) orderly entered
  · rw [sameStore]
  · rw [sameStore]

/-- Every call keeps the account. -/
theorem Accounted.call (accounted : Accounted first past manager) (call : Call) :
    Accounted first (past ++ [manager.event call]) (manager.perform call).2 := by
  rcases performed : manager.perform call with ⟨error | answer, after⟩
  · rw [event_eq performed]
    exact accounted.failed performed
  · obtain ⟨effect, -⟩ := effect_of_perform_eq_ok accounted.numbered.distinct performed
    rw [event_eq performed]
    have unmoved (sameBlobs : after.blobs = manager.blobs) :
        after.blobs.Orderly ∧ manager.blobs.saved <+: after.blobs.saved := by
      rw [sameBlobs]
      exact ⟨accounted.orderly, List.prefix_refl _⟩
    cases effect with
    | registered _ storeEq blobsEq =>
        obtain ⟨orderly, entered⟩ := unmoved blobsEq
        apply accounted.unmoved (committed_singleton _) orderly entered
        · rw [storeEq, LawfulStore.images_withRegistry]
        · rw [storeEq, LawfulStore.lastId_withRegistry]
    | stored _ _ stored => exact accounted.stored stored (committed_singleton _)
    | deleted deleted =>
        have blobsEq : after.blobs = _ := congrArg Prod.snd deleted.removed
        apply accounted.published (committed_singleton _) deleted.published
        · exact map_lasting_without_sublist
        · rw [blobsEq]
          exact accounted.orderly.delete _
        · rw [blobsEq]
          exact List.prefix_refl _
    | covered _ published blobsEq =>
        obtain ⟨orderly, entered⟩ := unmoved blobsEq
        apply accounted.published (committed_singleton _) published _ orderly entered
        rw [map_lasting_withCover]
    | ranked _ published blobsEq =>
        obtain ⟨orderly, entered⟩ := unmoved blobsEq
        apply accounted.published (committed_singleton _) published _ orderly entered
        rw [map_lasting_settle]
    | listed same =>
        rw [same]
        exact accounted.unmoved (committed_singleton _) accounted.orderly (List.prefix_refl _)
          rfl rfl

variable [Refusing σ ρ] [LawfulRefusing σ τ ρ]

/-- Every step keeps the account. -/
theorem Accounted.step (accounted : Accounted first past manager) (step : ProcessStep ρ) :
    Accounted first (past ++ manager.events step.toStep.onLedger)
      (manager.step step.toStep.onLedger) := by
  cases step with
  | call operation => exact accounted.call operation
  | refuse refusals =>
      apply accounted.unmoved rfl
      · exact accounted.orderly
      · exact List.prefix_refl _
      · exact LawfulRefusing.images_refuse _ _
      · exact LawfulRefusing.lastId_refuse _ _
  | upkeep work =>
      refine accounted.unmoved rfl (accounted.orderly.unnamed rfl ?_) (List.prefix_refl _) rfl rfl
      cases work with
      | sweep => exact LocalBlobs.names_sweep _
      | failSaves failAfter => rfl
  | change edit =>
      exact accounted.unmoved rfl (accounted.orderly.unnamed rfl rfl) (List.prefix_refl _) rfl rfl

/-- Every run keeps the account. -/
theorem Accounted.run (accounted : Accounted first past manager) (steps : List (ProcessStep ρ)) :
    Accounted first (past ++ manager.history ((steps.map ProcessStep.toStep).map .onLedger))
      (manager.run ((steps.map ProcessStep.toStep).map .onLedger)) := by
  induction steps generalizing past manager with
  | nil =>
      rw [List.map_nil, List.map_nil, history, List.append_nil]
      exact accounted
  | cons step steps ih =>
      rw [List.map_cons, List.map_cons, history, ← List.append_assoc]
      exact ih (accounted.step step)

end Accounted

/-! ## What a run never repeats -/

/-- What can be said of identifiers after a run, from outside. -/
structure Unrepeated [GalleryTx τ] [GalleryStore σ τ] [ParentStore σ] [Refusing σ ρ]
    (manager : Manager σ (Faulty LocalBlobs)) (steps : List (Step ρ (Faulty LocalBlobs))) :
    Prop where
  /-- A record that was committed later has the greater id. -/
  ids : (committed (manager.history steps)).Pairwise fun earlier later => earlier.id < later.id
  keys : ((committed (manager.history steps)).map (·.storageKey)).Nodup
  urls : ((committed (manager.history steps)).map (·.url)).Nodup
  /-- No save that succeeded wrote to the path of an earlier one. -/
  paths : ((manager.filesSaved steps).map (·.path)).Nodup
  /-- Nor is the path of a saved file ever that of a temporary one. -/
  spared : ∀ saved ∈ manager.filesSaved steps, ∀ (directory : Path) (draw : Blob.Draw),
    '/' ∉ draw.temporary.toList →
      saved.path ≠ (directory.join [Blob.temporaryName draw]).display
  /-- The records go back to saved files, in their order. -/
  keyed : ((committed (manager.history steps)).map (·.storageKey)).Sublist
    ((manager.filesSaved steps).map (·.storageKey))
  /-- Images that were there at first have smaller ids. -/
  older : ∀ parent, ∀ image ∈ GalleryStore.listImages manager.store parent,
    ∀ record ∈ committed (manager.history steps), image.id < record.id
  /-- Nothing is listed that was not there at first or committed. -/
  rooted : ∀ parent, ∀ image ∈ GalleryStore.listImages (manager.run steps).store parent, ∃ origin,
    (origin ∈ GalleryStore.listImages manager.store parent ∨
      origin ∈ committed (manager.history steps)) ∧
      origin.lasting = image.lasting

section Unrepeated

variable [GalleryTx τ] [TxView τ] [GalleryStore σ τ] [ParentStore σ] [StoreView σ τ]
  [LawfulStore σ τ] [Refusing σ ρ]

omit [Refusing σ ρ] in
theorem mem_listImages_iff {store : σ} {parent : String} {image : ImageRecord} :
    image ∈ GalleryStore.listImages store parent ↔ image ∈ StoreView.images store parent := by
  rw [LawfulStore.listImages_eq]
  exact (arrange_perm _).mem_iff

omit [Refusing σ ρ] in
theorem nodup_listImages_iff {store : σ} {parent : String} :
    ((GalleryStore.listImages store parent).map (·.id)).Nodup ↔
      ((StoreView.images store parent).map (·.id)).Nodup := by
  rw [LawfulStore.listImages_eq]
  exact ((arrange_perm _).map _).nodup_iff

/-- A run repeats nothing if all is accounted for in the run with a ledger. -/
theorem Accounted.unrepeated {manager : Manager σ (Faulty LocalBlobs)}
    {steps : List (Step ρ (Faulty LocalBlobs))} (numbered : Numbered manager.store)
    (accounted : Accounted manager.store (manager.withLedger.history (steps.map .onLedger))
      (manager.withLedger.run (steps.map .onLedger))) :
    Unrepeated manager steps := by
  have same := sameButLedger_withLedger manager
  have records : committed (manager.withLedger.history (steps.map .onLedger)) =
      committed (manager.history steps) := by
    rw [committed_eq_flatMap, committed_eq_flatMap, same.history steps]
  have store := (same.run steps).store_eq
  have keyNames : (manager.filesSaved steps).map (fun saved => Text.lastName saved.storageKey) =
      (manager.filesSaved steps).map (·.filename) :=
    List.map_congr_left fun saved mem => (accounted.orderly.named saved mem).key
  have keyed := accounted.keyed
  rw [records] at keyed
  have lastNames : ((committed (manager.history steps)).map fun record =>
      Text.lastName record.storageKey).Nodup := by
    have named := keyed.map Text.lastName
    rw [List.map_map, List.map_map] at named
    apply List.Nodup.sublist named
    exact keyNames ▸ accounted.orderly.nodup_filenames
  constructor
  · rw [← records]
    exact accounted.ascending
  · apply List.Nodup.of_map Text.lastName
    rw [List.map_map]
    exact lastNames
  · apply List.Nodup.of_map Text.lastName
    have addressed : (committed (manager.history steps)).map (fun record =>
          Text.lastName record.url) =
        (committed (manager.history steps)).map fun record => Text.lastName record.storageKey :=
      List.map_congr_left fun record mem => accounted.addressed record (records ▸ mem)
    rw [List.map_map]
    exact addressed ▸ lastNames
  · exact accounted.orderly.nodup_paths
  · intro saved mem directory draw whole
    exact accounted.orderly.path_ne_temporary mem directory whole
  · exact keyed
  · intro parent image mem record recordMem
    rw [mem_listImages_iff] at mem
    exact Int.lt_of_le_of_lt (numbered.bounded parent image mem)
      (accounted.fresh record (records ▸ recordMem))
  · intro parent image mem
    simp only [mem_listImages_iff, ← store, ← records] at mem ⊢
    exact accounted.rooted parent image mem

/-- A run from a numbered store repeats nothing. -/
theorem unrepeated_run [LawfulTx τ] [LawfulRefusing σ τ ρ]
    (manager : Manager σ (Faulty LocalBlobs)) (numbered : Numbered manager.store)
    (steps : List (ProcessStep ρ)) : Unrepeated manager (steps.map ProcessStep.toStep) := by
  have started : Accounted manager.withLedger.store [] manager.withLedger :=
    .start numbered (.empty manager.blobs)
  exact (started.run steps).unrepeated numbered

end Unrepeated

/-- A manager of a store and of an empty directory. -/
def ofStore (store : σ) : Manager σ (Faulty LocalBlobs) :=
  { store, blobs := emptyDirectory, options := {}, clock := { reading := fun _ => 0 } }

/-- A manager of a database in a file. -/
def inFile (store : FileStore) (options : GalleryOptions) (blobs : β) (clock : Clock) :
    Manager FileStore β :=
  { store, blobs, options, clock }

/-- In memory, in a database and in a file that is opened again at any time, no id, key, address or
path is given twice in any run of a process, whatever is called in whatever order, whatever fails
or happens to the files, and whatever clock and random numbers say. -/
theorem unrepeated_of_everyStore (options : GalleryOptions) (blobs : Faulty LocalBlobs)
    (clock : Clock) :
    (∀ steps : List (ProcessStep Bool),
      Unrepeated (inMemory options blobs clock) (steps.map ProcessStep.toStep)) ∧
    (∀ (refusals : Refusals) (steps : List (ProcessStep Refusals)),
      Unrepeated (inDatabase refusals options blobs clock) (steps.map ProcessStep.toStep)) ∧
    ∀ store : FileStore, Numbered store → ∀ steps : List (ProcessStep FileStore.Order),
      Unrepeated (inFile store options blobs clock) (steps.map ProcessStep.toStep) := by
  constructor
  · intro steps
    exact unrepeated_run (inMemory options blobs clock) (.of_empty fun _ => rfl) steps
  · constructor
    · intro refusals steps
      exact unrepeated_run (inDatabase refusals options blobs clock) (.of_empty fun _ => rfl) steps
    · intro store numbered steps
      exact unrepeated_run (inFile store options blobs clock) numbered steps

/-- The place of a file in the root, as long as it is no link. -/
theorem placeOf?_galleryFile {tree : Tree}
    (there : ∃ entry, Connection.entryIn? tree [] "gallery.db" = .ok entry ∧
      ∀ target, entry ≠ some (.link target)) :
    Connection.placeOf? tree "/gallery.db" = some ["gallery.db"] := by
  obtain ⟨entry, looked, solid⟩ := there
  have split : Path.split "/gallery.db" = ["gallery.db"] := by
    simp [Path.split, Text.fields]
  have absolute : Path.isAbsolute "/gallery.db" = true := by
    simp [Path.isAbsolute]
  rw [Connection.placeOf?, split, if_pos absolute, Connection.placeFrom, if_neg (by decide),
    if_neg (by decide), if_neg (by decide), looked]
  split
  · rename_i impossible
    cases impossible
  · rename_i target linked
    cases linked
    exact absurd rfl (solid target)
  · rw [Connection.placeFrom]
    decide

/-- In an empty tree a new database is made, and can be opened again while it is held. -/
theorem openAt_galleryFile : ∃ after, Connection.openAt "/gallery.db" {} =
    (.ok { place := some ["gallery.db"] }, after) ∧ ∃ connection tree,
      Connection.openAt "/gallery.db" (Connection.hold { place := some ["gallery.db"] } after).2 =
        (.ok connection, tree) := by
  have named : Location.ofText "/gallery.db" = .ok { path := "/gallery.db" } := by
    decide
  unfold Connection.openAt
  rw [named]
  dsimp only
  rw [placeOf?_galleryFile ⟨none, by decide, by simp⟩]
  refine ⟨_, rfl, ?_⟩
  rw [placeOf?_galleryFile ⟨some _, rfl, by simp⟩]
  exact ⟨_, _, rfl⟩

/-- The newest of two images is deleted, and another one comes in after the file was opened
again. -/
def reopenedSteps : List (ProcessStep FileStore.Order) :=
  [ .call (.register "p" "s"),
    .call (.upload "p" [.ofHeld "a.png" none [1], .ofHeld "b.png" none [2]]),
    .call (.delete "p" 2),
    .refuse .reopen,
    .upkeep .sweep,
    .call (.upload "p" [.ofHeld "c.png" none [3]]) ]

theorem unrepeated_reopenedSteps :
    ∃ store : FileStore, store.connection.database = {} ∧ Numbered store ∧
      (∃ connection tree, Connection.openAt store.text store.tree = (.ok connection, tree)) ∧
      Unrepeated (inFile store {} emptyDirectory { reading := fun _ => 0 })
        (reopenedSteps.map ProcessStep.toStep) := by
  obtain ⟨after, opened, again⟩ := openAt_galleryFile
  have clear : ∀ side ∈ Connection.sides ["gallery.db"], Connection.Solid {} side := by
    intro side mem target linked
    cases side with
    | nil => cases linked
    | cons name names => cases linked
  obtain ⟨store, text, connection, tree⟩ := FileStore.exists_of_openAt opened rfl rfl clear
  have database : store.connection.database = {} := by
    rw [connection]
    rfl
  have numbered : Numbered store := .of_empty fun parent => by
    change store.connection.database.rowsOf parent = []
    rw [database]
    rfl
  refine ⟨store, database, numbered, ?_,
    (unrepeated_of_everyStore {} emptyDirectory { reading := fun _ => 0 }).2.2 store numbered
      reopenedSteps⟩
  rw [text, tree]
  exact again

end Manager

end ImageGallery
