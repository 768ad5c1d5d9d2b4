import Mathlib.Algebra.BigOperators.Group.Finset.Basic
import ImageGallery.Audit
import ImageGallery.Blob.Local
import ImageGallery.Proofs.Owners

/-!
# Audits are exact

A gallery is sound when its parent is registered, it has at most one cover, its positions are
`0, 1, …`, each once, and the file of every image stands in the blob store. The audit is clean
exactly when every gallery is sound. Otherwise each parent is charged once with each of the first
three faults that its gallery has, and once for each image without a file; nobody else is charged.

The audit compares the positions in display order with the ranks in 32 bits. A gallery with more
images than that cannot pass, since a rank that starts again from zero would have to stand after a
greater position.
-/

namespace ImageGallery

/-- The number of faults of a kind that a parent is charged with. -/
def AuditReport.tally (report : AuditReport) (parent kind : String) : Nat :=
  report.violations.countP fun violation =>
    violation.parentId = parent && violation.fault.label = kind

namespace Audit

variable {σ τ β : Type} [GalleryTx τ] [TxView τ] [GalleryStore σ τ] [ParentStore σ]
  [StoreView σ τ] [BlobStore β]

/-- Somebody is registered under a parent's id. -/
def Registered (store : σ) (parent : String) : Prop :=
  ∃ record ∈ (ParentStore.registry store).records, record.id = parent

instance (store : σ) (parent : String) : Decidable (Registered store parent) :=
  inferInstanceAs (Decidable (∃ record ∈ _, _))

/-- Nothing is wrong with a parent's gallery. -/
structure Sound (store : σ) (blobs : β) (parent : String) : Prop where
  registered : Registered store parent
  singleCover : (StoreView.images store parent).countP (·.isCover) ≤ 1
  dense : Dense (StoreView.images store parent)
  stored : ∀ image ∈ StoreView.images store parent,
    BlobStore.contains blobs image.storageKey = true

instance (images : List ImageRecord) : Decidable (Dense images) :=
  inferInstanceAs (Decidable (List.Perm _ _))

/-- A report says about each parent what is wrong with its gallery, and about nobody more. -/
structure Exact (store : σ) (blobs : β) (report : AuditReport) : Prop where
  isClean_iff : report.isClean = true ↔
    ∀ parent, StoreView.images store parent ≠ [] → Sound store blobs parent
  unknownParent : ∀ parent, report.tally parent "unknown_parent" =
    if StoreView.images store parent ≠ [] ∧ ¬Registered store parent then 1 else 0
  multipleCovers : ∀ parent, report.tally parent "multiple_covers" =
    if 2 ≤ (StoreView.images store parent).countP (·.isCover) then 1 else 0
  sparseOrder : ∀ parent, report.tally parent "sparse_order" =
    if Dense (StoreView.images store parent) then 0 else 1
  /-- Each image without a file is named once, with its key. -/
  missingBlob : ∀ parent,
    (report.violations.filter fun violation =>
        violation.parentId = parent && violation.fault.label = "missing_blob").Perm
      (((StoreView.images store parent).filter fun image =>
          !BlobStore.contains blobs image.storageKey).map fun image =>
        ⟨parent, .missingBlob image.id image.storageKey⟩)
  /-- The galleries are those of the parents that own images. -/
  totals : ∃ owners : Finset String,
    (∀ parent, parent ∈ owners ↔ StoreView.images store parent ≠ []) ∧
      report.galleries = owners.card ∧
      report.images = ∑ parent ∈ owners, (StoreView.images store parent).length

/-! ## Ranks in 32 bits -/

/-- A rank is the rank in 32 bits, or the next rank would be zero after a greater position. -/
theorem isDense_iff {rank : Nat} {images : List ImageRecord} (small : rank < UInt32.size)
    (ranked : (images.map fun image => image.sortOrder.toNat).Pairwise (· ≤ ·)) :
    isDense rank images = true ↔
      (images.map fun image => image.sortOrder.toNat) = List.range' rank images.length := by
  induction images generalizing rank with
  | nil => simp [isDense]
  | cons image images ih =>
      have start : image.sortOrder = rank.toUInt32 ↔ image.sortOrder.toNat = rank := by
        rw [← UInt32.toNat_inj]
        have same : rank.toUInt32.toNat = rank := UInt32.toNat_ofNat_of_lt' small
        rw [same]
      rw [List.map_cons, List.pairwise_cons] at ranked
      rw [isDense, Bool.and_eq_true, decide_eq_true_eq, start, List.map_cons, List.length_cons,
        List.range'_succ, List.cons_eq_cons]
      apply and_congr_right
      intro first
      by_cases last : rank + 1 < UInt32.size
      · exact ih last ranked.2
      · cases images with
        | nil => simp [isDense]
        | cons next images =>
            have later := ranked.1 next.sortOrder.toNat (by simp)
            have bound := next.sortOrder.toNat_lt
            have size : UInt32.size = 2 ^ 32 := rfl
            have wrapped : (rank + 1).toUInt32.toNat = 0 := by
              have overflow : rank + 1 = 2 ^ 32 := by omega
              rw [overflow]
              rfl
            apply iff_of_false
            · intro dense
              rw [isDense, Bool.and_eq_true, decide_eq_true_eq] at dense
              rw [dense.1] at later
              omega
            · rw [List.map_cons, List.length_cons, List.range'_succ, List.cons_eq_cons]
              intro counted
              omega

theorem isDense_arrange_iff (images : List ImageRecord) :
    isDense 0 (ImageRecord.arrange images) = true ↔ Dense images := by
  rw [isDense_iff (by decide) (pairwise_sortOrder_arrange images), (arrange_perm images).length_eq,
    ← List.range_eq_range', map_sortOrder_arrange_iff]

/-! ## What a parent is charged with -/

/-- What is wrong with a parent's gallery; there is nothing wrong with an empty one. -/
def charges (store : σ) (blobs : β) (parent : String) : List GalleryFault :=
  if StoreView.images store parent = [] then []
  else
    parentFaults store parent (GalleryStore.listImages store parent) ++
      galleryFaults (BlobStore.contains blobs) (GalleryStore.listImages store parent)

omit [GalleryTx τ] [TxView τ] in
theorem parentFaults_eq (store : σ) (parent : String) (images : List ImageRecord) :
    parentFaults store parent images =
      if Registered store parent then [] else [.unknownParent images.length] := by
  unfold parentFaults Registry.find?
  cases found : (ParentStore.registry store).records.find? fun record => record.id = parent with
  | none =>
      have unnamed := List.find?_eq_none.mp found
      rw [if_neg]
      rintro ⟨record, mem, named⟩
      exact unnamed record mem (by simpa using named)
  | some record =>
      have mem := List.mem_of_find?_eq_some found
      have named : record.id = parent := by simpa using List.find?_some found
      rw [if_pos ⟨record, mem, named⟩]

theorem coverFaults_eq (images : List ImageRecord) :
    coverFaults images =
      if 2 ≤ images.countP (·.isCover) then
        [.multipleCovers ((images.filter (·.isCover)).map (·.id))]
      else [] := by
  simp only [coverFaults, List.length_map, ← List.countP_eq_length_filter]
  rfl

theorem orderFaults_arrange (images : List ImageRecord) :
    orderFaults (ImageRecord.arrange images) =
      if Dense images then []
      else [.sparseOrder ((ImageRecord.arrange images).map (·.sortOrder.toNat))] := by
  simp only [orderFaults, isDense_arrange_iff]

/-- What a parent with images is charged with, in terms of the images alone. -/
theorem charges_eq [LawfulStore σ τ] {store : σ} {parent : String} (blobs : β)
    (owns : StoreView.images store parent ≠ []) :
    charges store blobs parent =
      (if Registered store parent then []
        else [.unknownParent (StoreView.images store parent).length]) ++
      ((if 2 ≤ (StoreView.images store parent).countP (·.isCover) then
          [.multipleCovers (((ImageRecord.arrange (StoreView.images store parent)).filter
            (·.isCover)).map (·.id))]
        else []) ++
      (if Dense (StoreView.images store parent) then []
        else [.sparseOrder ((ImageRecord.arrange (StoreView.images store parent)).map
          (·.sortOrder.toNat))]) ++
      blobFaults (BlobStore.contains blobs)
        (ImageRecord.arrange (StoreView.images store parent))) := by
  have permuted := arrange_perm (StoreView.images store parent)
  rw [charges, if_neg owns, LawfulStore.listImages_eq, parentFaults_eq, galleryFaults,
    coverFaults_eq, orderFaults_arrange, permuted.length_eq, permuted.countP_eq]

theorem label_of_mem_blobFaults {stored : String → Bool} {images : List ImageRecord}
    {fault : GalleryFault} (mem : fault ∈ blobFaults stored images) :
    fault.label = "missing_blob" := by
  obtain ⟨image, _, rfl⟩ := List.mem_map.mp mem
  rfl

/-- Missing files are of no other kind. -/
theorem countP_blobFaults {stored : String → Bool} {images : List ImageRecord} (kind : String)
    (other : kind ≠ "missing_blob") :
    (blobFaults stored images).countP (fun fault => fault.label = kind) = 0 := by
  rw [List.countP_eq_zero]
  intro fault mem
  rw [label_of_mem_blobFaults mem, decide_eq_true_eq]
  exact other.symm

section Kinds

variable [LawfulStore σ τ] (store : σ) (blobs : β) (parent : String)

theorem countP_unknownParent :
    ((charges store blobs parent).countP fun fault => fault.label = "unknown_parent") =
      if StoreView.images store parent ≠ [] ∧ ¬Registered store parent then 1 else 0 := by
  by_cases owns : StoreView.images store parent = []
  · simp [charges, owns]
  · rw [charges_eq blobs owns]
    simp only [List.countP_append, countP_blobFaults "unknown_parent" (by decide)]
    split_ifs <;> simp_all [GalleryFault.label]

theorem countP_multipleCovers :
    ((charges store blobs parent).countP fun fault => fault.label = "multiple_covers") =
      if 2 ≤ (StoreView.images store parent).countP (·.isCover) then 1 else 0 := by
  by_cases owns : StoreView.images store parent = []
  · simp [charges, owns]
  · rw [charges_eq blobs owns]
    simp only [List.countP_append, countP_blobFaults "multiple_covers" (by decide)]
    split_ifs <;> simp_all [GalleryFault.label]

theorem countP_sparseOrder :
    ((charges store blobs parent).countP fun fault => fault.label = "sparse_order") =
      if Dense (StoreView.images store parent) then 0 else 1 := by
  by_cases owns : StoreView.images store parent = []
  · simp [charges, owns, Dense]
  · rw [charges_eq blobs owns]
    simp only [List.countP_append, countP_blobFaults "sparse_order" (by decide)]
    split_ifs <;> simp_all [GalleryFault.label]

theorem filter_missingBlob :
    ((charges store blobs parent).filter fun fault => fault.label = "missing_blob") =
      blobFaults (BlobStore.contains blobs)
        (ImageRecord.arrange (StoreView.images store parent)) := by
  by_cases owns : StoreView.images store parent = []
  · simp [charges, owns, blobFaults, ImageRecord.arrange]
  · have all : (blobFaults (BlobStore.contains blobs)
        (ImageRecord.arrange (StoreView.images store parent))).filter
          (fun fault => fault.label = "missing_blob") = blobFaults (BlobStore.contains blobs)
        (ImageRecord.arrange (StoreView.images store parent)) := by
      rw [List.filter_eq_self]
      intro fault mem
      simpa using label_of_mem_blobFaults mem
    rw [charges_eq blobs owns]
    simp only [List.filter_append, all]
    split_ifs <;> simp [GalleryFault.label]

end Kinds

/-- A parent is charged with nothing exactly when nothing is wrong with its gallery. -/
theorem charges_eq_nil_iff [LawfulStore σ τ] (store : σ) (blobs : β) (parent : String) :
    charges store blobs parent = [] ↔
      (StoreView.images store parent ≠ [] → Sound store blobs parent) := by
  by_cases owns : StoreView.images store parent = []
  · simp [charges, owns]
  · have missing : blobFaults (BlobStore.contains blobs)
        (ImageRecord.arrange (StoreView.images store parent)) = [] ↔
          ∀ image ∈ StoreView.images store parent,
            BlobStore.contains blobs image.storageKey = true := by
      simp [blobFaults, List.filter_eq_nil_iff, (arrange_perm _).mem_iff]
    rw [charges_eq blobs owns]
    simp only [List.append_eq_nil_iff, missing]
    constructor
    · rintro ⟨registered, ⟨single, dense⟩, stored⟩ _
      exact
        { registered := by
            by_contra unknown
            simp [unknown] at registered
          singleCover := by
            by_contra several
            rw [if_pos (by omega)] at single
            simp at single
          dense := by
            by_contra sparse
            simp [sparse] at dense
          stored }
    · intro sound
      obtain ⟨registered, single, dense, stored⟩ := sound owns
      exact ⟨if_pos registered, ⟨if_neg (by omega), if_pos dense⟩, stored⟩

/-! ## The report -/

/-- Violations that are listed owner by owner, seen from one of them. -/
theorem filter_flatMap_of_nodup {owners : List String} (distinct : owners.Nodup)
    (charge : String → List GalleryFault) (parent : String) :
    (owners.flatMap fun owner => (charge owner).map (Violation.mk owner)).filter
        (fun violation => violation.parentId = parent) =
      if parent ∈ owners then (charge parent).map (Violation.mk parent) else [] := by
  induction owners with
  | nil => rfl
  | cons owner owners ih =>
      rw [List.nodup_cons] at distinct
      rw [List.flatMap_cons, List.filter_append, ih distinct.2, List.filter_map]
      by_cases own : owner = parent
      · subst own
        have all : (fun violation : Violation => decide (violation.parentId = owner)) ∘
            Violation.mk owner = fun _ => true := by
          funext fault
          simp
        simp [all, distinct.1]
      · have none : (fun violation : Violation => decide (violation.parentId = parent)) ∘
            Violation.mk owner = fun _ => false := by
          funext fault
          simp [own]
        simp [none, Ne.symm own]

section Report

variable {store : σ} (lists : ListsOwners store) (blobs : β)

include lists

omit [GalleryTx τ] [TxView τ] in
theorem filter_violations_report (parent : String) :
    (report store blobs).violations.filter (fun violation => violation.parentId = parent) =
      (charges store blobs parent).map (Violation.mk parent) := by
  have violations : (report store blobs).violations =
      (GalleryStore.galleryParentIds store).flatMap fun owner =>
        (parentFaults store owner (GalleryStore.listImages store owner) ++
          galleryFaults (BlobStore.contains blobs) (GalleryStore.listImages store owner)).map
            (Violation.mk owner) := by
    simp only [report, List.flatMap_map]
    rfl
  rw [violations, filter_flatMap_of_nodup lists.distinct _ parent, charges]
  by_cases owns : StoreView.images store parent = []
  · rw [if_neg fun listed => (lists.mem_iff parent).mp listed owns, if_pos owns]
    rfl
  · rw [if_pos ((lists.mem_iff parent).mpr owns), if_neg owns]

omit [GalleryTx τ] [TxView τ] in
theorem tally_report (parent kind : String) :
    (report store blobs).tally parent kind =
      (charges store blobs parent).countP fun fault => fault.label = kind := by
  have own := filter_violations_report lists blobs parent
  have split : (report store blobs).tally parent kind =
      ((report store blobs).violations.filter fun violation =>
        violation.parentId = parent).countP fun violation => violation.fault.label = kind := by
    rw [List.countP_filter, AuditReport.tally]
    congr 1
    funext violation
    exact Bool.and_comm _ _
  rw [split, own, List.countP_map]
  rfl

theorem isClean_report_iff [LawfulStore σ τ] :
    (report store blobs).isClean = true ↔
      ∀ parent, StoreView.images store parent ≠ [] → Sound store blobs parent := by
  rw [AuditReport.isClean, List.isEmpty_iff]
  constructor
  · intro clean parent
    have own := filter_violations_report lists blobs parent
    rw [clean, List.filter_nil] at own
    exact (charges_eq_nil_iff store blobs parent).mp (List.map_eq_nil_iff.mp own.symm)
  · intro sound
    rw [List.eq_nil_iff_forall_not_mem]
    intro violation mem
    have own := filter_violations_report lists blobs violation.parentId
    rw [(charges_eq_nil_iff store blobs _).mpr (sound _), List.map_nil,
      List.filter_eq_nil_iff] at own
    exact own violation mem (by simp)

theorem missingBlob_report [LawfulStore σ τ] (parent : String) :
    ((report store blobs).violations.filter fun violation =>
        violation.parentId = parent && violation.fault.label = "missing_blob").Perm
      (((StoreView.images store parent).filter fun image =>
          !BlobStore.contains blobs image.storageKey).map fun image =>
        ⟨parent, .missingBlob image.id image.storageKey⟩) := by
  have own : ((report store blobs).violations.filter fun violation =>
        violation.parentId = parent && violation.fault.label = "missing_blob") =
      ((report store blobs).violations.filter fun violation =>
        violation.parentId = parent).filter fun violation =>
          violation.fault.label = "missing_blob" := by
    rw [List.filter_filter]
    congr 1
    funext violation
    exact Bool.and_comm _ _
  rw [own, filter_violations_report lists, List.filter_map]
  have kept := filter_missingBlob store blobs parent
  have composed : (fun violation : Violation =>
      decide (violation.fault.label = "missing_blob")) ∘ Violation.mk parent =
        fun fault => decide (fault.label = "missing_blob") := rfl
  rw [composed, kept, blobFaults, List.map_map]
  exact ((arrange_perm _).filter _).map _

theorem totals_report [LawfulStore σ τ] : ∃ owners : Finset String,
    (∀ parent, parent ∈ owners ↔ StoreView.images store parent ≠ []) ∧
      (report store blobs).galleries = owners.card ∧
      (report store blobs).images =
        ∑ parent ∈ owners, (StoreView.images store parent).length := by
  refine ⟨(GalleryStore.galleryParentIds store).toFinset, ?_, ?_, ?_⟩
  · intro parent
    rw [List.mem_toFinset, lists.mem_iff]
  · rw [List.toFinset_card_of_nodup lists.distinct, report, List.length_map]
  · rw [List.sum_toFinset _ lists.distinct]
    simp [report, List.length_flatMap, LawfulStore.listImages_eq, (arrange_perm _).length_eq,
      Function.comp_def]

theorem exact_report [LawfulStore σ τ] : Exact store blobs (report store blobs) where
  isClean_iff := isClean_report_iff lists blobs
  unknownParent parent := by rw [tally_report lists, countP_unknownParent]
  multipleCovers parent := by rw [tally_report lists, countP_multipleCovers]
  sparseOrder parent := by rw [tally_report lists, countP_sparseOrder]
  missingBlob := missingBlob_report lists blobs
  totals := totals_report lists blobs

end Report

/-- Audits of databases are exact, whatever their rows are, and so are audits of stores in memory,
in which no gallery without images is kept. -/
theorem exact_of_everyStore :
    (∀ (database : Database) (blobs : β), Exact database blobs (report database blobs)) ∧
      ∀ store : MemoryStore, (∀ entry ∈ store.galleries, entry.2 ≠ []) →
        ∀ blobs : β, Exact store blobs (report store blobs) := by
  constructor
  · intro database blobs
    exact exact_report database.listsOwners blobs
  · intro store filled blobs
    exact exact_report (MemoryStore.listsOwners filled) blobs

/-- A gallery of nobody's with two covers, a gap in its positions and a key that leads out. -/
def spoiled : MemoryStore where
  lastId := 2
  galleries :=
    [("p",
      [{ url := "/images/p/a.png", storageKey := "s/p/a.png", isCover := true, sortOrder := 0,
         createdAt := "", id := 1, parentId := "p" },
       { url := "/images/p/b.png", storageKey := "../b.png", isCover := true, sortOrder := 2,
         createdAt := "", id := 2, parentId := "p" }])]

/-- A root with one file. -/
def oneFile : LocalBlobs where
  root := "/root"
  chunkSize := 1
  names := { draws := fun _ => default }
  tree :=
    { entries :=
        [(["root"], .directory), (["root", "s"], .directory), (["root", "s", "p"], .directory),
          (["root", "s", "p", "a.png"], .file (.ofBytes []))] }

theorem exact_spoiled :
    (∀ entry ∈ spoiled.galleries, entry.2 ≠ []) ∧
      Exact spoiled oneFile (report spoiled oneFile) := by
  have filled : ∀ entry ∈ spoiled.galleries, entry.2 ≠ [] := by decide
  exact ⟨filled, exact_of_everyStore.2 spoiled filled oneFile⟩

end Audit

end ImageGallery
