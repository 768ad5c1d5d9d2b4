import ImageGallery.Admin.Run
import ImageGallery.Proofs.ClosedTree
import ImageGallery.Proofs.Owners
import ImageGallery.Proofs.PathLabels

/-!
# What an audit prints

Each violation that an audit finds is printed with a line break behind it: its parent, its kind and
its details, with tabs in between. Parents and keys are printed as they are stored. A line break in
one of them breaks the line of the violation, and a tab in a parent ends the column too early, so
the violations can be read back from the lines exactly when there are none of these. The exit status
tells in any case whether there is a violation.
-/

namespace ImageGallery

/-! ## Lines and columns -/

namespace Text

variable {first second rest line : List Char}

/-- What stands before each line break of a text. -/
def lines (chars : List Char) : List (List Char) :=
  (fields '\n' chars).dropLast

/-- What stands before the first tab of a line, before the second one, and behind it. -/
def columns? (line : List Char) : Option (List Char × List Char × List Char) :=
  match fields '\t' line with
  | first :: second :: third :: others => some (first, second, unfields '\t' (third :: others))
  | _ => none

/-- A separator ends a field, and one more field follows the last separator. -/
theorem length_fields (separator : Char) (chars : List Char) :
    (fields separator chars).length = chars.count separator + 1 := by
  induction chars with
  | nil => rfl
  | cons char rest ih =>
      rw [fields, List.count_cons]
      split
      · rename_i same
        rw [List.length_cons, ih, same, beq_self_eq_true, if_pos rfl]
      · rename_i other
        rw [if_neg (by simpa using other), Nat.add_zero, ← ih]
        split
        · rename_i nothing
          exact absurd nothing (fields_ne_nil separator rest)
        · rename_i cut
          rw [cut, List.length_cons, List.length_cons]

theorem length_lines (chars : List Char) : (lines chars).length = chars.count '\n' := by
  rw [lines, List.length_dropLast, length_fields, Nat.add_sub_cancel]

/-- Texts without line breaks are the lines that they are printed on. -/
theorem lines_flatMap {texts : List (List Char)} (whole : ∀ text ∈ texts, '\n' ∉ text) :
    lines (texts.flatMap (· ++ ['\n'])) = texts := by
  induction texts with
  | nil => rfl
  | cons text texts ih =>
      rw [List.forall_mem_cons] at whole
      rw [List.flatMap_cons, List.append_assoc, List.singleton_append, lines,
        fields_append_cons whole.1, List.dropLast_cons_of_ne_nil (fields_ne_nil _ _), ← lines,
        ih whole.2]

theorem columns?_of_not_mem (firstWhole : '\t' ∉ first) (secondWhole : '\t' ∉ second)
    (rest : List Char) :
    columns? (first ++ '\t' :: (second ++ '\t' :: rest)) = some (first, second, rest) := by
  rw [columns?, fields_append_cons firstWhole, fields_append_cons secondWhole]
  cases cut : fields '\t' rest with
  | nil => exact absurd cut (fields_ne_nil '\t' rest)
  | cons third others =>
      dsimp only
      rw [← cut, unfields_fields]

theorem not_mem_of_columns? (cut : columns? line = some (first, second, rest)) :
    '\t' ∉ first := by
  unfold columns? at cut
  split at cut
  · rename_i whole
    cases cut
    exact not_mem_of_mem_fields (whole ▸ List.mem_cons_self)
  · cases cut

end Text

/-! ## Line breaks in violations -/

/-- Texts of one line are on one line between brackets. -/
theorem break_not_mem_bracketed {texts : List String} (whole : ∀ text ∈ texts, '\n' ∉ text.toList) :
    '\n' ∉ (bracketed texts).toList := by
  have joined : '\n' ∉ (", ".intercalate texts).toList := by
    induction texts with
    | nil => simp
    | cons text others ih =>
        rw [List.forall_mem_cons] at whole
        cases others with
        | nil => simpa using whole.1
        | cons other others =>
            rw [String.intercalate_cons_cons]
            have later := ih whole.2
            simp only [String.toList_append, List.mem_append, not_or]
            exact ⟨⟨whole.1, by decide⟩, later⟩
  simpa [bracketed] using joined

theorem break_not_mem_natural (number : Nat) : '\n' ∉ (toString number).toList := by
  intro mem
  rw [Nat.toString_eq_repr, Nat.toList_repr] at mem
  exact absurd (Nat.isDigit_of_mem_toDigits (by decide) (by decide) mem) (by decide)

theorem break_not_mem_integer (number : Int) : '\n' ∉ (toString number).toList := by
  cases number with
  | ofNat number => exact break_not_mem_natural number
  | negSucc number =>
      simpa [toString, Int.repr] using break_not_mem_natural (number + 1)

namespace GalleryFault

/-- The number of line breaks in the details: those of the key of a missing file. -/
def breaks : GalleryFault → Nat
  | missingBlob _ key => key.toList.count '\n'
  | _ => 0

theorem count_detail (fault : GalleryFault) : fault.detail.toList.count '\n' = fault.breaks := by
  cases fault with
  | multipleCovers images =>
      have whole : '\n' ∉ (bracketed (images.map toString)).toList :=
        break_not_mem_bracketed (by simpa using fun image _ => break_not_mem_integer image)
      simpa [detail, breaks, List.count_eq_zero] using whole
  | sparseOrder orders =>
      have whole : '\n' ∉ (bracketed (orders.map toString)).toList :=
        break_not_mem_bracketed (by simpa using fun order _ => break_not_mem_natural order)
      simpa [detail, breaks, List.count_eq_zero] using whole
  | missingBlob image key =>
      have whole := List.count_eq_zero.mpr (break_not_mem_integer image)
      have words : "image ".toList.count '\n' = 0 ∧
          " has no stored blob at '".toList.count '\n' = 0 ∧ "'".toList.count '\n' = 0 := by
        decide
      change ("image " ++ toString image ++ " has no stored blob at '" ++ key ++ "'").toList.count
        '\n' = key.toList.count '\n'
      simp only [String.toList_append, List.count_append, whole, words, Nat.zero_add, Nat.add_zero]
  | unknownParent images =>
      have whole := List.count_eq_zero.mpr (break_not_mem_natural images)
      have words : " images without a registered parent".toList.count '\n' = 0 := by decide
      change (toString images ++ " images without a registered parent").toList.count '\n' = 0
      rw [String.toList_append, List.count_append, whole, words]

theorem break_not_mem_word (fault : GalleryFault) : '\n' ∉ fault.word.toList := by
  cases fault <;> simp [word]

theorem tab_not_mem_word (fault : GalleryFault) : '\t' ∉ fault.word.toList := by
  cases fault <;> simp [word]

end GalleryFault

namespace Violation

/-- The number of line breaks in a violation. -/
def breaks (violation : Violation) : Nat :=
  violation.parentId.toList.count '\n' + violation.fault.breaks

/-- What is printed of a violation before the line break behind it. -/
def text (violation : Violation) : List Char :=
  violation.parentId.toList ++
    '\t' :: (violation.fault.word.toList ++ '\t' :: violation.fault.detail.toList)

/-- The parent, the kind and the details of a violation. -/
def columns (violation : Violation) : List Char × List Char × List Char :=
  (violation.parentId.toList, violation.fault.word.toList, violation.fault.detail.toList)

/-- A violation without a line break, and without a tab in its parent. -/
structure Plain (violation : Violation) : Prop where
  breaks_eq : violation.breaks = 0
  tab_not_mem : '\t' ∉ violation.parentId.toList

theorem count_text (violation : Violation) : violation.text.count '\n' = violation.breaks := by
  have word := List.count_eq_zero.mpr violation.fault.break_not_mem_word
  simp [text, breaks, List.count_append, word, GalleryFault.count_detail]

theorem toList_violationLine (violation : Violation) :
    (Admin.violationLine violation).toList = violation.text ++ ['\n'] := by
  simp [Admin.violationLine, text]

theorem columns?_text_iff (violation : Violation) :
    Text.columns? violation.text = some violation.columns ↔ '\t' ∉ violation.parentId.toList :=
  ⟨Text.not_mem_of_columns?,
    fun whole => Text.columns?_of_not_mem whole violation.fault.tab_not_mem_word _⟩

end Violation

/-! ## Printed violations -/

namespace Admin

open Disk

/-- The violations can be read back from the lines of an output: each line has the parent, the kind
and the details of one of them, in their order. -/
def Decodes (output : String) (violations : List Violation) : Prop :=
  (Text.lines output.toList).map Text.columns? =
    violations.map fun violation => some violation.columns

variable {report : AuditReport}

theorem toList_output (report : AuditReport) :
    (auditOutcome report).output.toList =
      (report.violations.map Violation.text).flatMap (· ++ ['\n']) := by
  rw [auditOutcome, String.toList_join, List.flatMap_map, List.flatMap_map]
  exact List.flatMap_congr fun violation _ => violation.toList_violationLine

/-- Each violation has a line, and one more for each line break in it. -/
theorem length_lines_output (report : AuditReport) :
    (Text.lines (auditOutcome report).output.toList).length =
      report.violations.length + (report.violations.map Violation.breaks).sum := by
  rw [Text.length_lines, toList_output]
  induction report.violations with
  | nil => rfl
  | cons violation violations ih =>
      rw [List.map_cons, List.flatMap_cons, List.count_append, ih, List.count_append,
        violation.count_text, List.length_cons, List.map_cons, List.sum_cons,
        List.count_singleton_self]
      omega

/-- Violations without line breaks have a line each. -/
theorem lines_output (unbroken : ∀ violation ∈ report.violations, violation.breaks = 0) :
    Text.lines (auditOutcome report).output.toList = report.violations.map Violation.text := by
  rw [toList_output]
  apply Text.lines_flatMap
  rintro _ mem
  obtain ⟨violation, violationMem, rfl⟩ := List.mem_map.mp mem
  rw [← List.count_eq_zero, violation.count_text, unbroken violation violationMem]

theorem decodes_iff_of_unbroken
    (unbroken : ∀ violation ∈ report.violations, violation.breaks = 0) :
    Decodes (auditOutcome report).output report.violations ↔
      ∀ violation ∈ report.violations, '\t' ∉ violation.parentId.toList := by
  rw [Decodes, lines_output unbroken, List.map_map, List.map_inj_left]
  exact forall₂_congr fun violation _ => violation.columns?_text_iff

theorem decodes_iff (report : AuditReport) :
    Decodes (auditOutcome report).output report.violations ↔
      ∀ violation ∈ report.violations, violation.Plain := by
  constructor
  · intro decodes
    -- As many lines as violations leave no room for line breaks.
    have counted := length_lines_output report
    have sameLength := congrArg List.length decodes
    rw [List.length_map, List.length_map] at sameLength
    have none : (report.violations.map Violation.breaks).sum = 0 := by omega
    have unbroken : ∀ violation ∈ report.violations, violation.breaks = 0 := by
      simpa using List.sum_eq_zero_iff.mp none
    have whole := (decodes_iff_of_unbroken unbroken).mp decodes
    exact fun violation mem => ⟨unbroken violation mem, whole violation mem⟩
  · intro plain
    refine (decodes_iff_of_unbroken fun violation mem => ?_).mpr fun violation mem => ?_
    · exact (plain violation mem).breaks_eq
    · exact (plain violation mem).tab_not_mem

/-- Nothing is printed behind the last line. -/
theorem output_ends (report : AuditReport) : (auditOutcome report).output = "" ∨
    (auditOutcome report).output.toList.getLast? = some '\n' := by
  rw [← String.toList_eq_nil_iff, toList_output]
  rcases report.violations.eq_nil_or_concat with none | ⟨violations, violation, some⟩
  · exact .inl (by rw [none]; rfl)
  · exact .inr (by simp [some])

/-! ## Violations of plain rows -/

/-- A row of an image without line breaks in its parent and its key, and without a tab in its
parent. -/
structure Printable (image : ImageRecord) : Prop where
  parent : '\n' ∉ image.parentId.toList ∧ '\t' ∉ image.parentId.toList
  key : '\n' ∉ image.storageKey.toList

theorem exists_of_missingBlob_mem {stored : String → Bool} {images : List ImageRecord} {id : Int}
    {key : String} (mem : .missingBlob id key ∈ Audit.galleryFaults stored images) :
    ∃ image ∈ images, image.storageKey = key := by
  rw [Audit.galleryFaults, List.mem_append, List.mem_append] at mem
  rcases mem with (covers | orders) | missing
  · simp only [Audit.coverFaults] at covers
    split at covers <;> simp at covers
  · unfold Audit.orderFaults at orders
    split at orders <;> simp at orders
  · obtain ⟨image, kept, same⟩ := List.mem_map.mp missing
    cases same
    exact ⟨image, (List.mem_filter.mp kept).1, rfl⟩

/-- A parent is charged under its own id, and without line breaks in the details if the keys of its
images have none. -/
theorem breaks_of_mem_parentViolations {database : Database} {blobs : LocalBlobs} {parent : String}
    {images : List ImageRecord} {violation : Violation}
    (mem : violation ∈ Audit.parentViolations database blobs parent images)
    (keys : ∀ image ∈ images, '\n' ∉ image.storageKey.toList) :
    violation.parentId = parent ∧ violation.fault.breaks = 0 := by
  obtain ⟨fault, faulty, rfl⟩ := List.mem_map.mp mem
  refine ⟨rfl, ?_⟩
  cases fault with
  | missingBlob id key =>
      rcases List.mem_append.mp faulty with unknown | charged
      · unfold Audit.parentFaults at unknown
        split at unknown <;> simp at unknown
      · obtain ⟨image, imageMem, rfl⟩ := exists_of_missingBlob_mem charged
        exact List.count_eq_zero.mpr (keys image imageMem)
  | _ => rfl

/-- Plain rows have plain violations. -/
theorem plain_of_printable {database : Database} {blobs : LocalBlobs}
    (printable : ∀ image ∈ database.images, Printable image) :
    ∀ violation ∈ (Audit.report database blobs).violations, violation.Plain := by
  intro violation mem
  simp only [Audit.report, List.flatMap_map, List.mem_flatMap] at mem
  obtain ⟨parent, owner, charged⟩ := mem
  obtain ⟨row, rowMem, rfl⟩ := List.mem_map.mp (mem_sortedIds.mp owner)
  have keys : ∀ image ∈ GalleryStore.listImages database row.parentId,
      '\n' ∉ image.storageKey.toList := by
    intro image imageMem
    have held := (arrange_perm (database.rowsOf row.parentId)).subset imageMem
    exact (printable image (List.mem_filter.mp held).1).key
  obtain ⟨named, whole⟩ := breaks_of_mem_parentViolations charged keys
  have parent := (printable row rowMem).parent
  rw [← named] at parent
  exact ⟨by rw [Violation.breaks, whole, List.count_eq_zero.mpr parent.1], parent.2⟩

/-! ## Runs of the tool -/

/-- A run of the tool finds a database, and the files in a blob store. -/
inductive Finds (request : Request) (tree : Tree) : Database → LocalBlobs → Prop where
  | intro {config : Config} {connection : Connection} {opened prepared : Tree}
      (configured : Config.loadOrDefault ⟨request.config, []⟩ tree = .ok config)
      (connected : Connection.openAt (request.databasePath config) tree = (.ok connection, opened))
      (stored : LocalBlobs.prepare config.storage.rootDirectory opened = (.ok (), prepared)) :
      Finds request tree connection.database
        { root := config.storage.rootDirectory
          chunkSize := config.storage.chunkSize
          tree := prepared
          names := { draws := fun _ => default } }

/-- What the outcome of an audit tells. -/
structure Tells (outcome : Outcome) (report : AuditReport) : Prop where
  code_eq : outcome.code = if report.violations = [] then 0 else 2
  /-- Nothing is printed behind the last line. -/
  ends : outcome.output = "" ∨ outcome.output.toList.getLast? = some '\n'
  /-- Each line break in a violation makes one more line. -/
  length_lines : (Text.lines outcome.output.toList).length =
    report.violations.length + (report.violations.map Violation.breaks).sum
  decodes_iff : Decodes outcome.output report.violations ↔
    ∀ violation ∈ report.violations, violation.Plain

theorem tells_auditOutcome (report : AuditReport) : Tells (auditOutcome report) report where
  code_eq := by simp [auditOutcome, AuditReport.isClean]
  ends := output_ends report
  length_lines := length_lines_output report
  decodes_iff := decodes_iff report

theorem run_of_finds {request : Request} {tree : Tree} {database : Database} {blobs : LocalBlobs}
    (checks : request.command = .check) (finds : Finds request tree database blobs) (now : String) :
    (run request now tree).1 = auditOutcome (Audit.report database blobs) := by
  obtain ⟨configured, connected, stored⟩ := finds
  rw [run, configured]
  dsimp only
  rw [connected]
  dsimp only
  rw [checks, perform, check, stored]

/-- A check that does not get to the audit fails and prints nothing. -/
theorem run_of_not_finds {request : Request} {tree : Tree} (checks : request.command = .check)
    (nothing : ¬∃ database blobs, Finds request tree database blobs) (now : String) :
    (run request now tree).1.code = 1 ∧ (run request now tree).1.output = "" := by
  unfold run
  split
  · exact ⟨rfl, rfl⟩
  · rename_i config configured
    dsimp only
    split
    · exact ⟨rfl, rfl⟩
    · rename_i connection opened connected
      rw [checks, perform]
      unfold check
      split
      · exact ⟨rfl, rfl⟩
      · rename_i prepared stored
        exact absurd ⟨_, _, .intro configured connected stored⟩ nothing

/-- A check tells what the audit finds: by its exit status always, and by its lines as long as
parents and keys are plain. -/
theorem told_of_check (config : String) (database : Option String) (now : String) (tree : Tree) :
    (∀ found blobs, Finds { config, database, command := .check } tree found blobs →
      Tells (run { config, database, command := .check } now tree).1
          (Audit.report found blobs) ∧
        ((∀ image ∈ found.images, Printable image) →
          Decodes (run { config, database, command := .check } now tree).1.output
            (Audit.report found blobs).violations)) ∧
    ((¬∃ found blobs, Finds { config, database, command := .check } tree found blobs) →
      (run { config, database, command := .check } now tree).1.code = 1 ∧
        (run { config, database, command := .check } now tree).1.output = "") := by
  refine ⟨fun found blobs finds => ?_, fun nothing => run_of_not_finds rfl nothing now⟩
  have tells := tells_auditOutcome (Audit.report found blobs)
  rw [run_of_finds rfl finds]
  exact ⟨tells, fun printable => tells.decodes_iff.mpr (plain_of_printable printable)⟩

/-- A gallery with one image, whose key has a line break. -/
def brokenKey : Database where
  parents := ⟨[⟨"p", "s", ""⟩]⟩
  images :=
    [ { url := "/images/p/a.png", storageKey := "s/p/a\nb.png", isCover := true, sortOrder := 0,
        createdAt := "", id := 1, parentId := "p" } ]
  sequence := 1

/-- A tree with this database and no stored file. -/
def brokenKeyTree : Tree where
  entries :=
    [ (["data", "gallery.db"], .file (.database { database := brokenKey })), (["data"], .directory),
      (["data", "images"], .directory), (["data", "images", ".tmp"], .directory) ]

/-- The blob store of this tree. -/
def brokenKeyBlobs : LocalBlobs where
  root := "./data/images"
  chunkSize := 65536
  tree := brokenKeyTree
  names := { draws := fun _ => default }

theorem contains_brokenKey : BlobStore.contains brokenKeyBlobs "s/p/a\nb.png" = false := by
  have resolved : brokenKeyBlobs.resolve? "s/p/a\nb.png" =
      some ⟨"./data/images", ["s", "p", "a\nb.png"]⟩ := by
    decide +kernel
  have names : Path.names ⟨"./data/images", ["s", "p", "a\nb.png"]⟩ =
      [".", "data", "images", "s", "p", "a\nb.png"] := by
    decide +kernel
  have checked : Tree.checkPath (Path.display ⟨"./data/images", ["s", "p", "a\nb.png"]⟩) =
      .ok () := by
    decide +kernel
  have nowhere : brokenKeyTree.resolve ⟨"./data/images", ["s", "p", "a\nb.png"]⟩ =
      .error .notFound := by
    rw [Tree.resolve, Tree.lead, checked, names]
    simp +decide [bind, Except.bind, Tree.follow, brokenKeyTree, Tree.lookup]
  have noFile : brokenKeyTree.isFile ⟨"./data/images", ["s", "p", "a\nb.png"]⟩ = false := by
    rw [Tree.isFile, nowhere]
  change brokenKeyBlobs.contains "s/p/a\nb.png" = false
  rw [LocalBlobs.contains, resolved]
  exact Bool.and_eq_false_imp.mpr fun isFile => absurd isFile (by simp [brokenKeyBlobs, noFile])

theorem violations_brokenKey :
    (Audit.report brokenKey brokenKeyBlobs).violations =
      [⟨"p", .missingBlob 1 "s/p/a\nb.png"⟩] := by
  have owners : GalleryStore.galleryParentIds brokenKey = ["p"] := by
    simp [GalleryStore.galleryParentIds, brokenKey, sortedIds, List.eraseDups_cons]
  have listed : GalleryStore.listImages brokenKey "p" = brokenKey.images := by
    simp [GalleryStore.listImages, brokenKey, Database.rowsOf, ImageRecord.arrange]
  have known : Audit.parentFaults brokenKey "p" brokenKey.images = [] := by decide
  have faults : Audit.galleryFaults (BlobStore.contains brokenKeyBlobs) brokenKey.images =
      [.missingBlob 1 "s/p/a\nb.png"] := by
    simp [Audit.galleryFaults, Audit.coverFaults, Audit.orderFaults, Audit.blobFaults, brokenKey,
      Audit.isDense, contains_brokenKey]
  simp [Audit.report, owners, listed, Audit.parentViolations, known, faults]

/-- The tool finds the database and no file. -/
theorem finds_brokenKey :
    Finds { command := .check } brokenKeyTree brokenKey brokenKeyBlobs := by
  have configured : Config.loadOrDefault ⟨"vitrine.yaml", []⟩ brokenKeyTree = .ok {} := by
    have names : Path.names ⟨"vitrine.yaml", []⟩ = ["vitrine.yaml"] := by decide +kernel
    have leads : brokenKeyTree.resolve ⟨"vitrine.yaml", []⟩ = .ok (.free ["vitrine.yaml"]) := by
      refine Tree.lead_eq_ok_iff.mpr ⟨by decide +kernel, ?_⟩
      simp +decide [names, Tree.follow, brokenKeyTree, Tree.lookup]
    rw [Config.loadOrDefault, Tree.leadsSomewhere, Tree.canonical?, leads]
    rfl
  have connected : Connection.openAt "./data/gallery.db" brokenKeyTree =
      (.ok { database := brokenKey, place := some ["data", "gallery.db"] }, brokenKeyTree) := by
    have split : Path.split "./data/gallery.db" = [".", "data", "gallery.db"] := by decide +kernel
    have named : Location.ofText "./data/gallery.db" = .ok { path := "./data/gallery.db" } := by
      decide
    have place : Connection.placeOf? brokenKeyTree "./data/gallery.db" =
        some ["data", "gallery.db"] := by
      simp +decide [Connection.placeOf?, split, Connection.placeFrom, Connection.entryIn?,
        brokenKeyTree, Tree.lookup]
    unfold Connection.openAt
    rw [named]
    dsimp only
    rw [place]
    rfl
  have root : brokenKeyTree.resolve ⟨"./data/images", []⟩ =
      .ok (.entry ["data", "images"] .directory) := by
    have names : Path.names ⟨"./data/images", []⟩ = [".", "data", "images"] := by decide +kernel
    refine Tree.lead_eq_ok_iff.mpr ⟨by decide +kernel, ?_⟩
    simp +decide [names, Tree.follow, brokenKeyTree, Tree.lookup]
  have temporary : brokenKeyTree.resolve ⟨"./data/images", [".tmp"]⟩ =
      .ok (.entry ["data", "images", ".tmp"] .directory) := by
    have names : Path.names ⟨"./data/images", [".tmp"]⟩ = [".", "data", "images", ".tmp"] := by
      decide +kernel
    refine Tree.lead_eq_ok_iff.mpr ⟨by decide +kernel, ?_⟩
    simp +decide [names, Tree.follow, brokenKeyTree, Tree.lookup]
  have stored : LocalBlobs.prepare "./data/images" brokenKeyTree = (.ok (), brokenKeyTree) := by
    rw [LocalBlobs.prepare, Tree.makeDirectories_of_directory root (by decide +kernel)]
    dsimp only
    rw [Tree.makeDirectories_of_directory temporary (by decide +kernel)]
  exact @Finds.intro { command := .check } brokenKeyTree {} _ _ _ configured connected stored

/-- One violation is printed on two lines, and cannot be read back from them. -/
theorem not_decodes_brokenKey :
    Finds { command := .check } brokenKeyTree brokenKey brokenKeyBlobs ∧
      (Audit.report brokenKey brokenKeyBlobs).violations.length = 1 ∧
      (run { command := .check } "" brokenKeyTree).1.output =
        "p\tMissingBlob\timage 1 has no stored blob at 's/p/a\nb.png'\n" ∧
      (Text.lines (run { command := .check } "" brokenKeyTree).1.output.toList).length = 2 ∧
      ¬Decodes (run { command := .check } "" brokenKeyTree).1.output
        (Audit.report brokenKey brokenKeyBlobs).violations := by
  have ran := run_of_finds rfl finds_brokenKey ""
  have printed : (auditOutcome (Audit.report brokenKey brokenKeyBlobs)).output =
      "p\tMissingBlob\timage 1 has no stored blob at 's/p/a\nb.png'\n" := by
    rw [auditOutcome, violations_brokenKey]
    decide +kernel
  have broken : (Text.lines
      (auditOutcome (Audit.report brokenKey brokenKeyBlobs)).output.toList).length = 2 := by
    rw [printed]
    decide +kernel
  rw [ran]
  refine ⟨finds_brokenKey, by rw [violations_brokenKey]; rfl, printed, broken, fun decodes => ?_⟩
  have sameLength := congrArg List.length decodes
  rw [List.length_map, List.length_map, broken, violations_brokenKey] at sameLength
  cases sameLength

end Admin

end ImageGallery
