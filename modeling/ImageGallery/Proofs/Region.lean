import Mathlib.Data.List.Basic
import ImageGallery.Proofs.LinklessRoot

/-!
# The files below a directory

A region of a tree is what stands below a directory: some files, each on a way of directories, and
no links. Operations on paths into the region change its files and nothing else, and directories
that come in do no harm.
-/

namespace ImageGallery.Disk

open ImageGallery.Disk.Tree

/-- The files below the directory at a place, which a text leads to, are the given ones. A file is
given by the names on the way to it and by its bytes. -/
structure Region (root : String) (base : Place) (tree : Tree) (files : List (Place × Bytes)) :
    Prop where
  rooted : tree.Rooted root base
  free : tree.LinkFree base
  listed : ∀ below content, below ≠ [] → tree.lookup (base ++ below) = some (.file content) →
    (below, content.bytes) ∈ files
  present : ∀ file ∈ files, ∃ content,
    tree.lookup (base ++ file.1) = some (.file content) ∧ content.bytes = file.2
  passable : ∀ file ∈ files, Passable root file.1
  housed : ∀ file ∈ files, tree.Housed base file.1
  distinct : (files.map (·.1)).Nodup

namespace Region

variable {root : String} {base : Place} {tree after : Tree} {files : List (Place × Bytes)}
  {names : Place} {bytes : Bytes}

/-! ## Where paths lead -/

theorem linkless (region : Region root base tree files) : Linkless root base tree :=
  ⟨region.rooted.way, region.free⟩

/-- The path of a file of a region leads to it. -/
theorem lead_file (region : Region root base tree files) (mem : (names, bytes) ∈ files)
    (purpose : Purpose) :
    ∃ content, content.bytes = bytes ∧ tree.lookup (base ++ names) = some (.file content) ∧
      tree.lead purpose ⟨root, names⟩ (Path.names ⟨root, names⟩) =
        .ok (.entry (base ++ names) (.file content)) := by
  obtain ⟨content, there, same⟩ := region.present _ mem
  exact ⟨content, same, there, region.linkless.lead_entry (region.passable _ mem)
    (region.housed _ mem) there purpose⟩

/-! ## Changing files -/

/-- A tree that differs at one place only has the same files elsewhere, and at the place a new one
or none. -/
theorem replace (region : Region root base tree files) (kept : Keeps tree after)
    (elsewhere : ∀ other, other ≠ names →
      after.lookup (base ++ other) = tree.lookup (base ++ other))
    (content : Option Content)
    (there : after.lookup (base ++ names) = content.map .file)
    (passable : content.isSome → Passable root names)
    (housed : content.isSome → tree.Housed base names) :
    Region root base after ((content.map fun content => (names, content.bytes)).toList ++
      files.filter fun file => file.1 ≠ names) where
  rooted := region.rooted.of_keeps kept
  free := by
    intro below target some_below link
    by_cases same : below = names
    · rw [same, there] at link
      cases content <;> cases link
    · rw [elsewhere below same] at link
      exact region.free below target some_below link
  listed := by
    intro below other some_below file
    by_cases same : below = names
    · rw [same, there] at file
      cases content with
      | none => cases file
      | some content =>
          cases file
          rw [same]
          exact List.mem_append_left _ List.mem_cons_self
    · rw [elsewhere below same] at file
      refine List.mem_append_right _ (List.mem_filter.mpr ⟨region.listed _ _ some_below file, ?_⟩)
      exact decide_eq_true same
  present := by
    intro file mem
    rcases List.mem_append.mp mem with new | old
    · cases content with
      | none => cases new
      | some content =>
          cases List.mem_singleton.mp new
          exact ⟨content, there, rfl⟩
    · obtain ⟨file_mem, differ⟩ := List.mem_filter.mp old
      rw [elsewhere file.1 (of_decide_eq_true differ)]
      exact region.present file file_mem
  passable := by
    intro file mem
    rcases List.mem_append.mp mem with new | old
    · cases content with
      | none => cases new
      | some content =>
          cases List.mem_singleton.mp new
          exact passable rfl
    · exact region.passable file (List.mem_of_mem_filter old)
  housed := by
    intro file mem
    rcases List.mem_append.mp mem with new | old
    · cases content with
      | none => cases new
      | some content =>
          cases List.mem_singleton.mp new
          exact (housed rfl).of_keeps kept
    · exact (region.housed file (List.mem_of_mem_filter old)).of_keeps kept
  distinct := by
    have others := region.distinct.sublist
      ((List.filter_sublist (p := fun file : Place × Bytes => file.1 ≠ names)).map (·.1))
    cases content with
    | none => exact others
    | some content =>
        refine List.nodup_cons.mpr ⟨?_, others⟩
        intro mem
        obtain ⟨file, file_mem, same⟩ := List.mem_map.mp mem
        exact of_decide_eq_true (List.mem_filter.mp file_mem).2 same

/-- A file is taken away. -/
theorem erase (region : Region root base tree files) (mem : (names, bytes) ∈ files) :
    Region root base (tree.erase (base ++ names)) (files.filter fun file => file.1 ≠ names) := by
  obtain ⟨content, there, -⟩ := region.present _ mem
  have inner : base ++ names ≠ [] :=
    List.append_ne_nil_of_right_ne_nil base (region.passable _ mem).some_names
  refine region.replace (Keeps.erase (.of_file there)) ?_ none (lookup_erase_self _ inner)
    (fun none => by cases none) (fun none => by cases none)
  intro other differ
  exact lookup_erase_of_ne _ fun same => differ (List.append_cancel_left same)

/-- Directories come in at free places. -/
structure Grows (tree after : Tree) : Prop where
  current_eq : after.current = tree.current
  lookup_eq : ∀ place, after.lookup place = tree.lookup place ∨
    tree.lookup place = none ∧ after.lookup place = some .directory

theorem Grows.refl (tree : Tree) : Grows tree tree :=
  ⟨rfl, fun _ => .inl rfl⟩

theorem Grows.trans {first second third : Tree} (left : Grows first second)
    (right : Grows second third) : Grows first third where
  current_eq := right.current_eq.trans left.current_eq
  lookup_eq place := by
    rcases right.lookup_eq place with same | ⟨missing, made⟩
    · rw [same]
      exact left.lookup_eq place
    · rcases left.lookup_eq place with same | ⟨-, made_before⟩
      · exact .inr ⟨same ▸ missing, made⟩
      · rw [made_before] at missing
        cases missing

theorem Grows.keeps {tree after : Tree} (grown : Grows tree after) : Keeps tree after where
  current_eq := grown.current_eq
  directory place there := by
    rcases grown.lookup_eq place with same | ⟨missing, -⟩
    · rwa [same]
    · rw [there] at missing
      cases missing
  link place target there := by
    rcases grown.lookup_eq place with same | ⟨missing, -⟩
    · rwa [same]
    · rw [there] at missing
      cases missing

/-- New directories leave the files of a region as they are. -/
theorem grow (region : Region root base tree files) (grown : Grows tree after) :
    Region root base after files where
  rooted := region.rooted.of_keeps grown.keeps
  free := by
    intro below target some_below link
    rcases grown.lookup_eq (base ++ below) with same | ⟨-, made⟩
    · rw [same] at link
      exact region.free below target some_below link
    · rw [made] at link
      cases link
  listed := by
    intro below content some_below file
    rcases grown.lookup_eq (base ++ below) with same | ⟨-, made⟩
    · rw [same] at file
      exact region.listed below content some_below file
    · rw [made] at file
      cases file
  present := by
    intro file mem
    obtain ⟨content, there, same⟩ := region.present file mem
    rcases grown.lookup_eq (base ++ file.1) with kept | ⟨missing, -⟩
    · exact ⟨content, kept.trans there, same⟩
    · rw [there] at missing
      cases missing
  passable := region.passable
  housed file mem := (region.housed file mem).of_keeps grown.keeps
  distinct := region.distinct

/-- Names that name none of the files leave all of them when they are filtered out. -/
theorem filter_eq_self_of_unlisted (unlisted : names ∉ files.map (·.1)) :
    (files.filter fun file => file.1 ≠ names) = files := by
  rw [List.filter_eq_self]
  intro file mem
  refine decide_eq_true fun same => unlisted ?_
  rw [← same]
  exact List.mem_map_of_mem mem

/-- No file stands at names that name none of the files. -/
theorem not_file_of_unlisted (region : Region root base tree files) (some_names : names ≠ [])
    (unlisted : names ∉ files.map (·.1)) (content : Content) :
    tree.lookup (base ++ names) ≠ some (.file content) := fun there =>
  unlisted (List.mem_map_of_mem (region.listed names content some_names there))

/-! ## Operations -/

/-- Removing a file. It can always be removed. -/
theorem remove_eq_ok (region : Region root base tree files) (mem : (names, bytes) ∈ files) :
    ∃ left, tree.remove ⟨root, names⟩ = .ok left ∧
      Region root base left (files.filter fun file => file.1 ≠ names) := by
  obtain ⟨content, there, -⟩ := region.present _ mem
  exact ⟨_, region.linkless.remove_eq_ok (region.passable _ mem) (region.housed _ mem) there,
    region.erase mem⟩

end Region

/-! ## Making directories -/

namespace Tree

theorem grows_of_makeDirectory_eq_ok {tree after : Tree} {path : Path}
    (made : tree.makeDirectory path = .ok after) : Region.Grows tree after := by
  unfold makeDirectory at made
  split at made
  · cases made
  · rename_i place leads
    cases made
    have missing := lookup_of_follow_free (lead_eq_ok_iff.mp leads).2
    have inner : place ≠ [] := by
      rintro rfl
      rw [lookup_nil] at missing
      cases missing
    refine ⟨rfl, fun other => ?_⟩
    by_cases same : other = place
    · rw [same]
      exact .inr ⟨missing, lookup_put_self _ _ inner⟩
    · exact .inl (lookup_put_of_ne _ _ same)
  · cases made

theorem grows_ensureDirectory (tree : Tree) (path : Path) :
    Region.Grows tree (tree.ensureDirectory path).2 := by
  unfold ensureDirectory
  split
  · rename_i made
    exact grows_of_makeDirectory_eq_ok made
  · split <;> exact .refl tree

theorem grows_makeUpwards (tree : Tree) (paths : List Path) :
    Region.Grows tree (tree.makeUpwards paths).2 := by
  induction paths with
  | nil => exact .refl tree
  | cons path ancestors ih =>
      unfold makeUpwards
      split
      · rename_i made
        exact grows_of_makeDirectory_eq_ok made
      · split
        · rename_i above
          rw [above] at ih
          exact ih.trans (grows_ensureDirectory _ path)
        · exact ih
      · exact grows_ensureDirectory tree path

/-- Making directories adds directories, whether it succeeds or not. -/
theorem grows_makeDirectories (tree : Tree) (path : Path) :
    Region.Grows tree (tree.makeDirectories path).2 := by
  unfold makeDirectories
  split
  · exact .refl tree
  · exact grows_makeUpwards tree _

end Tree

end ImageGallery.Disk
