import ImageGallery.Proofs.Walk

/-!
# Files below a root without links

Where no link stands below a root, a path below it leads to the place of its names, along
directories. So an operation on a file changes this place and nothing else.
-/

namespace ImageGallery.Disk

open ImageGallery.Disk.Tree

/-! ## Where paths lead -/

/-- Names that a path below a text may go along. -/
structure Passable (root : String) (names : Place) : Prop where
  some_names : names ≠ []
  plain : ∀ name ∈ names, Plain name
  checked : checkPath (Path.display ⟨root, names⟩) = .ok ()

/-- The names of a text lead to the directory at a place, and no link stands below it. -/
structure Linkless (root : String) (base : Place) (tree : Tree) : Prop where
  way : Way tree linkLimit (if Path.isAbsolute root then [] else tree.current)
    (Path.withoutSlash (Path.split root)) base
  free : tree.LinkFree base

namespace Linkless

variable {root : String} {base : Place} {tree after : Tree} {names : Place}

theorem ne_slash_of_plain (plain : ∀ name ∈ names, Plain name) : names ≠ [""] := by
  rintro rfl
  exact (plain "" List.mem_cons_self).1 rfl

/-- A path along plain names leads to what stands there, or to a free place, and in both cases along
directories. -/
theorem of_lead (linkless : Linkless root base tree) (some_names : names ≠ [])
    (plain : ∀ name ∈ names, Plain name) {purpose : Purpose} {target : Target}
    (leads : tree.lead purpose ⟨root, names⟩ (Path.names ⟨root, names⟩) = .ok target) :
    Passable root names ∧ tree.Housed base names ∧
      ((∃ entry, tree.lookup (base ++ names) = some entry ∧
          target = .entry (base ++ names) entry) ∨
        tree.lookup (base ++ names) = none ∧ target = .free (base ++ names)) := by
  obtain ⟨left, below⟩ := linkless.way.lead_below
  obtain ⟨checked, follows⟩ :=
    (below purpose names target some_names (ne_slash_of_plain plain)).mp leads
  obtain ⟨housed, ends⟩ := housed_of_follow some_names plain linkless.free follows
  exact ⟨⟨some_names, plain, checked⟩, housed, ends⟩

/-- A path that can be passed leads to what stands at its place, or to a free name. -/
theorem lead_eq (linkless : Linkless root base tree) (passable : Passable root names)
    (housed : tree.Housed base names) (purpose : Purpose) :
    tree.lead purpose ⟨root, names⟩ (Path.names ⟨root, names⟩) =
      .ok (tree.targetAt (base ++ names)) := by
  obtain ⟨left, below⟩ := linkless.way.lead_below
  refine (below purpose names _ passable.some_names (ne_slash_of_plain passable.plain)).mpr
    ⟨passable.checked, ?_⟩
  exact follow_of_housed passable.some_names passable.plain linkless.free housed

theorem lead_entry (linkless : Linkless root base tree) (passable : Passable root names)
    (housed : tree.Housed base names) {entry : Entry}
    (there : tree.lookup (base ++ names) = some entry) (purpose : Purpose) :
    tree.lead purpose ⟨root, names⟩ (Path.names ⟨root, names⟩) =
      .ok (.entry (base ++ names) entry) := by
  rw [linkless.lead_eq passable housed, targetAt, there]

/-- A root stays without links when no link comes in. -/
theorem of_keeps (linkless : Linkless root base tree) (kept : Keeps tree after)
    (links : ∀ place target, after.lookup place = some (.link target) →
      tree.lookup place = some (.link target)) : Linkless root base after where
  way := by
    rw [kept.current_eq]
    exact linkless.way.of_keeps kept
  free below target some_below link := linkless.free below target some_below (links _ _ link)

/-! ## Operations -/

/-- A path at which a file is or can be made, along directories. -/
structure Open (root : String) (base : Place) (tree : Tree) (names : Place) : Prop where
  passable : Passable root names
  housed : tree.Housed base names
  loose : tree.Loose (base ++ names)

theorem Open.of_lead_file {content : Content} {place : Place}
    (linkless : Linkless root base tree) (some_names : names ≠ [])
    (plain : ∀ name ∈ names, Plain name) {purpose : Purpose}
    (leads : tree.lead purpose ⟨root, names⟩ (Path.names ⟨root, names⟩) =
      .ok (.entry place (.file content))) :
    Open root base tree names ∧ place = base ++ names ∧
      tree.lookup (base ++ names) = some (.file content) := by
  obtain ⟨passable, housed, ⟨entry, there, ends⟩ | ⟨-, ends⟩⟩ :=
    linkless.of_lead some_names plain leads
  · cases ends
    exact ⟨⟨passable, housed, .of_file there⟩, rfl, there⟩
  · cases ends

theorem Open.of_lead_free {place : Place} (linkless : Linkless root base tree)
    (some_names : names ≠ []) (plain : ∀ name ∈ names, Plain name) {purpose : Purpose}
    (leads : tree.lead purpose ⟨root, names⟩ (Path.names ⟨root, names⟩) = .ok (.free place)) :
    Open root base tree names ∧ place = base ++ names := by
  obtain ⟨passable, housed, ⟨entry, -, ends⟩ | ⟨missing, ends⟩⟩ :=
    linkless.of_lead some_names plain leads
  · cases ends
  · cases ends
    exact ⟨⟨passable, housed, .of_none missing⟩, rfl⟩

/-- No path below the root locates a link. -/
theorem ne_link_of_lead {place : Place} {target : String} (linkless : Linkless root base tree)
    (some_names : names ≠ []) (plain : ∀ name ∈ names, Plain name) {purpose : Purpose}
    (leads : tree.lead purpose ⟨root, names⟩ (Path.names ⟨root, names⟩) =
      .ok (.entry place (.link target))) : False := by
  obtain ⟨-, -, ⟨entry, there, ends⟩ | ⟨-, ends⟩⟩ := linkless.of_lead some_names plain leads
  · cases ends
    exact linkless.free _ _ some_names there
  · cases ends

/-- Writing a whole file. -/
theorem write_of_ok {bytes : Bytes} (linkless : Linkless root base tree) (some_names : names ≠ [])
    (plain : ∀ name ∈ names, Plain name) (written : tree.write ⟨root, names⟩ bytes = .ok after) :
    Open root base tree names ∧ after = tree.put (base ++ names) (.file (.ofBytes bytes)) := by
  unfold Tree.write at written
  split at written
  · rename_i leads
    obtain ⟨opened, rfl, -⟩ := Open.of_lead_file linkless some_names plain leads
    cases written
    exact ⟨opened, rfl⟩
  · cases written
  · rename_i leads
    obtain ⟨opened, rfl⟩ := Open.of_lead_free linkless some_names plain leads
    cases written
    exact ⟨opened, rfl⟩
  · cases written

/-- Adding bytes to a file. -/
theorem append_of_ok {chunk : Bytes} (linkless : Linkless root base tree) (some_names : names ≠ [])
    (plain : ∀ name ∈ names, Plain name) (appended : tree.append ⟨root, names⟩ chunk = .ok after) :
    ∃ content, tree.lookup (base ++ names) = some (.file content) ∧
      after = tree.put (base ++ names) (.file (content.append chunk)) := by
  unfold Tree.append at appended
  split at appended
  · rename_i content leads
    obtain ⟨-, rfl, there⟩ := Open.of_lead_file linkless some_names plain leads
    cases appended
    exact ⟨content, there, rfl⟩
  · cases appended
  · cases appended
  · cases appended

/-- Removing a file. It can be removed if its path can be passed. -/
theorem remove_eq_ok {content : Content} (linkless : Linkless root base tree)
    (passable : Passable root names) (housed : tree.Housed base names)
    (there : tree.lookup (base ++ names) = some (.file content)) :
    tree.remove ⟨root, names⟩ = .ok (tree.erase (base ++ names)) := by
  rw [Tree.remove, Tree.locate, linkless.lead_entry passable housed there]

/-- What is no file cannot be removed. -/
theorem remove_ne_ok (linkless : Linkless root base tree) (some_names : names ≠ [])
    (plain : ∀ name ∈ names, Plain name)
    (absent : ∀ content, tree.lookup (base ++ names) ≠ some (.file content)) :
    ∃ error, tree.remove ⟨root, names⟩ = .error error := by
  unfold Tree.remove
  split
  · exact ⟨_, rfl⟩
  · rename_i place entry no_directory leads
    cases entry with
    | directory => exact (no_directory rfl).elim
    | file content =>
        obtain ⟨-, -, there⟩ := Open.of_lead_file linkless some_names plain leads
        exact absurd there (absent content)
    | link target => exact (linkless.ne_link_of_lead some_names plain leads).elim
  · exact ⟨_, rfl⟩
  · exact ⟨_, rfl⟩

/-- Moving a file. -/
theorem rename_of_ok {old new : Place} {content : Content} (linkless : Linkless root base tree)
    (passable : Passable root old) (housed : tree.Housed base old)
    (there : tree.lookup (base ++ old) = some (.file content)) (some_new : new ≠ [])
    (plain : ∀ name ∈ new, Plain name)
    (renamed : tree.rename ⟨root, old⟩ ⟨root, new⟩ = .ok after) :
    Open root base tree new ∧
      after = (tree.erase (base ++ old)).put (base ++ new) (.file content) := by
  have source : tree.locate ⟨root, old⟩ = .ok (.entry (base ++ old) (.file content)) :=
    linkless.lead_entry passable housed there .locate
  unfold Tree.rename at renamed
  rw [source] at renamed
  dsimp only at renamed
  split at renamed
  · cases renamed
  · cases renamed
  · rename_i place entry no_directory leads
    cases entry with
    | directory => exact (no_directory rfl).elim
    | file other =>
        obtain ⟨opened, rfl, -⟩ := Open.of_lead_file linkless some_new plain leads
        cases renamed
        exact ⟨opened, rfl⟩
    | link target => exact (linkless.ne_link_of_lead some_new plain leads).elim
  · rename_i leads
    obtain ⟨opened, rfl⟩ := Open.of_lead_free linkless some_new plain leads
    cases renamed
    exact ⟨opened, rfl⟩

/-- A file can be written at a path that is open. -/
theorem Open.exists_write (opened : Open root base tree names) (linkless : Linkless root base tree)
    (bytes : Bytes) : ∃ after, tree.write ⟨root, names⟩ bytes = .ok after := by
  rw [Tree.write, linkless.lead_eq opened.passable opened.housed, targetAt]
  rcases opened.loose.none_or_file with missing | ⟨content, there⟩
  · rw [missing]
    exact ⟨_, rfl⟩
  · rw [there]
    exact ⟨_, rfl⟩

theorem append_eq_ok {content : Content} (linkless : Linkless root base tree)
    (passable : Passable root names) (housed : tree.Housed base names)
    (there : tree.lookup (base ++ names) = some (.file content)) (chunk : Bytes) :
    tree.append ⟨root, names⟩ chunk =
      .ok (tree.put (base ++ names) (.file (content.append chunk))) := by
  rw [Tree.append, Tree.resolve, linkless.lead_entry passable housed there]

/-- A file can be moved to a path that is open. -/
theorem Open.exists_rename {old : Place} {content : Content} (opened : Open root base tree names)
    (linkless : Linkless root base tree) (passable : Passable root old)
    (housed : tree.Housed base old) (there : tree.lookup (base ++ old) = some (.file content)) :
    ∃ after, tree.rename ⟨root, old⟩ ⟨root, names⟩ = .ok after := by
  rw [Tree.rename, Tree.locate, linkless.lead_entry passable housed there]
  dsimp only
  rw [Tree.locate, linkless.lead_eq opened.passable opened.housed, targetAt]
  rcases opened.loose.none_or_file with missing | ⟨other, there⟩
  · rw [missing]
    exact ⟨_, rfl⟩
  · rw [there]
    exact ⟨_, rfl⟩

/-- A path leads to a file exactly if one stands at its place and the path can be passed. -/
theorem isFile_iff (linkless : Linkless root base tree) (some_names : names ≠ [])
    (plain : ∀ name ∈ names, Plain name) : tree.isFile ⟨root, names⟩ = true ↔
      Passable root names ∧ tree.Housed base names ∧
        ∃ content, tree.lookup (base ++ names) = some (.file content) := by
  unfold Tree.isFile
  constructor
  · intro found
    split at found
    · rename_i place content leads
      obtain ⟨opened, -, there⟩ := Open.of_lead_file linkless some_names plain leads
      exact ⟨opened.passable, opened.housed, content, there⟩
    · cases found
  · rintro ⟨passable, housed, content, there⟩
    rw [Tree.resolve, linkless.lead_entry passable housed there]

/-- A path of two names leads to a file only if the second one stands for an entry. -/
theorem plain_of_isFile {above name : String} (linkless : Linkless root base tree)
    (plainAbove : Plain above) (found : tree.isFile ⟨root, [above, name]⟩ = true) :
    Plain name := by
  refine Classical.byContradiction fun dotted => ?_
  obtain ⟨left, below⟩ := linkless.way.lead_below
  unfold Tree.isFile at found
  split at found
  · rename_i leads
    have follows := ((below .find [above, name] _ (List.cons_ne_nil _ _) (by simp)).mp leads).2
    rw [follow_plain plainAbove (short_of_follow plainAbove (by simp) follows) (by simp)] at follows
    split at follows
    · cases follows
    · -- Any other name stands for this directory or for the one above.
      by_cases same : name = "" ∨ name = "."
      · rw [follow_stay same, follow] at follows
        cases follows
      · by_cases upwards : name = ".."
        · rw [upwards, follow_up, follow] at follows
          cases follows
        · exact dotted ⟨fun empty => same (.inl empty), fun dot => same (.inr dot), upwards⟩
    · cases follows
    · rename_i there
      exact absurd there (linkless.free _ _ (List.cons_ne_nil _ _))
  · cases found

/-- Whatever two names lead to a file, it stands at the place of the names. -/
theorem lookup_of_isFile {above name : String} (linkless : Linkless root base tree)
    (plainAbove : Plain above) (found : tree.isFile ⟨root, [above, name]⟩ = true) :
    ∃ content, tree.lookup (base ++ [above, name]) = some (.file content) := by
  have plain : ∀ other ∈ [above, name], Plain other := by
    rintro other (_ | ⟨_, _ | ⟨_, ⟨⟩⟩⟩)
    · exact plainAbove
    · exact linkless.plain_of_isFile plainAbove found
  exact ((linkless.isFile_iff (List.cons_ne_nil _ _) plain).mp found).2.2

end Linkless

end ImageGallery.Disk
