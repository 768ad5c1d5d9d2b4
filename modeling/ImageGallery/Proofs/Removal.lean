import ImageGallery.Blob.Local
import ImageGallery.Proofs.ClosedTree

/-!
# Removing files by their keys

Removing a key takes one entry away or none. What is checked is where the key leads through all
links, but what is taken away is the entry at the key's last name. The two differ when that entry is
a link, and then the entry may stand outside the root although the key leads to a file below it.
Apart from that nothing outside the root is touched.
-/

namespace ImageGallery

open Disk

/-! ## Keys -/

namespace Disk.Path

theorem ne_empty_of_mem_fields {text name : String}
    (mem : name ∈ ((Text.fields '/' text.toList).filter (· ≠ [])).map String.ofList) :
    name ≠ "" := by
  obtain ⟨chars, charsMem, rfl⟩ := List.mem_map.mp mem
  have some_chars := (List.mem_filter.mp charsMem).2
  simpa using some_chars

/-- No text consists of a slash after nothing. -/
theorem split_ne_slash (text : String) : split text ≠ [""] := by
  intro slash
  unfold split at slash
  dsimp only at slash
  split at slash
  · rename_i some_names
    exact some_names.1 (List.append_cancel_right (slash.trans (List.nil_append [""]).symm))
  · exact ne_empty_of_mem_fields (slash ▸ List.mem_singleton_self "") rfl

/-- A text that does not start with a slash has a first name. -/
theorem split_ne_nil {text : String} (some_text : text ≠ "") (relative : ¬isAbsolute text) :
    split text ≠ [] := by
  obtain ⟨first, rest, chars⟩ := List.exists_cons_of_ne_nil fun nothing =>
    some_text (String.toList_inj.mp nothing)
  have no_slash : first ≠ '/' := by
    rintro rfl
    apply relative
    rw [isAbsolute, chars]
    rfl
  have named : ((Text.fields '/' text.toList).filter (· ≠ [])).map String.ofList ≠ [] := by
    rw [chars, Text.fields, if_neg no_slash]
    split <;> simp
  unfold split
  dsimp only
  split
  · exact fun nothing => named (List.append_eq_nil_iff.mp nothing).1
  · exact named

end Disk.Path

namespace LocalBlobs

/-- A key that stands for a path has names, which lead below the root. -/
theorem eq_of_resolve?_eq_some {blobs : LocalBlobs} {key : String} {path : Path}
    (resolved : blobs.resolve? key = some path) :
    path = ⟨blobs.root, Path.split key⟩ ∧ Path.split key ≠ [] := by
  unfold resolve? at resolved
  split at resolved
  · cases resolved
  · rename_i relative
    split at resolved
    · cases resolved
    · cases resolved
      rw [not_or] at relative
      exact ⟨rfl, Path.split_ne_nil relative.1 relative.2⟩

/-! ## Inside and outside -/

/-- The directory at a place is the canonical root or below it. -/
def Encloses (blobs : LocalBlobs) (directory : Place) : Prop :=
  ∃ base, blobs.tree.canonical? blobs.rootPath = some base ∧ base <+: directory

/-- Exactly one entry was taken away: the one with the given name in the directory at a place. -/
structure Unlinked (before after : Tree) (directory : Place) (name : String) : Prop where
  there : before.lookup (directory ++ [name]) ≠ none
  gone : after.lookup (directory ++ [name]) = none
  elsewhere : ∀ place, place ≠ directory ++ [name] → after.lookup place = before.lookup place

/-- A removal that stays inside the root. -/
structure Confined (before after : LocalBlobs) (removed : Bool) : Prop where
  /-- Entries of directories outside the root are untouched. -/
  outside : ∀ directory name, ¬before.Encloses directory →
    after.tree.lookup (directory ++ [name]) = before.tree.lookup (directory ++ [name])
  inside : removed = true →
    ∃ directory name, before.Encloses directory ∧ Unlinked before.tree after.tree directory name
  kept : removed = false → after = before

/-- The key leads to a file below the root, but its last name is a link outside the root. -/
def Strays (blobs : LocalBlobs) (key : String) : Prop :=
  blobs.contains key = true ∧ ∃ path directory name target, blobs.resolve? key = some path ∧
    blobs.tree.locate path = .ok (.entry (directory ++ [name]) (.link target)) ∧
    ¬blobs.Encloses directory

variable {blobs : LocalBlobs} {key : String}

/-! ## Removing -/

theorem unlinked_erase {tree : Tree} {directory : Place} {name : String} {entry : Entry}
    (there : tree.lookup (directory ++ [name]) = some entry) :
    Unlinked tree (tree.erase (directory ++ [name])) directory name where
  there := by
    rw [there]
    exact Option.some_ne_none entry
  gone := Tree.lookup_erase_self tree (List.append_ne_nil_of_right_ne_nil _ (List.cons_ne_nil _ _))
  elsewhere _ differ := Tree.lookup_erase_of_ne tree differ

/-- What is no directory is held by one. -/
theorem exists_directory_of_lookup {tree : Tree} {place : Place} {entry : Entry}
    (there : tree.lookup place = some entry) (loose : entry ≠ .directory) :
    ∃ directory name, place = directory ++ [name] := by
  rcases List.eq_nil_or_concat place with rfl | ⟨directory, name, rfl⟩
  · rw [Tree.lookup_nil] at there
    exact absurd (Option.some.inj there).symm loose
  · exact ⟨directory, name, List.concat_eq_append⟩

theorem exists_of_isFile {tree : Tree} {path : Path} (isFile : tree.isFile path = true) :
    ∃ place content, tree.resolve path = .ok (.entry place (.file content)) := by
  unfold Tree.isFile at isFile
  split at isFile
  · exact ⟨_, _, by assumption⟩
  · cases isFile

/-- A key that leads to a file is contained exactly if the directory of the file is inside. -/
theorem contains_iff_encloses (closed : blobs.tree.Closed) {path : Path} {directory : Place}
    {name : String} {content : Content} (resolved : blobs.resolve? key = some path)
    (leads : blobs.tree.resolve path = .ok (.entry (directory ++ [name]) (.file content))) :
    blobs.contains key = true ↔ blobs.Encloses directory := by
  obtain ⟨rfl, some_names⟩ := eq_of_resolve?_eq_some resolved
  have isFile : blobs.tree.isFile ⟨blobs.root, Path.split key⟩ = true := by
    rw [Tree.isFile, leads]
  have canonical : blobs.tree.canonical? ⟨blobs.root, Path.split key⟩ =
      some (directory ++ [name]) := by
    rw [Tree.canonical?, leads]
  rw [contains, resolved]
  dsimp only
  rw [isFile, Bool.true_and, isContained, canonical]
  cases root : blobs.tree.canonical? blobs.rootPath with
  | none =>
      refine ⟨fun impossible => ?_, fun ⟨base, some_root, _⟩ => ?_⟩
      · cases impossible
      · rw [root] at some_root
        cases some_root
  | some base =>
      dsimp only
      have rooted := Tree.rooted_of_canonical? some_names (Path.split_ne_slash key) root leads
      rw [List.isPrefixOf_iff_prefix, List.prefix_concat_iff]
      constructor
      · rintro (same | below)
        · have file := closed.lookup_of_lead leads
          rw [← same, closed.lookup_of_lead rooted] at file
          cases file
        · exact ⟨base, root, below⟩
      · rintro ⟨other, otherRoot, below⟩
        rw [root] at otherRoot
        cases otherRoot
        exact .inr below

/-- A removal takes away nothing, or one entry, which is inside the root unless the key strays. -/
theorem delete_cases (closed : blobs.tree.Closed) (key : String) :
    blobs.delete key = (false, blobs) ∧ ¬blobs.Strays key ∨
      ∃ after directory name, blobs.delete key = (true, after) ∧
        Unlinked blobs.tree after.tree directory name ∧
        (blobs.Encloses directory ↔ ¬blobs.Strays key) := by
  rcases resolved : blobs.resolve? key with _ | path
  · refine .inl ⟨by rw [delete, resolved], ?_⟩
    rintro ⟨-, path, _, _, _, impossible, -⟩
    rw [resolved] at impossible
    cases impossible
  · by_cases found : blobs.tree.isFile path = true ∧ blobs.isContained path = true
    · right
      have contained : blobs.contains key = true := by
        rw [contains, resolved]
        exact Bool.and_eq_true_iff.mpr found
      obtain ⟨place, content, leads⟩ := exists_of_isFile found.1
      -- What is removed stands where the path is located, and that may be a link.
      have removing {directory : Place} {name : String} {entry : Entry}
          (loose : entry ≠ .directory)
          (located : blobs.tree.locate path = .ok (.entry (directory ++ [name]) entry)) :
          blobs.delete key = (true, { blobs with tree := blobs.tree.erase (directory ++ [name]) }) ∧
            Unlinked blobs.tree (blobs.tree.erase (directory ++ [name])) directory name := by
        refine ⟨?_, unlinked_erase (closed.lookup_of_lead located)⟩
        rw [delete, resolved]
        dsimp only
        rw [if_pos found, Tree.remove, located]
        cases entry with
        | directory => exact absurd rfl loose
        | file content => rfl
        | link target => rfl
      rcases Tree.locate_of_resolve leads with located | ⟨place, target, located⟩
      · obtain ⟨directory, name, rfl⟩ :=
          exists_directory_of_lookup (closed.lookup_of_lead located) (by simp)
        obtain ⟨deleted, unlinked⟩ := removing (by simp) located
        refine ⟨_, directory, name, deleted, unlinked, fun _ => ?_, fun _ => ?_⟩
        · rintro ⟨-, other, _, _, _, otherResolved, otherLocated, -⟩
          rw [resolved] at otherResolved
          cases otherResolved
          rw [located] at otherLocated
          obtain ⟨-, impossible⟩ := Tree.Target.entry.inj (Except.ok.inj otherLocated)
          cases impossible
        · exact (contains_iff_encloses closed resolved leads).mp contained
      · obtain ⟨directory, name, rfl⟩ :=
          exists_directory_of_lookup (closed.lookup_of_lead located) (by simp)
        obtain ⟨deleted, unlinked⟩ := removing (by simp) located
        refine ⟨_, directory, name, deleted, unlinked, fun enclosed => ?_, fun straight => ?_⟩
        · rintro ⟨-, other, _, _, _, otherResolved, otherLocated, outside⟩
          rw [resolved] at otherResolved
          cases otherResolved
          rw [located] at otherLocated
          obtain ⟨same, -⟩ := Tree.Target.entry.inj (Except.ok.inj otherLocated)
          obtain ⟨rfl, -⟩ := List.append_inj' same rfl
          exact outside enclosed
        · apply Classical.byContradiction
          intro outside
          exact straight ⟨contained, path, directory, name, target, resolved, located, outside⟩
    · refine .inl ⟨?_, fun strays => ?_⟩
      · rw [delete, resolved]
        dsimp only
        rw [if_neg found]
      · have contained := strays.1
        rw [contains, resolved] at contained
        exact found (Bool.and_eq_true_iff.mp contained)

/-- Removing a key that strays takes away an entry outside the root. -/
theorem delete_of_strays (closed : blobs.tree.Closed) (strays : blobs.Strays key) :
    (blobs.delete key).1 = true ∧
      ¬Confined blobs (blobs.delete key).2 (blobs.delete key).1 := by
  rcases delete_cases closed key with
    ⟨-, straight⟩ | ⟨after, directory, name, removed, unlinked, inside⟩
  · exact absurd strays straight
  · rw [removed]
    refine ⟨rfl, fun confined => unlinked.there ?_⟩
    rw [← confined.outside directory name fun enclosed => inside.mp enclosed strays]
    exact unlinked.gone

/-- A link below the root leads out, to a directory with a link that leads back to a file below the
root. -/
def leadingBack : LocalBlobs where
  root := "/root"
  chunkSize := 1
  names := { draws := fun _ => default }
  tree :=
    { entries :=
        [(["root"], .directory), (["root", "x.png"], .file (.ofBytes [1])),
          (["root", "link"], .link "/outside"), (["outside"], .directory),
          (["outside", "back"], .link "/root/x.png")] }

theorem closed_leadingBack : leadingBack.tree.Closed :=
  .of_entries (by decide) rfl

theorem split_leadingBack : Path.split "/outside" = ["outside"] ∧
    Path.split "/root/x.png" = ["root", "x.png"] := by
  decide +kernel

end LocalBlobs

end ImageGallery
