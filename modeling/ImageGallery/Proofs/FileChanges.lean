import ImageGallery.Proofs.ClosedTree

/-!
# Changes of files

Some places of a tree belong to a sequence of steps, which change files there and nothing else.
Where the directories of these places are does not matter, as long as no link bears the name of an
entry that is changed: a link would be followed.
-/

namespace ImageGallery.Disk

/-! ## Changes of files -/

/-- Two trees differ at some places only, where there are files or nothing. -/
structure Touches (own : Place → Prop) (tree after : Tree) : Prop where
  current_eq : after.current = tree.current
  lookup_eq : ∀ place, after.lookup place = tree.lookup place ∨
    own place ∧ tree.Loose place ∧ after.Loose place

namespace Touches

variable {own : Place → Prop} {tree middle after : Tree} {place : Place}

theorem refl (own : Place → Prop) (tree : Tree) : Touches own tree tree :=
  ⟨rfl, fun _ => .inl rfl⟩

theorem symm (touched : Touches own tree after) : Touches own after tree where
  current_eq := touched.current_eq.symm
  lookup_eq place := (touched.lookup_eq place).imp Eq.symm fun ⟨mine, before, now⟩ =>
    ⟨mine, now, before⟩

theorem trans (first : Touches own tree middle) (second : Touches own middle after) :
    Touches own tree after where
  current_eq := second.current_eq.trans first.current_eq
  lookup_eq place := by
    rcases first.lookup_eq place with unchanged | ⟨mine, before, between⟩
    · rcases second.lookup_eq place with same | ⟨mine, between, now⟩
      · exact .inl (same.trans unchanged)
      · exact .inr ⟨mine, between.of_lookup_eq unchanged.symm, now⟩
    · rcases second.lookup_eq place with same | ⟨-, -, now⟩
      · exact .inr ⟨mine, before, between.of_lookup_eq same⟩
      · exact .inr ⟨mine, before, now⟩

/-- Where there is a file or nothing afterwards, there was before. -/
theorem loose (touched : Touches own tree after) (now : after.Loose place) : tree.Loose place := by
  rcases touched.lookup_eq place with same | ⟨-, before, -⟩
  · exact now.of_lookup_eq same.symm
  · exact before

theorem keeps (touched : Touches own tree after) : Keeps tree after where
  current_eq := touched.current_eq
  directory place there := by
    rcases touched.lookup_eq place with same | ⟨-, loose, -⟩
    · rw [same, there]
    · exact absurd there loose.1
  link place target there := by
    rcases touched.lookup_eq place with same | ⟨-, loose, -⟩
    · rw [same, there]
    · exact absurd there (loose.2 target)

theorem put (mine : own place) (loose : tree.Loose place) (content : Content) :
    Touches own tree (tree.put place (.file content)) where
  current_eq := rfl
  lookup_eq other := by
    by_cases same : other = place
    · have inner : place ≠ [] := fun nothing => loose.1 (by rw [nothing, Tree.lookup_nil])
      rw [same]
      exact .inr ⟨mine, loose, .of_file (Tree.lookup_put_self tree _ inner)⟩
    · exact .inl (Tree.lookup_put_of_ne tree _ same)

theorem put_self (loose : tree.Loose place) (content : Content) :
    Touches (· = place) tree (tree.put place (.file content)) :=
  @put (· = place) tree place rfl loose content

theorem erase (mine : own place) (loose : tree.Loose place) :
    Touches own tree (tree.erase place) where
  current_eq := rfl
  lookup_eq other := by
    by_cases same : other = place
    · have inner : place ≠ [] := fun nothing => loose.1 (by rw [nothing, Tree.lookup_nil])
      rw [same]
      exact .inr ⟨mine, loose, .of_none (Tree.lookup_erase_self tree inner)⟩
    · exact .inl (Tree.lookup_erase_of_ne tree same)

/-- A tree stays one if what changes stands in directories. -/
theorem closed (touched : Touches own tree after) (closed : tree.Closed)
    (housed : ∀ place, own place → ∃ directory name, place = directory ++ [name] ∧
      tree.lookup directory = some .directory) : after.Closed where
  above place name entry there := by
    apply touched.keeps.directory
    rcases touched.lookup_eq (place ++ [name]) with same | ⟨mine, -⟩
    · exact closed.above place name entry (same ▸ there)
    · obtain ⟨directory, other, split, found⟩ := housed _ mine
      obtain ⟨rfl, -⟩ := List.append_inj' split rfl
      exact found
  current := by
    rw [touched.current_eq]
    exact touched.keeps.directory _ closed.current

end Touches

theorem Linkless.touch {root : String} {base : Place} {own : Place → Prop} {tree after : Tree}
    (linkless : Linkless root base tree) (touched : Touches own tree after) :
    Linkless root base after :=
  linkless.of_keeps touched.keeps touched.symm.keeps.link

/-! ## Changes of an entry by its path -/

/-- No link bears a name. -/
def Tree.Unlinked (tree : Tree) (name : String) : Prop :=
  ∀ place target, tree.lookup (place ++ [name]) ≠ some (.link target)

theorem Tree.Unlinked.grow {tree after : Tree} {name : String} (unlinked : tree.Unlinked name)
    (grown : Region.Grows tree after) : after.Unlinked name := by
  intro place target link
  rcases grown.lookup_eq (place ++ [name]) with same | ⟨-, made⟩
  · exact unlinked place target (same ▸ link)
  · rw [link] at made
    cases made

/-- A path of an entry that steps own, wherever its directory is. No link bears its name. -/
structure Owned (own : Place → Prop) (ground : Tree) (root : String) (above : List String)
    (name : String) : Prop where
  some_names : above ≠ []
  named : ∀ name ∈ above, name ≠ ""
  plain : Tree.Plain name
  unlinked : ground.Unlinked name
  mine : ∀ directory, ground.resolve ⟨root, above⟩ = .ok (.entry directory .directory) →
    own (directory ++ [name])

namespace Owned

variable {own : Place → Prop} {ground tree after : Tree} {root name : String} {above : List String}

/-- The path leads to the entry in the directory, which is a file if it is no directory. -/
theorem of_lead (owned : Owned own ground root above name) (touched : Touches own ground tree)
    {purpose : Tree.Purpose} {target : Tree.Target}
    (leads : tree.lead purpose ⟨root, above ++ [name]⟩ (Path.names ⟨root, above ++ [name]⟩) =
      .ok target) :
    ∃ directory, ground.resolve ⟨root, above⟩ = .ok (.entry directory .directory) ∧
      name.utf8ByteSize ≤ Tree.nameLimit ∧
      (target = .entry (directory ++ [name]) .directory ∨
        (∃ content, tree.lookup (directory ++ [name]) = some (.file content) ∧
          target = .entry (directory ++ [name]) (.file content)) ∨
        tree.lookup (directory ++ [name]) = none ∧ target = .free (directory ++ [name])) := by
  have unlinked : tree.Unlinked name := fun place way link =>
    owned.unlinked place way (touched.symm.keeps.link _ _ link)
  obtain ⟨directory, resolved, short, ⟨entry, there, ends⟩ | free⟩ :=
    Tree.exists_directory_of_lead owned.some_names owned.named owned.plain unlinked leads
  · refine ⟨directory, Tree.resolve_directory_of_keeps touched.symm.keeps resolved, short, ?_⟩
    cases entry with
    | directory => exact .inl ends
    | file content => exact .inr (.inl ⟨content, there, ends⟩)
    | link way => exact absurd there (unlinked directory way)
  · exact ⟨directory, Tree.resolve_directory_of_keeps touched.symm.keeps resolved, short,
      .inr (.inr free)⟩

/-- A file that is written whole is put in its directory. -/
theorem write_eq (owned : Owned own ground root above name) (touched : Touches own ground tree)
    {bytes : Bytes} (written : tree.write ⟨root, above ++ [name]⟩ bytes = .ok after) :
    ∃ directory, ground.resolve ⟨root, above⟩ = .ok (.entry directory .directory) ∧
      tree.Loose (directory ++ [name]) ∧
      after = tree.put (directory ++ [name]) (.file (.ofBytes bytes)) := by
  unfold Tree.write at written
  split at written
  · rename_i leads
    obtain ⟨directory, resolved, -, ends | ⟨content, there, ends⟩ | ⟨-, ends⟩⟩ :=
      owned.of_lead touched leads
    · cases ends
    · cases ends
      cases written
      exact ⟨directory, resolved, .of_file there, rfl⟩
    · cases ends
  · cases written
  · rename_i leads
    obtain ⟨directory, resolved, -, ends | ⟨content, -, ends⟩ | ⟨missing, ends⟩⟩ :=
      owned.of_lead touched leads
    · cases ends
    · cases ends
    · cases ends
      cases written
      exact ⟨directory, resolved, .of_none missing, rfl⟩
  · cases written

theorem write (owned : Owned own ground root above name) (touched : Touches own ground tree)
    {bytes : Bytes} (written : tree.write ⟨root, above ++ [name]⟩ bytes = .ok after) :
    Touches own ground after := by
  obtain ⟨directory, resolved, loose, rfl⟩ := owned.write_eq touched written
  exact touched.trans (.put (owned.mine directory resolved) loose _)

/-- A chunk is added to the file in its directory. -/
theorem append_eq (owned : Owned own ground root above name) (touched : Touches own ground tree)
    {chunk : Bytes} (appended : tree.append ⟨root, above ++ [name]⟩ chunk = .ok after) :
    ∃ directory content, ground.resolve ⟨root, above⟩ = .ok (.entry directory .directory) ∧
      tree.lookup (directory ++ [name]) = some (.file content) ∧
      after = tree.put (directory ++ [name]) (.file (content.append chunk)) := by
  unfold Tree.append at appended
  split at appended
  · rename_i leads
    obtain ⟨directory, resolved, -, ends | ⟨content, there, ends⟩ | ⟨-, ends⟩⟩ :=
      owned.of_lead touched leads
    · cases ends
    · cases ends
      cases appended
      exact ⟨directory, _, resolved, there, rfl⟩
    · cases ends
  · cases appended
  · cases appended
  · cases appended

theorem append (owned : Owned own ground root above name) (touched : Touches own ground tree)
    {chunk : Bytes} (appended : tree.append ⟨root, above ++ [name]⟩ chunk = .ok after) :
    Touches own ground after := by
  obtain ⟨directory, content, resolved, there, rfl⟩ := owned.append_eq touched appended
  exact touched.trans (.put (owned.mine directory resolved) (.of_file there) _)

theorem remove (owned : Owned own ground root above name) (touched : Touches own ground tree)
    (removed : tree.remove ⟨root, above ++ [name]⟩ = .ok after) : Touches own ground after := by
  unfold Tree.remove at removed
  split at removed
  · cases removed
  · rename_i not_directory leads
    obtain ⟨directory, resolved, -, ends | ⟨content, there, ends⟩ | ⟨-, ends⟩⟩ :=
      owned.of_lead touched leads
    · cases ends
      exact (not_directory rfl).elim
    · cases ends
      cases removed
      exact touched.trans
        (.erase (owned.mine directory resolved) (.of_file there))
    · cases ends
  · cases removed
  · cases removed

/-- A file that is moved is taken away from its place and put at the other one. -/
theorem rename {targetAbove : List String} {targetName : String}
    (source : Owned own ground root above name)
    (target : Owned own ground root targetAbove targetName) (touched : Touches own ground tree)
    (renamed : tree.rename ⟨root, above ++ [name]⟩ ⟨root, targetAbove ++ [targetName]⟩ =
      .ok after) :
    ∃ old directory content,
      ground.resolve ⟨root, above⟩ = .ok (.entry old .directory) ∧
      ground.resolve ⟨root, targetAbove⟩ = .ok (.entry directory .directory) ∧
      targetName.utf8ByteSize ≤ Tree.nameLimit ∧
      Tree.checkPath (Path.display ⟨root, targetAbove ++ [targetName]⟩) = .ok () ∧
      tree.lookup (old ++ [name]) = some (.file content) ∧
      tree.Loose (directory ++ [targetName]) ∧
      after = (tree.erase (old ++ [name])).put (directory ++ [targetName]) (.file content) := by
  unfold Tree.rename at renamed
  split at renamed
  · cases renamed
  · cases renamed
  · cases renamed
  · rename_i not_directory leads
    obtain ⟨old, resolved, -, ends | ⟨content, there, ends⟩ | ⟨-, ends⟩⟩ :=
      source.of_lead touched leads
    · cases ends
      exact (not_directory rfl).elim
    · cases ends
      split at renamed
      · cases renamed
      · cases renamed
      · rename_i not_directory leads
        obtain ⟨directory, found, short, ends | ⟨other, occupied, ends⟩ | ⟨-, ends⟩⟩ :=
          target.of_lead touched leads
        · cases ends
          exact (not_directory rfl).elim
        · cases ends
          cases renamed
          exact ⟨old, directory, content, resolved, found, short,
            (Tree.lead_eq_ok_iff.mp leads).1, there, .of_file occupied, rfl⟩
        · cases ends
      · rename_i leads
        obtain ⟨directory, found, short, ends | ⟨other, -, ends⟩ | ⟨missing, ends⟩⟩ :=
          target.of_lead touched leads
        · cases ends
        · cases ends
        · cases ends
          cases renamed
          exact ⟨old, directory, content, resolved, found, short,
            (Tree.lead_eq_ok_iff.mp leads).1, there, .of_none missing, rfl⟩
    · cases ends

end Owned

/-- Moving a file changes its place and the other one. -/
theorem Touches.move {own : Place → Prop} {ground tree : Tree} {old new : Place} {content : Content}
    (touched : Touches own ground tree) (oldMine : own old) (newMine : own new)
    (there : tree.lookup old = some (.file content)) (loose : tree.Loose new) :
    Touches own ground ((tree.erase old).put new (.file content)) := by
  have erased : Touches own tree (tree.erase old) :=
    .erase oldMine (.of_file there)
  refine (touched.trans erased).trans (.put newMine ?_ content)
  rcases erased.symm.lookup_eq new with same | ⟨-, looseErased, -⟩
  · exact loose.of_lookup_eq same.symm
  · exact looseErased

end ImageGallery.Disk
