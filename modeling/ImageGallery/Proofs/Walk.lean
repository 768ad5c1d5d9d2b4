import ImageGallery.Disk.Tree

/-!
# Walks in a tree

Where a path leads depends on the directories and links on its way only. A path that goes on below
a directory first leads to the directory, and where there are no links it leads on from name to
name.
-/

namespace ImageGallery.Disk

/-- Neither a directory nor a link stands at a place. -/
def Tree.Loose (tree : Tree) (place : Place) : Prop :=
  tree.lookup place ≠ some .directory ∧ ∀ target, tree.lookup place ≠ some (.link target)

namespace Tree.Loose

variable {tree after : Tree} {place : Place}

theorem of_file {content : Content} (there : tree.lookup place = some (.file content)) :
    tree.Loose place := by
  rw [Loose, there]
  simp

theorem of_none (missing : tree.lookup place = none) : tree.Loose place := by
  rw [Loose, missing]
  simp

theorem of_lookup_eq (same : after.lookup place = tree.lookup place) (loose : tree.Loose place) :
    after.Loose place := by
  rw [Loose, same]
  exact loose

theorem none_or_file (loose : tree.Loose place) :
    tree.lookup place = none ∨ ∃ content, tree.lookup place = some (.file content) := by
  cases found : tree.lookup place with
  | none => exact .inl rfl
  | some entry =>
      cases entry with
      | directory => exact absurd found loose.1
      | file content => exact .inr ⟨content, rfl⟩
      | link target => exact absurd found (loose.2 target)

theorem lookup_eq_none (loose : tree.Loose place)
    (absent : ∀ content, tree.lookup place ≠ some (.file content)) : tree.lookup place = none :=
  loose.none_or_file.resolve_right fun ⟨content, there⟩ => absent content there

end Tree.Loose

/-- Every directory and every link of a tree stands in another one as well. -/
structure Keeps (tree other : Tree) : Prop where
  current_eq : other.current = tree.current
  directory : ∀ place, tree.lookup place = some .directory → other.lookup place = some .directory
  link : ∀ place target,
    tree.lookup place = some (.link target) → other.lookup place = some (.link target)

namespace Keeps

theorem refl (tree : Tree) : Keeps tree tree :=
  ⟨rfl, fun _ there => there, fun _ _ there => there⟩

theorem trans {first second third : Tree} (left : Keeps first second) (right : Keeps second third) :
    Keeps first third where
  current_eq := right.current_eq.trans left.current_eq
  directory place there := right.directory place (left.directory place there)
  link place target there := right.link place target (left.link place target there)

/-- Taking a file away. -/
theorem erase {tree : Tree} {place : Place} (loose : tree.Loose place) :
    Keeps tree (tree.erase place) where
  current_eq := rfl
  directory other there := by
    rw [Tree.lookup_erase_of_ne]
    · exact there
    · rintro rfl
      exact loose.1 there
  link other target there := by
    rw [Tree.lookup_erase_of_ne]
    · exact there
    · rintro rfl
      exact loose.2 target there

end Keeps

namespace Tree

/-- What stands at a place is among the entries that a tree is made of. -/
theorem mem_entries_of_lookup {tree : Tree} {place : Place} {entry : Entry} (inner : place ≠ [])
    (there : tree.lookup place = some entry) : (place, entry) ∈ tree.entries := by
  rw [lookup, if_neg inner] at there
  obtain ⟨found, listed, rfl⟩ := Option.map_eq_some_iff.mp there
  have same : found.1 = place := by simpa using List.find?_some listed
  rw [← same]
  exact List.mem_of_find?_eq_some listed

/-! ## Ways to directories -/

/-- A name that stands for an entry of the directory it is looked up in. -/
def Plain (name : String) : Prop :=
  name ≠ "" ∧ name ≠ "." ∧ name ≠ ".."

/-- A way along names from a place to a directory, on which at most so many links are followed. -/
inductive Way (tree : Tree) : (links : Nat) → Place → List String → Place → Prop where
  | here {links : Nat} {place : Place} : Way tree links place [] place
  | stay {links : Nat} {place base : Place} {name : String} {rest : List String}
      (same : name = "" ∨ name = ".") (way : Way tree links place rest base) :
      Way tree links place (name :: rest) base
  | up {links : Nat} {place base : Place} {rest : List String}
      (way : Way tree links place.dropLast rest base) : Way tree links place (".." :: rest) base
  | down {links : Nat} {place base : Place} {name : String} {rest : List String}
      (plain : Plain name) (short : name.utf8ByteSize ≤ nameLimit)
      (there : tree.lookup (place ++ [name]) = some .directory)
      (way : Way tree links (place ++ [name]) rest base) :
      Way tree links place (name :: rest) base
  | along {links : Nat} {place base : Place} {name target : String} {rest : List String}
      (plain : Plain name) (short : name.utf8ByteSize ≤ nameLimit)
      (there : tree.lookup (place ++ [name]) = some (.link target))
      (way : Way tree links (if Path.isAbsolute target then [] else place)
        (Path.split target ++ rest) base) :
      Way tree (links + 1) place (name :: rest) base

theorem follow_stay {tree : Tree} {purpose : Purpose} {links : Nat} {place : Place} {name : String}
    {rest : List String} (same : name = "" ∨ name = ".") :
    tree.follow purpose links place (name :: rest) = tree.follow purpose links place rest := by
  rw [follow, if_pos same]

theorem follow_up {tree : Tree} {purpose : Purpose} {links : Nat} {place : Place}
    {rest : List String} : tree.follow purpose links place (".." :: rest) =
      tree.follow purpose links place.dropLast rest := by
  rw [follow, if_neg (by decide), if_pos rfl]

/-- Following a plain name, unless a slash follows the name of a file to be made. -/
theorem follow_plain {tree : Tree} {purpose : Purpose} {links : Nat} {place : Place} {name : String}
    {rest : List String} (plain : Plain name) (short : name.utf8ByteSize ≤ nameLimit)
    (open_end : ¬(purpose = .create ∧ rest = [""])) :
    tree.follow purpose links place (name :: rest) =
      match tree.lookup (place ++ [name]) with
      | none => if rest = [] then .ok (.free (place ++ [name])) else .error .notFound
      | some .directory => tree.follow purpose links (place ++ [name]) rest
      | some (.file content) =>
        if rest = [] then .ok (.entry (place ++ [name]) (.file content)) else .error .notDirectory
      | some (.link target) =>
        if rest = [] ∧ purpose = .locate then .ok (.entry (place ++ [name]) (.link target))
        else
          match links with
          | 0 => .error .tooManyLinks
          | links + 1 =>
            tree.follow purpose links (if Path.isAbsolute target then [] else place)
              (Path.split target ++ rest) := by
  rw [follow, if_neg (not_or.mpr ⟨plain.1, plain.2.1⟩), if_neg plain.2.2, if_neg open_end]
  exact if_neg (Nat.not_lt.mpr short)

/-- A name that a path leads along is not too long. -/
theorem short_of_follow {tree : Tree} {purpose : Purpose} {links : Nat} {place : Place}
    {name : String} {rest : List String} {target : Target} (plain : Plain name)
    (open_end : ¬(purpose = .create ∧ rest = [""]))
    (leads : tree.follow purpose links place (name :: rest) = .ok target) :
    name.utf8ByteSize ≤ nameLimit := by
  apply Nat.not_lt.mp
  intro long
  rw [follow, if_neg (not_or.mpr ⟨plain.1, plain.2.1⟩), if_neg plain.2.2, if_neg open_end,
    if_pos long] at leads
  cases leads

/-- Where a name leads from a directory if no link bears it there. -/
theorem follow_name {tree : Tree} {purpose : Purpose} {links : Nat} {place : Place} {name : String}
    {target : Target} (plain : Plain name)
    (unlinked : ∀ way, tree.lookup (place ++ [name]) ≠ some (.link way))
    (leads : tree.follow purpose links place [name] = .ok target) :
    (∃ entry, tree.lookup (place ++ [name]) = some entry ∧
        target = .entry (place ++ [name]) entry) ∨
      tree.lookup (place ++ [name]) = none ∧ target = .free (place ++ [name]) := by
  have open_end : ¬(purpose = .create ∧ ([] : List String) = [""]) := by simp
  rw [follow_plain plain (short_of_follow plain open_end leads) open_end] at leads
  cases there : tree.lookup (place ++ [name]) with
  | none =>
      rw [there] at leads
      cases leads
      exact .inr ⟨rfl, rfl⟩
  | some entry =>
      rw [there] at leads
      cases entry with
      | directory =>
          dsimp only at leads
          rw [follow] at leads
          cases leads
          exact .inl ⟨_, rfl, rfl⟩
      | file content =>
          cases leads
          exact .inl ⟨_, rfl, rfl⟩
      | link way => exact absurd there (unlinked way)

/-- A path that leads to a directory leads there on a way. -/
theorem way_of_follow {tree : Tree} {links : Nat} {place base : Place} {names : List String}
    (leads : tree.follow .find links place names = .ok (.entry base .directory)) :
    Way tree links place names base := by
  induction links using Nat.strongRecOn generalizing place names with
  | _ links outer =>
      induction names generalizing place with
      | nil =>
          rw [follow] at leads
          cases leads
          exact .here
      | cons name rest ih =>
          by_cases same : name = "" ∨ name = "."
          · rw [follow_stay same] at leads
            exact .stay same (ih leads)
          · by_cases upwards : name = ".."
            · subst upwards
              rw [follow_up] at leads
              exact .up (ih leads)
            · have plain : Plain name := ⟨fun empty => same (.inl empty),
                fun dot => same (.inr dot), upwards⟩
              by_cases short : name.utf8ByteSize ≤ nameLimit
              · rw [follow_plain plain short (by simp)] at leads
                split at leads
                · split at leads <;> cases leads
                · rename_i there
                  exact .down plain short there (ih leads)
                · split at leads <;> cases leads
                · rename_i target there
                  rw [if_neg (by simp)] at leads
                  cases links with
                  | zero => cases leads
                  | succ links =>
                      exact .along plain short there (outer links (Nat.lt_succ_self _) leads)
              · rw [follow, if_neg same, if_neg upwards, if_neg (by simp),
                  if_pos (Nat.not_le.mp short)] at leads
                cases leads

/-- Nothing stands at a free place that a path leads to. -/
theorem lookup_of_follow_free {tree : Tree} {purpose : Purpose} {links : Nat} {place free : Place}
    {names : List String}
    (leads : tree.follow purpose links place names = .ok (.free free)) :
    tree.lookup free = none := by
  induction links using Nat.strongRecOn generalizing place names with
  | _ links outer =>
      induction names generalizing place with
      | nil =>
          rw [follow] at leads
          cases leads
      | cons name rest ih =>
          rw [follow] at leads
          dsimp only at leads
          split at leads
          · exact ih leads
          · split at leads
            · exact ih leads
            · split at leads
              · cases leads
              · split at leads
                · cases leads
                · split at leads
                  · rename_i missing
                    split at leads
                    · cases leads
                      exact missing
                    · cases leads
                  · exact ih leads
                  · split at leads <;> cases leads
                  · split at leads
                    · cases leads
                    · split at leads
                      · cases leads
                      · exact outer _ (Nat.lt_succ_self _) leads

namespace Way

/-- A way leads to its directory. -/
theorem follow_eq {tree : Tree} {links : Nat} {place base : Place} {names : List String}
    (way : Way tree links place names base) :
    tree.follow .find links place names = .ok (.entry base .directory) := by
  induction way with
  | here => rw [follow]
  | stay same _ ih => rwa [follow_stay same]
  | up _ ih => rwa [follow_up]
  | down plain short there _ ih =>
      rw [follow_plain plain short (by simp), there]
      exact ih
  | along plain short there _ ih =>
      rw [follow_plain plain short (by simp), there]
      dsimp only
      rwa [if_neg (by simp)]

/-- Names that are more than a slash do not become one with names before them. -/
theorem append_ne_slash {rest more : List String} (some_more : more ≠ [])
    (more_names : more ≠ [""]) : rest ++ more ≠ [""] := by
  intro ends
  rcases List.append_eq_singleton_iff.mp ends with ⟨_, slash⟩ | ⟨_, nothing⟩
  · exact more_names slash
  · exact some_more nothing

/-- A way stays one while directories and links are kept. -/
theorem of_keeps {tree other : Tree} (kept : Keeps tree other) {links : Nat} {place base : Place}
    {names : List String} (way : Way tree links place names base) :
    Way other links place names base := by
  induction way with
  | here => exact .here
  | stay same _ ih => exact .stay same ih
  | up _ ih => exact .up ih
  | down plain short there _ ih => exact .down plain short (kept.directory _ there) ih
  | along plain short there _ ih => exact .along plain short (kept.link _ _ there) ih

/-- A path that goes on from the end of a way leads where it leads from there. -/
theorem follow_append {tree : Tree} {links : Nat} {place base : Place} {names : List String}
    (way : Way tree links place names base) :
    ∃ left, ∀ purpose more, more ≠ [] → more ≠ [""] →
      tree.follow purpose links place (names ++ more) = tree.follow purpose left base more := by
  induction way with
  | @here links _ => exact ⟨links, fun _ _ _ _ => rfl⟩
  | stay same _ ih =>
      obtain ⟨left, leads⟩ := ih
      refine ⟨left, fun purpose more some_more more_names => ?_⟩
      rw [List.cons_append, follow_stay same, leads purpose more some_more more_names]
  | up _ ih =>
      obtain ⟨left, leads⟩ := ih
      refine ⟨left, fun purpose more some_more more_names => ?_⟩
      rw [List.cons_append, follow_up, leads purpose more some_more more_names]
  | @down _ _ _ _ rest plain short there _ ih =>
      obtain ⟨left, leads⟩ := ih
      refine ⟨left, fun purpose more some_more more_names => ?_⟩
      have open_end : rest ++ more ≠ [""] := append_ne_slash some_more more_names
      rw [List.cons_append, follow_plain plain short (fun ends => open_end ends.2), there]
      exact leads purpose more some_more more_names
  | @along _ _ _ _ _ rest plain short there _ ih =>
      obtain ⟨left, leads⟩ := ih
      refine ⟨left, fun purpose more some_more more_names => ?_⟩
      have open_end : rest ++ more ≠ [""] := append_ne_slash some_more more_names
      have goes_on : rest ++ more ≠ [] := fun ends => some_more (List.append_eq_nil_iff.mp ends).2
      rw [List.cons_append, follow_plain plain short (fun ends => open_end ends.2), there]
      dsimp only
      rw [if_neg (fun ends => goes_on ends.1), ← List.append_assoc]
      exact leads purpose more some_more more_names

/-- The slash at the end of a way may be left out. -/
theorem of_append_slash {tree : Tree} {links : Nat} {place base : Place} {names : List String}
    (way : Way tree links place (names ++ [""]) base) : Way tree links place names base := by
  generalize whole_eq : names ++ [""] = whole at way
  induction way generalizing names with
  | here => simp at whole_eq
  | @stay _ _ _ name rest same way ih =>
      cases names with
      | nil =>
          cases whole_eq
          exact way
      | cons head names =>
          cases whole_eq
          exact .stay same (ih rfl)
  | up way ih =>
      cases names with
      | nil => simp at whole_eq
      | cons head names =>
          cases whole_eq
          exact .up (ih rfl)
  | down plain short there way ih =>
      cases names with
      | nil =>
          cases whole_eq
          exact absurd rfl plain.1
      | cons head names =>
          cases whole_eq
          exact .down plain short there (ih rfl)
  | along plain short there way ih =>
      cases names with
      | nil =>
          cases whole_eq
          exact absurd rfl plain.1
      | cons head names =>
          cases whole_eq
          exact .along plain short there (ih (List.append_assoc _ _ _))

end Way

/-! ## Walking where there are no links -/

/-- No link stands below a place. -/
def LinkFree (tree : Tree) (place : Place) : Prop :=
  ∀ below target, below ≠ [] → tree.lookup (place ++ below) ≠ some (.link target)

theorem LinkFree.of_entries {tree : Tree} (linkless : ∀ entry ∈ tree.entries,
    ∀ target, entry.2 ≠ .link target) (place : Place) : LinkFree tree place := by
  intro below target some_below link
  exact linkless _ (mem_entries_of_lookup (List.append_ne_nil_of_right_ne_nil _ some_below) link)
    target rfl

theorem LinkFree.below {tree : Tree} {place : Place} (free : LinkFree tree place)
    (names : List String) : LinkFree tree (place ++ names) := by
  intro below target some_below
  rw [List.append_assoc]
  exact free (names ++ below) target fun nothing =>
    some_below (List.append_eq_nil_iff.mp nothing).2

/-- The directories on the way from a place along names are there, and no name is too long. -/
structure Housed (tree : Tree) (place : Place) (names : List String) : Prop where
  short : ∀ name ∈ names, name.utf8ByteSize ≤ nameLimit
  directory : ∀ above below, names = above ++ below → above ≠ [] → below ≠ [] →
    tree.lookup (place ++ above) = some .directory

theorem Housed.of_keeps {tree other : Tree} (kept : Keeps tree other) {place : Place}
    {names : List String} (housed : Housed tree place names) : Housed other place names where
  short := housed.short
  directory above below split some_above some_below :=
    kept.directory _ (housed.directory above below split some_above some_below)

theorem Housed.tail {tree : Tree} {place : Place} {name : String} {rest : List String}
    (housed : Housed tree place (name :: rest)) : Housed tree (place ++ [name]) rest where
  short other mem := housed.short other (List.mem_cons_of_mem _ mem)
  directory above below split some_above some_below := by
    have there := housed.directory (name :: above) below (by rw [split, List.cons_append])
      (List.cons_ne_nil _ _) some_below
    rwa [List.append_assoc, List.singleton_append]

theorem Housed.single {tree : Tree} {place : Place} {name : String}
    (short : name.utf8ByteSize ≤ nameLimit) : Housed tree place [name] where
  short := by
    intro other mem
    rwa [List.mem_singleton.mp mem]
  directory above below split some_above some_below := by
    rcases List.append_eq_singleton_iff.mp split.symm with ⟨nothing, _⟩ | ⟨_, nothing⟩
    · exact absurd nothing some_above
    · exact absurd nothing some_below

theorem Housed.cons {tree : Tree} {place : Place} {name : String} {rest : List String}
    (housed : Housed tree (place ++ [name]) rest) (short : name.utf8ByteSize ≤ nameLimit)
    (there : tree.lookup (place ++ [name]) = some .directory) :
    Housed tree place (name :: rest) where
  short := by
    intro other mem
    rcases List.mem_cons.mp mem with rfl | later
    · exact short
    · exact housed.short other later
  directory above below split some_above some_below := by
    cases above with
    | nil => exact absurd rfl some_above
    | cons head above =>
        cases split
        cases above with
        | nil => exact there
        | cons second above =>
            have further := housed.directory (second :: above) below rfl (List.cons_ne_nil _ _)
              some_below
            rwa [List.append_assoc, List.singleton_append] at further

/-- What a path that ends at a place leads to: the entry there, or a free name. -/
def targetAt (tree : Tree) (place : Place) : Target :=
  match tree.lookup place with
  | some entry => .entry place entry
  | none => .free place

/-- Where there are no links a path leads along plain names to what stands there, or to a free
name. -/
theorem follow_of_housed {tree : Tree} {purpose : Purpose} {links : Nat} {place : Place}
    {names : List String} (some_names : names ≠ []) (plain : ∀ name ∈ names, Plain name)
    (free : LinkFree tree place) (housed : Housed tree place names) :
    tree.follow purpose links place names = .ok (tree.targetAt (place ++ names)) := by
  induction names generalizing place with
  | nil => exact absurd rfl some_names
  | cons name rest ih =>
      have plainName := plain name List.mem_cons_self
      have plainRest : ∀ other ∈ rest, Plain other :=
        fun other mem => plain other (List.mem_cons_of_mem _ mem)
      have open_end : ¬(purpose = .create ∧ rest = [""]) := by
        rintro ⟨-, rfl⟩
        exact (plainRest "" List.mem_cons_self).1 rfl
      rw [follow_plain plainName (housed.short name List.mem_cons_self) open_end]
      cases rest with
      | nil =>
          unfold targetAt
          cases there : tree.lookup (place ++ [name]) with
          | none => rfl
          | some entry =>
              cases entry with
              | directory => exact follow.eq_1 ..
              | file content => rfl
              | link target => exact absurd there (free _ _ (List.cons_ne_nil _ _))
      | cons second rest =>
          rw [housed.directory [name] (second :: rest) rfl (List.cons_ne_nil _ _)
            (List.cons_ne_nil _ _)]
          have split : place ++ name :: second :: rest =
              place ++ [name] ++ second :: rest := by
            rw [List.append_assoc, List.singleton_append]
          rw [split]
          exact ih (List.cons_ne_nil _ _) plainRest (free.below [name]) housed.tail

/-- Where there are no links a path along plain names leads nowhere else. -/
theorem housed_of_follow {tree : Tree} {purpose : Purpose} {links : Nat} {place : Place}
    {names : List String} {target : Target} (some_names : names ≠ [])
    (plain : ∀ name ∈ names, Plain name) (free : LinkFree tree place)
    (leads : tree.follow purpose links place names = .ok target) :
    Housed tree place names ∧
      ((∃ entry, tree.lookup (place ++ names) = some entry ∧
          target = .entry (place ++ names) entry) ∨
        tree.lookup (place ++ names) = none ∧ target = .free (place ++ names)) := by
  induction names generalizing place with
  | nil => exact absurd rfl some_names
  | cons name rest ih =>
      have plainName := plain name List.mem_cons_self
      have plainRest : ∀ other ∈ rest, Plain other :=
        fun other mem => plain other (List.mem_cons_of_mem _ mem)
      have open_end : ¬(purpose = .create ∧ rest = [""]) := by
        rintro ⟨-, rfl⟩
        exact (plainRest "" List.mem_cons_self).1 rfl
      have short := short_of_follow plainName open_end leads
      cases rest with
      | nil => exact ⟨.single short, follow_name plainName (free _ · (List.cons_ne_nil _ _)) leads⟩
      | cons second rest =>
          rw [follow_plain plainName short open_end] at leads
          split at leads
          · cases leads
          · rename_i there
            have split : place ++ name :: second :: rest =
                place ++ [name] ++ second :: rest := by
              rw [List.append_assoc, List.singleton_append]
            obtain ⟨housed, ends⟩ :=
              ih (List.cons_ne_nil _ _) plainRest (free.below [name]) leads
            rw [split]
            exact ⟨housed.cons short there, ends⟩
          · cases leads
          · rename_i there
            exact absurd there (free _ _ (List.cons_ne_nil _ _))

/-! ## Paths below a directory -/

/-- The path of a text leads to the directory at a place. -/
def Rooted (tree : Tree) (root : String) (base : Place) : Prop :=
  tree.resolve ⟨root, []⟩ = .ok (.entry base .directory)

theorem lead_eq_ok_iff {tree : Tree} {purpose : Purpose} {path : Path} {names : List String}
    {target : Target} : tree.lead purpose path names = .ok target ↔
      checkPath path.display = .ok () ∧ tree.follow purpose linkLimit
        (if Path.isAbsolute path.base then [] else tree.current) names = .ok target := by
  unfold lead
  cases checkPath path.display with
  | error error => simp [bind, Except.bind]
  | ok => simp [bind, Except.bind]

/-- A path leads to the same directory while directories and links are kept. -/
theorem resolve_directory_of_keeps {tree other : Tree} (kept : Keeps tree other) {path : Path}
    {directory : Place} (leads : tree.resolve path = .ok (.entry directory .directory)) :
    other.resolve path = .ok (.entry directory .directory) := by
  obtain ⟨checked, follows⟩ := lead_eq_ok_iff.mp leads
  refine lead_eq_ok_iff.mpr ⟨checked, ?_⟩
  rw [kept.current_eq]
  exact ((way_of_follow follows).of_keeps kept).follow_eq

/-- A text is a sequence of names that are not empty, perhaps with a slash after them. -/
theorem split_eq_withoutSlash_append (text : String) :
    Path.split text = Path.withoutSlash (Path.split text) ∨
      Path.split text = Path.withoutSlash (Path.split text) ++ [""] := by
  have whole : Path.withoutSlash
      (((Text.fields '/' text.toList).filter (· ≠ [])).map String.ofList) =
        ((Text.fields '/' text.toList).filter (· ≠ [])).map String.ofList := by
    rw [Path.withoutSlash, List.filter_eq_self]
    intro name mem
    obtain ⟨chars, charsMem, rfl⟩ := List.mem_map.mp mem
    have some_chars := (List.mem_filter.mp charsMem).2
    simpa using some_chars
  unfold Path.split
  dsimp only
  split
  · right
    have apart : Path.withoutSlash
        (((Text.fields '/' text.toList).filter (· ≠ [])).map String.ofList ++ [""]) =
          ((Text.fields '/' text.toList).filter (· ≠ [])).map String.ofList := by
      rw [Path.withoutSlash, List.filter_append, ← Path.withoutSlash, whole]
      simp
    rw [apart]
  · left
    rw [whole]

/-- A path below the end of a way leads where its names lead from there. -/
theorem Way.lead_below {tree : Tree} {root : String} {base : Place}
    (way : Way tree linkLimit (if Path.isAbsolute root then [] else tree.current)
      (Path.withoutSlash (Path.split root)) base) :
    ∃ left, ∀ purpose more target, more ≠ [] → more ≠ [""] →
      (tree.lead purpose ⟨root, more⟩ (Path.names ⟨root, more⟩) = .ok target ↔
        checkPath (Path.display ⟨root, more⟩) = .ok () ∧
          tree.follow purpose left base more = .ok target) := by
  obtain ⟨left, leads⟩ := way.follow_append
  refine ⟨left, fun purpose more target some_more more_names => ?_⟩
  rw [lead_eq_ok_iff, ← leads purpose more some_more more_names,
    ← Path.names_join ⟨root, []⟩ rfl some_more]
  rfl

namespace Rooted

/-- The way that a path to a directory leads on. -/
theorem way {tree : Tree} {root : String} {base : Place} (rooted : Rooted tree root base) :
    Way tree linkLimit (if Path.isAbsolute root then [] else tree.current)
      (Path.withoutSlash (Path.split root)) base := by
  have way := way_of_follow (lead_eq_ok_iff.mp rooted).2
  rcases split_eq_withoutSlash_append root with same | slash
  · rw [← same]
    exact way
  · apply Way.of_append_slash
    rw [← slash]
    exact way

theorem of_keeps {tree other : Tree} (kept : Keeps tree other) {root : String} {base : Place}
    (rooted : Rooted tree root base) : Rooted other root base :=
  resolve_directory_of_keeps kept rooted

end Rooted

end Tree

end ImageGallery.Disk
