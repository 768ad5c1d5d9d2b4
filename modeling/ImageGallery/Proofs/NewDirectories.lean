import ImageGallery.Proofs.ClosedTree

/-!
# Making directories below a root without links

Directories that are made below a root come in on the way of the path that they are made for, and
none of them comes in above the root. When all could be made, the path leads to the last of them.
-/

namespace ImageGallery.Disk

open ImageGallery.Disk.Tree

variable {root : String} {base : Place} {tree middle after : Tree} {names : Place}

/-! ## Directories that come in -/

/-- Directories come in at free places, and only at some of these. -/
structure Adds (own : Place → Prop) (tree after : Tree) : Prop where
  current_eq : after.current = tree.current
  lookup_eq : ∀ place, after.lookup place = tree.lookup place ∨
    own place ∧ tree.lookup place = none ∧ after.lookup place = some .directory

namespace Adds

variable {own : Place → Prop}

theorem refl (own : Place → Prop) (tree : Tree) : Adds own tree tree :=
  ⟨rfl, fun _ => .inl rfl⟩

theorem trans (first : Adds own tree middle) (second : Adds own middle after) :
    Adds own tree after where
  current_eq := second.current_eq.trans first.current_eq
  lookup_eq place := by
    rcases second.lookup_eq place with same | ⟨mine, missing, made⟩
    · rw [same]
      exact first.lookup_eq place
    · rcases first.lookup_eq place with same | ⟨-, -, made_before⟩
      · exact .inr ⟨mine, same ▸ missing, made⟩
      · rw [made_before] at missing
        cases missing

theorem mono {more : Place → Prop} (added : Adds own tree after)
    (le : ∀ place, own place → more place) : Adds more tree after where
  current_eq := added.current_eq
  lookup_eq place := (added.lookup_eq place).imp_right fun ⟨mine, rest⟩ => ⟨le place mine, rest⟩

theorem grows (added : Adds own tree after) : Region.Grows tree after where
  current_eq := added.current_eq
  lookup_eq place := (added.lookup_eq place).imp_right And.right

/-- Files are neither made nor lost. -/
theorem lookup_eq_file_iff (added : Adds own tree after) {place : Place} {content : Content} :
    after.lookup place = some (.file content) ↔ tree.lookup place = some (.file content) := by
  rcases added.lookup_eq place with same | ⟨-, missing, made⟩
  · rw [same]
  · rw [missing, made]
    simp

theorem put {place : Place} (mine : own place) (missing : tree.lookup place = none) :
    Adds own tree (tree.put place .directory) where
  current_eq := rfl
  lookup_eq other := by
    by_cases same : other = place
    · subst same
      have inner : other ≠ [] := by
        rintro rfl
        rw [lookup_nil] at missing
        cases missing
      exact .inr ⟨mine, missing, lookup_put_self _ _ inner⟩
    · exact .inl (lookup_put_of_ne _ _ same)

theorem linkless (added : Adds own tree after) (linkless : Linkless root base tree) :
    Linkless root base after := by
  refine linkless.of_keeps added.grows.keeps fun place target link => ?_
  rcases added.lookup_eq place with same | ⟨-, -, made⟩
  · rwa [← same]
  · rw [made] at link
    cases link

/-- However many directories came in, a directory that is made at a path is one of some. -/
def Bounds (own : Place → Prop) (tree : Tree) (path : Path) : Prop :=
  ∀ grown place, Adds own tree grown → grown.locateName path = .ok (.free place) → own place

theorem makeDirectory {path : Path} (bounds : Bounds own tree path) (added : Adds own tree middle)
    (made : middle.makeDirectory path = .ok after) : Adds own tree after := by
  unfold Tree.makeDirectory at made
  split at made
  · cases made
  · rename_i place leads
    cases made
    exact added.trans
      (.put (bounds _ _ added leads) (lookup_of_follow_free (lead_eq_ok_iff.mp leads).2))
  · cases made

theorem ensureDirectory {path : Path} (bounds : Bounds own tree path)
    (added : Adds own tree middle) : Adds own tree (middle.ensureDirectory path).2 := by
  unfold Tree.ensureDirectory
  split
  · rename_i made
    exact added.makeDirectory bounds made
  · split <;> exact added

theorem makeUpwards {paths : List Path} (bounds : ∀ path ∈ paths, Bounds own tree path) :
    Adds own tree (tree.makeUpwards paths).2 := by
  induction paths with
  | nil => exact .refl own tree
  | cons path ancestors ih =>
      obtain ⟨here, above⟩ := List.forall_mem_cons.mp bounds
      unfold Tree.makeUpwards
      split
      · rename_i made
        exact makeDirectory here (.refl own tree) made
      · split
        · rename_i middle made
          have added := ih above
          rw [made] at added
          exact added.ensureDirectory here
        · exact ih above
      · exact (refl own tree).ensureDirectory here

end Adds

/-! ## The paths above a path -/

/-- Names that stand for the directory they are looked up in can be left out of a way. -/
theorem Tree.Way.filter_dots {links : Nat} {place : Place} {front rest : List String}
    (way : Way tree links place (front ++ rest) base) :
    Way tree links place (front ++ rest.filter (· ≠ ".")) base := by
  generalize whole_eq : front ++ rest = whole at way
  -- The names behind a link on the way join the front.
  induction way generalizing front rest with
  | here =>
      obtain ⟨rfl, rfl⟩ := List.append_eq_nil_iff.mp whole_eq
      exact .here
  | @stay _ _ _ name _ same way ih =>
      rcases List.append_eq_cons_iff.mp whole_eq with ⟨rfl, rfl⟩ | ⟨left, rfl, rfl⟩
      · have further := @ih [] _ rfl
        by_cases dot : name = "."
        · rwa [List.filter_cons_of_neg (by simp [dot])]
        · rw [List.filter_cons_of_pos (by simp [dot])]
          exact .stay same further
      · exact .stay same (ih rfl)
  | up way ih =>
      rcases List.append_eq_cons_iff.mp whole_eq with ⟨rfl, rfl⟩ | ⟨left, rfl, rfl⟩
      · exact .up (@ih [] _ rfl)
      · exact .up (ih rfl)
  | @down _ _ _ name _ plain short there way ih =>
      rcases List.append_eq_cons_iff.mp whole_eq with ⟨rfl, rfl⟩ | ⟨left, rfl, rfl⟩
      · rw [List.filter_cons_of_pos (by simp [plain.2.1])]
        exact .down plain short there (@ih [] _ rfl)
      · exact .down plain short there (ih rfl)
  | @along _ _ _ name _ _ plain short there way ih =>
      rcases List.append_eq_cons_iff.mp whole_eq with ⟨rfl, rfl⟩ | ⟨left, rfl, rfl⟩
      · rw [List.filter_cons_of_pos (by simp [plain.2.1])]
        exact .along plain short there (ih rfl)
      · have further := ih (List.append_assoc _ left rest)
        rw [List.append_assoc] at further
        exact .along plain short there further

/-- A way along names starts with one along the first of them. -/
theorem Tree.Way.exists_take {links : Nat} {place : Place} {names : List String}
    (way : Way tree links place names base) (named : ∀ name ∈ names, name ≠ "") (count : Nat) :
    ∃ middle, Way tree links place (names.take count) middle := by
  have leads := way.follow_eq
  rw [← List.take_append_drop count names] at leads
  by_cases last : names.drop count = []
  · rw [last, List.append_nil] at leads
    exact ⟨base, way_of_follow leads⟩
  · have no_slash : names.drop count ≠ [""] := fun slash =>
      named "" (List.mem_of_mem_drop (slash ▸ List.mem_cons_self)) rfl
    obtain ⟨-, middle, first, -⟩ := exists_way_of_follow_append last no_slash leads
    exact ⟨middle, first⟩

/-- The names on a way lead to no free place. -/
theorem Tree.Way.locate_ne_free {links : Nat} {place free : Place} {names : List String}
    (way : Way tree links place names base) :
    tree.follow .locate links place names ≠ .ok (.free free) := by
  intro leads
  rcases follow_locate_of_find way.follow_eq with same | ⟨_, _, link⟩
  · cases same.symm.trans leads
  · cases link.symm.trans leads

namespace Path

theorem withoutSlash_append (first second : List String) :
    withoutSlash (first ++ second) = withoutSlash first ++ withoutSlash second :=
  List.filter_append ..

theorem withoutSlash_eq_self (named : ∀ name ∈ names, name ≠ "") : withoutSlash names = names :=
  List.filter_eq_self.mpr fun name mem => decide_eq_true (named name mem)

theorem withoutSlash_withoutSlash (names : List String) :
    withoutSlash (withoutSlash names) = withoutSlash names :=
  withoutSlash_eq_self fun _ mem => of_decide_eq_true (List.mem_filter.mp mem).2

/-- The names of a path below a text, without a slash at the end. -/
theorem withoutSlash_names (root : String) (named : ∀ name ∈ names, name ≠ "") :
    withoutSlash (Path.names ⟨root, names⟩) = withoutSlash (split root) ++ names := by
  cases names with
  | nil => rw [List.append_nil]; rfl
  | cons name rest =>
      have joined : Path.names ⟨root, name :: rest⟩ = withoutSlash (split root) ++ name :: rest :=
        Path.names_join ⟨root, []⟩ rfl (List.cons_ne_nil _ _)
      rw [joined, withoutSlash_append, withoutSlash_withoutSlash, withoutSlash_eq_self named]

/-- The components of a path below a text are those of the text and the names below it. -/
theorem exists_components_eq (root : String) (plain : ∀ name ∈ names, Plain name) :
    ∃ front, components ⟨root, names⟩ = front ++ names ∧ (∀ name ∈ front, name ≠ "") ∧
      ∀ (tree : Tree) links place base,
        Way tree links place (withoutSlash (split root)) base →
          Way tree links place front base := by
  have whole := withoutSlash_names root fun name mem => (plain name mem).1
  have kept : names.filter (· ≠ ".") = names :=
    List.filter_eq_self.mpr fun name mem => decide_eq_true (plain name mem).2.1
  have named : ∀ name ∈ withoutSlash (split root), name ≠ "" :=
    fun name mem => of_decide_eq_true (List.mem_filter.mp mem).2
  unfold components
  rw [whole]
  generalize withoutSlash (split root) = above at named ⊢
  cases above with
  | nil =>
      refine ⟨[], ?_, nofun, fun _ _ _ _ way => way⟩
      cases names with
      | nil => rfl
      | cons first rest =>
          have dotless : first ≠ "." := (plain first List.mem_cons_self).2.1
          rw [List.filter_cons_of_pos (by simp [dotless])] at kept
          simp only [List.nil_append, dotless, false_and, if_false, (List.cons.inj kept).2]
  | cons first rest =>
      have cut : (rest ++ names).filter (· ≠ ".") = rest.filter (· ≠ ".") ++ names := by
        rw [List.filter_append, kept]
      simp only [List.cons_append, cut]
      split
      · rename_i dot
        refine ⟨rest.filter (· ≠ "."), rfl, ?_, fun tree links place base way => ?_⟩
        · exact fun name mem => named name (List.mem_cons_of_mem _ (List.mem_of_mem_filter mem))
        · have whole : Way tree links place ([] ++ first :: rest) base := way
          have short := whole.filter_dots
          rwa [List.filter_cons_of_neg (by simp [dot.1])] at short
      · refine ⟨first :: rest.filter (· ≠ "."), rfl, ?_, fun tree links place base way => ?_⟩
        · rintro name (_ | ⟨_, mem⟩)
          · exact named first List.mem_cons_self
          · exact named name (List.mem_cons_of_mem _ (List.mem_of_mem_filter mem))
        · have whole : Way tree links place ([first] ++ rest) base := way
          exact whole.filter_dots

theorem exists_of_mem_ancestors {path ancestor : Path} (mem : ancestor ∈ path.ancestors) :
    ∃ count, ancestor =
      ⟨if isAbsolute path.base then "/" else "", path.components.take count⟩ := by
  obtain ⟨count, -, rfl⟩ := List.mem_map.mp (List.mem_of_mem_filter mem)
  exact ⟨count, rfl⟩

end Path

/-! ## Making directories -/

/-- The places on the way from a directory along names, without the directory itself. -/
def Along (base names place : Place) : Prop :=
  ∃ above, above ≠ [] ∧ above <+: names ∧ place = base ++ above

namespace Linkless

/-- A path that goes on below the root along some of the names leads to a free place on the way
along all of them. -/
theorem along_of_follow (linkless : Linkless root base tree) {links : Nat} {start free : Place}
    {front above : List String} (way : Way tree links start front base) (first : above <+: names)
    (plain : ∀ name ∈ names, Plain name)
    (leads : tree.follow .locate links start (front ++ above) = .ok (.free free)) :
    Along base names free := by
  by_cases last : above = []
  · rw [last, List.append_nil] at leads
    exact absurd leads way.locate_ne_free
  · have plainAbove : ∀ name ∈ above, Plain name := fun name mem => plain name (first.subset mem)
    obtain ⟨left, further⟩ := way.follow_append
    rw [further .locate above last (ne_slash_of_plain plainAbove)] at leads
    obtain ⟨-, ⟨_, -, ends⟩ | ⟨-, ends⟩⟩ := housed_of_follow last plainAbove linkless.free leads
    · cases ends
    · cases ends
      exact ⟨above, last, first, rfl⟩

/-- The path itself. -/
theorem bounds_self (linkless : Linkless root base tree) (plain : ∀ name ∈ names, Plain name) :
    Adds.Bounds (Along base names) tree ⟨root, names⟩ := by
  intro grown place added leads
  have linklessGrown := added.linkless linkless
  have follows := (lead_eq_ok_iff.mp leads).2
  rw [Path.withoutSlash_names root fun name mem => (plain name mem).1] at follows
  exact linklessGrown.along_of_follow linklessGrown.way (List.prefix_refl names) plain follows

/-- The paths above it. What they have in common with the root is there. -/
theorem bounds_ancestor (linkless : Linkless root base tree) (plain : ∀ name ∈ names, Plain name)
    {path : Path} (mem : path ∈ Path.ancestors ⟨root, names⟩) :
    Adds.Bounds (Along base names) tree path := by
  obtain ⟨count, rfl⟩ := Path.exists_of_mem_ancestors mem
  obtain ⟨front, components_eq, named, ways⟩ := Path.exists_components_eq root plain
  rw [components_eq]
  intro grown place added leads
  have linklessGrown := added.linkless linkless
  have way := ways _ _ _ _ linklessGrown.way
  have first : (front ++ names).take count =
      front.take count ++ names.take (count - front.length) := List.take_append
  have firstNamed : ∀ name ∈ (front ++ names).take count, name ≠ "" := by
    intro name mem
    rcases List.mem_append.mp (List.mem_of_mem_take mem) with above | below
    · exact named name above
    · exact (plain name below).1
  have start : (if Path.isAbsolute (if Path.isAbsolute root then "/" else "") then []
      else grown.current) = if Path.isAbsolute root then [] else grown.current := by
    cases Path.isAbsolute root <;> rfl
  have follows := (lead_eq_ok_iff.mp leads).2
  rw [Path.withoutSlash_names _ firstNamed, start] at follows
  have bare : Path.withoutSlash (Path.split (if Path.isAbsolute root then "/" else "")) = [] := by
    cases Path.isAbsolute root <;> decide
  rw [bare, List.nil_append, first] at follows
  by_cases short : count ≤ front.length
  · rw [Nat.sub_eq_zero_of_le short, List.take_zero, List.append_nil] at follows
    obtain ⟨middle, above⟩ := way.exists_take named count
    exact absurd follows above.locate_ne_free
  · rw [List.take_of_length_le (by omega)] at follows
    exact linklessGrown.along_of_follow way (List.take_prefix _ _) plain follows

/-- Making directories adds directories on the way, whether it succeeds or not. -/
theorem adds_makeDirectories (linkless : Linkless root base tree)
    (plain : ∀ name ∈ names, Plain name) :
    Adds (Along base names) tree (tree.makeDirectories ⟨root, names⟩).2 := by
  unfold Tree.makeDirectories
  split
  · exact .refl _ tree
  · refine Adds.makeUpwards fun path mem => ?_
    rcases List.mem_cons.mp mem with rfl | above
    · exact linkless.bounds_self plain
    · exact linkless.bounds_ancestor plain above

/-- A directory stands at the place of a path, and the path leads there. -/
structure Leads (root : String) (base : Place) (tree : Tree) (names : Place) : Prop where
  passable : Passable root names
  housed : tree.Housed base names
  there : tree.lookup (base ++ names) = some .directory

theorem Leads.of_keeps (leads : Leads root base tree names) (kept : Keeps tree after) :
    Leads root base after names :=
  ⟨leads.passable, leads.housed.of_keeps kept, kept.directory _ leads.there⟩

/-- Nothing is made where the path leads to a directory. -/
theorem Leads.makeDirectories_eq (leads : Leads root base tree names)
    (linkless : Linkless root base tree) :
    tree.makeDirectories ⟨root, names⟩ = (.ok (), tree) := by
  have joined : Path.names ⟨root, names⟩ = Path.withoutSlash (Path.split root) ++ names :=
    Path.names_join ⟨root, []⟩ rfl leads.passable.some_names
  refine makeDirectories_of_directory
    (linkless.lead_entry leads.passable leads.housed leads.there .find) ?_
  rw [Path.withoutSlash_names root fun name mem => (leads.passable.plain name mem).1, joined]

theorem leads_of_makeDirectory (linkless : Linkless root base tree) (some_names : names ≠ [])
    (plain : ∀ name ∈ names, Plain name)
    (made : tree.makeDirectory ⟨root, names⟩ = .ok after) : Leads root base after names := by
  have grown := grows_of_makeDirectory_eq_ok made
  have whole : tree.locateName ⟨root, names⟩ =
      tree.lead .locate ⟨root, names⟩ (Path.names ⟨root, names⟩) := by
    have named : ∀ name ∈ names, name ≠ "" := fun name mem => (plain name mem).1
    have joined : Path.names ⟨root, names⟩ = Path.withoutSlash (Path.split root) ++ names :=
      Path.names_join ⟨root, []⟩ rfl some_names
    rw [Tree.locateName, Path.withoutSlash_names root named, joined]
  unfold Tree.makeDirectory at made
  rw [whole] at made
  split at made
  · cases made
  · rename_i leads
    obtain ⟨opened, rfl⟩ := Open.of_lead_free linkless some_names plain leads
    cases made
    refine ⟨opened.passable, opened.housed.of_keeps grown.keeps, lookup_put_self _ _ ?_⟩
    exact List.append_ne_nil_of_right_ne_nil base some_names
  · cases made

theorem leads_of_ensureDirectory (linkless : Linkless root base tree) (some_names : names ≠ [])
    (plain : ∀ name ∈ names, Plain name)
    (ensured : tree.ensureDirectory ⟨root, names⟩ = (.ok (), after)) :
    Leads root base after names := by
  unfold Tree.ensureDirectory at ensured
  split at ensured
  · rename_i made
    cases ensured
    exact leads_of_makeDirectory linkless some_names plain made
  · split at ensured
    · rename_i found
      cases ensured
      unfold Tree.isDirectory at found
      split at found
      · rename_i leads
        obtain ⟨passable, housed, ⟨entry, there, ends⟩ | ⟨-, ends⟩⟩ :=
          linkless.of_lead some_names plain leads
        · cases ends
          exact ⟨passable, housed, there⟩
        · cases ends
      · cases found
    · cases ensured

/-- When directories have been made, the path leads to the last of them. -/
theorem leads_of_makeDirectories (linkless : Linkless root base tree) (some_names : names ≠ [])
    (plain : ∀ name ∈ names, Plain name)
    (made : tree.makeDirectories ⟨root, names⟩ = (.ok (), after)) :
    Leads root base after names := by
  have some_text : Path.display ⟨root, names⟩ ≠ "" :=
    display_ne_empty some_names fun name mem => (plain name mem).1
  unfold Tree.makeDirectories at made
  rw [if_neg some_text, Tree.makeUpwards] at made
  split at made
  · rename_i alone
    cases made
    exact leads_of_makeDirectory linkless some_names plain alone
  · split at made
    · rename_i above upwards
      have added : Adds (Along base names) tree above := by
        have added := Adds.makeUpwards fun path mem => linkless.bounds_ancestor plain mem
        rwa [upwards] at added
      exact leads_of_ensureDirectory (added.linkless linkless) some_names plain made
    · rename_i failed
      exact absurd made (failed _)
  · exact leads_of_ensureDirectory linkless some_names plain made

end Linkless

end ImageGallery.Disk
