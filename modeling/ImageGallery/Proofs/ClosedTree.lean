import ImageGallery.Proofs.Region

/-!
# Trees of a file system

In a file system every entry stands in a directory, and the current directory is there. In such a
tree a path leads from directory to directory, so the place that it leads to is held by one.
-/

namespace ImageGallery.Disk.Tree

/-- Every entry stands in a directory, and so does the current directory. -/
structure Closed (tree : Tree) : Prop where
  above : ∀ place name entry,
    tree.lookup (place ++ [name]) = some entry → tree.lookup place = some .directory
  current : tree.lookup tree.current = some .directory

namespace Closed

variable {tree after : Tree}

/-- It is enough to look at the entries that a tree is made of. -/
theorem of_entries
    (housed : ∀ entry ∈ tree.entries, tree.lookup entry.1.dropLast = some .directory)
    (current : tree.lookup tree.current = some .directory) : Closed tree where
  above place name entry there := by
    have directory := housed _ <| mem_entries_of_lookup
      (List.append_ne_nil_of_right_ne_nil _ (List.cons_ne_nil _ _)) there
    rwa [List.dropLast_concat] at directory
  current := current

/-- The directory above a directory. -/
theorem dropLast (closed : Closed tree) {place : Place}
    (there : tree.lookup place = some .directory) :
    tree.lookup place.dropLast = some .directory := by
  rcases List.eq_nil_or_concat place with rfl | ⟨above, name, rfl⟩
  · exact there
  · rw [List.concat_eq_append, List.dropLast_concat]
    rw [List.concat_eq_append] at there
    exact closed.above above name _ there

/-- The place that a text is followed from. -/
theorem start (text : String) {place : Place}
    (there : tree.lookup place = some .directory) :
    tree.lookup (if Path.isAbsolute text then [] else place) = some .directory := by
  split
  · exact lookup_nil tree
  · exact there

/-- What a path leads to stands at the place that it leads to. -/
theorem lookup_of_follow (closed : Closed tree) {purpose : Purpose} {links : Nat}
    {place found : Place} {names : List String} {entry : Entry}
    (there : tree.lookup place = some .directory)
    (leads : tree.follow purpose links place names = .ok (.entry found entry)) :
    tree.lookup found = some entry := by
  fun_induction tree.follow purpose links place names with
  | case1 =>
      cases leads
      exact there
  | case2 _ _ _ _ _ ih => exact ih there leads
  | case3 _ _ _ _ ih => exact ih (closed.dropLast there) leads
  | case8 _ _ _ _ _ _ _ _ _ directory ih => exact ih directory leads
  | case9 _ _ _ _ _ _ _ _ file | case11 _ _ _ _ _ _ _ _ _ _ file =>
      obtain ⟨rfl, rfl⟩ := Target.entry.inj (Except.ok.inj leads)
      exact file
  | case13 _ _ _ _ _ _ _ _ target _ _ _ ih =>
      rw [dite_eq_ite] at ih
      exact ih (start target there) leads
  | case4 | case5 | case6 | case7 | case10 | case12 => cases leads

/-- A free place that a path leads to is in a directory. -/
theorem exists_of_follow_free (closed : Closed tree) {purpose : Purpose} {links : Nat}
    {place free : Place} {names : List String} (there : tree.lookup place = some .directory)
    (leads : tree.follow purpose links place names = .ok (.free free)) :
    ∃ base name, free = base ++ [name] ∧ tree.lookup base = some .directory := by
  fun_induction tree.follow purpose links place names with
  | case2 _ _ _ _ _ ih => exact ih there leads
  | case3 _ _ _ _ ih => exact ih (closed.dropLast there) leads
  | case6 _ place name =>
      exact ⟨place, name, (Target.free.inj (Except.ok.inj leads)).symm, there⟩
  | case8 _ _ _ _ _ _ _ _ _ directory ih => exact ih directory leads
  | case13 _ _ _ _ _ _ _ _ target _ _ _ ih =>
      rw [dite_eq_ite] at ih
      exact ih (start target there) leads
  | case1 | case4 | case5 | case7 | case9 | case10 | case11 | case12 => cases leads

/-- What stands where a path leads. -/
theorem lookup_of_lead (closed : Closed tree) {purpose : Purpose} {path : Path}
    {names : List String} {place : Place} {entry : Entry}
    (leads : tree.lead purpose path names = .ok (.entry place entry)) :
    tree.lookup place = some entry :=
  closed.lookup_of_follow (start path.base closed.current) (lead_eq_ok_iff.mp leads).2

/-- A change at one place where no directory stands, to nothing or to an entry of a directory. -/
theorem change (closed : Closed tree) {place : Place}
    (loose : tree.lookup place ≠ some .directory) (current_eq : after.current = tree.current)
    (elsewhere : ∀ other, other ≠ place → after.lookup other = tree.lookup other)
    (housed : after.lookup place ≠ none → ∃ base name, place = base ++ [name] ∧
      tree.lookup base = some .directory) : Closed after where
  above base name entry there := by
    have kept : tree.lookup base = some .directory → after.lookup base = some .directory := by
      intro found
      rw [elsewhere base fun same => loose (same ▸ found)]
      exact found
    by_cases same : base ++ [name] = place
    · obtain ⟨above, last, split, found⟩ := housed (by
        rw [← same, there]
        exact Option.some_ne_none _)
      obtain ⟨rfl, -⟩ := List.append_inj' (same.trans split) rfl
      exact kept found
    · rw [elsewhere _ same] at there
      exact kept (closed.above base name entry there)
  current := by
    rw [current_eq, elsewhere _ fun same => loose (same ▸ closed.current)]
    exact closed.current

end Closed

/-- A file that a path leads to stands at its place. -/
theorem lookup_file_of_follow {tree : Tree} {purpose : Purpose} {links : Nat}
    {place found : Place} {names : List String} {content : Content}
    (leads : tree.follow purpose links place names = .ok (.entry found (.file content))) :
    tree.lookup found = some (.file content) := by
  fun_induction tree.follow purpose links place names with
  | case2 _ _ _ _ _ ih | case3 _ _ _ _ ih | case8 _ _ _ _ _ _ _ _ _ _ ih => exact ih leads
  | case9 _ _ _ _ _ _ _ _ file =>
      obtain ⟨rfl, same⟩ := Target.entry.inj (Except.ok.inj leads)
      rwa [← same]
  | case11 => cases (Target.entry.inj (Except.ok.inj leads)).2
  | case13 _ _ _ _ _ _ _ _ _ _ _ _ ih =>
      rw [dite_eq_ite] at ih
      exact ih leads
  | case1 | case4 | case5 | case6 | case7 | case10 | case12 => cases leads

/-! ## Ways along the beginning of a path -/

/-- A path of more than a directory leads first to the directory. -/
theorem exists_way_of_follow_append {tree : Tree} {purpose : Purpose} {links : Nat} {place : Place}
    {names more : List String} {target : Target} (some_more : more ≠ []) (more_names : more ≠ [""])
    (leads : tree.follow purpose links place (names ++ more) = .ok target) :
    ∃ left base, Way tree links place names base ∧
      tree.follow purpose left base more = .ok target := by
  induction links using Nat.strongRecOn generalizing place names with
  | _ links outer =>
      induction names generalizing place with
      | nil => exact ⟨links, place, .here, leads⟩
      | cons name rest ih =>
          have going_on : rest ++ more ≠ [] := fun ends =>
            some_more (List.append_eq_nil_iff.mp ends).2
          have open_end : ¬(purpose = .create ∧ rest ++ more = [""]) := fun ends =>
            Way.append_ne_slash some_more more_names ends.2
          rw [List.cons_append] at leads
          by_cases same : name = "" ∨ name = "."
          · rw [follow_stay same] at leads
            obtain ⟨left, base, way, further⟩ := ih leads
            exact ⟨left, base, .stay same way, further⟩
          · by_cases upwards : name = ".."
            · subst upwards
              rw [follow_up] at leads
              obtain ⟨left, base, way, further⟩ := ih leads
              exact ⟨left, base, .up way, further⟩
            · have plain : Plain name := ⟨fun empty => same (.inl empty),
                fun dot => same (.inr dot), upwards⟩
              have short := short_of_follow plain open_end leads
              rw [follow_plain plain short open_end] at leads
              split at leads
              · rw [if_neg going_on] at leads
                cases leads
              · rename_i there
                obtain ⟨left, base, way, further⟩ := ih leads
                exact ⟨left, base, .down plain short there way, further⟩
              · rw [if_neg going_on] at leads
                cases leads
              · rename_i target there
                rw [if_neg (fun ends => going_on ends.1)] at leads
                cases links with
                | zero => cases leads
                | succ links =>
                    dsimp only at leads
                    rw [← List.append_assoc] at leads
                    obtain ⟨left, base, way, further⟩ := outer links (Nat.lt_succ_self _) leads
                    exact ⟨left, base, .along plain short there way, further⟩

/-- A slash may be added at the end of a way. -/
theorem Way.append_slash {tree : Tree} {links : Nat} {place base : Place} {names : List String}
    (way : Way tree links place names base) : Way tree links place (names ++ [""]) base := by
  induction way with
  | here => exact .stay (.inl rfl) .here
  | stay same _ ih => exact .stay same ih
  | up _ ih => exact .up ih
  | down plain short there _ ih => exact .down plain short there ih
  | along plain short there _ ih =>
      rw [List.append_assoc] at ih
      exact .along plain short there ih

/-- A text leads to the directory that the names in it lead to. -/
theorem Way.rooted {tree : Tree} {root : String} {base : Place}
    (way : Way tree linkLimit (if Path.isAbsolute root then [] else tree.current)
      (Path.withoutSlash (Path.split root)) base) (checked : checkPath root = .ok ()) :
    Rooted tree root base := by
  refine lead_eq_ok_iff.mpr ⟨checked, ?_⟩
  rcases split_eq_withoutSlash_append root with same | slash
  · rw [← same] at way
    exact way.follow_eq
  · have slashed := way.append_slash
    rw [← slash] at slashed
    exact slashed.follow_eq

/-- A path leads first to where its text leads. -/
theorem exists_way_of_lead {tree : Tree} {purpose : Purpose} {root : String} {more : List String}
    {target : Target} (some_more : more ≠ []) (more_names : more ≠ [""])
    (leads : tree.lead purpose ⟨root, more⟩ (Path.names ⟨root, more⟩) = .ok target) :
    ∃ left base, Way tree linkLimit (if Path.isAbsolute root then [] else tree.current)
      (Path.withoutSlash (Path.split root)) base ∧
      tree.follow purpose left base more = .ok target := by
  have follows := (lead_eq_ok_iff.mp leads).2
  have names : Path.names ⟨root, more⟩ = Path.withoutSlash (Path.split root) ++ more :=
    Path.names_join ⟨root, []⟩ rfl some_more
  rw [names] at follows
  exact exists_way_of_follow_append some_more more_names follows

/-- If a path below a text leads anywhere, then the place of the text is a directory. -/
theorem rooted_of_canonical? {tree : Tree} {purpose : Purpose} {root : String} {base : Place}
    {more : List String} {target : Target} (some_more : more ≠ []) (more_names : more ≠ [""])
    (canonical : tree.canonical? ⟨root, []⟩ = some base)
    (leads : tree.lead purpose ⟨root, more⟩ (Path.names ⟨root, more⟩) = .ok target) :
    Rooted tree root base := by
  obtain ⟨left, place, way, -⟩ := exists_way_of_lead some_more more_names leads
  unfold canonical? at canonical
  split at canonical
  · rename_i found entry resolved
    have rooted := way.rooted (lead_eq_ok_iff.mp resolved).1
    rw [Rooted, resolved] at rooted
    cases rooted
    cases canonical
    exact resolved
  · cases canonical

/-! ## The directory that a path leads into -/

theorem checkPath_eq_ok_iff {text : String} : checkPath text = .ok () ↔
    text.toList.contains '\x00' = false ∧ text ≠ "" ∧ text.utf8ByteSize ≤ pathLimit := by
  unfold checkPath
  split
  · simp_all
  · split
    · simp_all
    · split
      · simp_all
      · simp_all

/-- The text of a path goes on from that of the directory. -/
theorem exists_display_append (root name : String) (more : List String) :
    ∃ rest, Path.display ⟨root, more ++ [name]⟩ = Path.display ⟨root, more⟩ ++ rest ++ name := by
  unfold Path.display
  dsimp only
  rw [List.foldl_append, List.foldl_cons, List.foldl_nil]
  split
  · exact ⟨"", by rw [String.append_empty]⟩
  · exact ⟨"/", rfl⟩

theorem display_ne_empty {root : String} {more : List String} (some_more : more ≠ [])
    (named : ∀ name ∈ more, name ≠ "") : Path.display ⟨root, more⟩ ≠ "" := by
  rcases List.eq_nil_or_concat more with nothing | ⟨above, name, rfl⟩
  · exact absurd nothing some_more
  · rw [List.concat_eq_append] at named ⊢
    obtain ⟨rest, display⟩ := exists_display_append root name above
    rw [display]
    intro empty
    have nothing := congrArg String.toList empty
    simp only [String.toList_append, String.toList_empty, List.append_eq_nil_iff] at nothing
    exact named name (List.mem_append_right _ List.mem_cons_self)
      (String.toList_inj.mp nothing.2)

/-- If the path of an entry may be one, the path of its directory may be one too. -/
theorem checkPath_above {root name : String} {more : List String}
    (some_text : Path.display ⟨root, more⟩ ≠ "")
    (checked : checkPath (Path.display ⟨root, more ++ [name]⟩) = .ok ()) :
    checkPath (Path.display ⟨root, more⟩) = .ok () := by
  obtain ⟨rest, display⟩ := exists_display_append root name more
  rw [display, checkPath_eq_ok_iff] at checked
  obtain ⟨no_zero, -, short⟩ := checked
  refine checkPath_eq_ok_iff.mpr ⟨?_, some_text, ?_⟩
  · simp at no_zero
    simp [no_zero]
  · simp only [String.utf8ByteSize_append] at short
    omega

/-- A path whose last name no link bears leads into the directory that the path above leads to. -/
theorem exists_directory_of_lead {tree : Tree} {purpose : Purpose} {root name : String}
    {more : List String} {target : Target} (some_more : more ≠ [])
    (named : ∀ name ∈ more, name ≠ "") (plain : Plain name)
    (unlinked : ∀ place way, tree.lookup (place ++ [name]) ≠ some (.link way))
    (leads : tree.lead purpose ⟨root, more ++ [name]⟩ (Path.names ⟨root, more ++ [name]⟩) =
      .ok target) :
    ∃ directory, tree.resolve ⟨root, more⟩ = .ok (.entry directory .directory) ∧
      name.utf8ByteSize ≤ nameLimit ∧
      ((∃ entry, tree.lookup (directory ++ [name]) = some entry ∧
          target = .entry (directory ++ [name]) entry) ∨
        tree.lookup (directory ++ [name]) = none ∧ target = .free (directory ++ [name])) := by
  obtain ⟨checked, follows⟩ := lead_eq_ok_iff.mp leads
  have long : Path.names ⟨root, more ++ [name]⟩ =
      (Path.withoutSlash (Path.split root) ++ more) ++ [name] := by
    rw [List.append_assoc]
    exact Path.names_join ⟨root, []⟩ rfl (List.append_ne_nil_of_left_ne_nil some_more _)
  have names : Path.names ⟨root, more⟩ = Path.withoutSlash (Path.split root) ++ more :=
    Path.names_join ⟨root, []⟩ rfl some_more
  have no_slash : [name] ≠ [""] := fun slash => plain.1 (List.singleton_inj.mp slash)
  rw [long] at follows
  obtain ⟨left, directory, way, ends⟩ :=
    exists_way_of_follow_append (List.cons_ne_nil _ _) no_slash follows
  rw [← names] at way
  exact ⟨directory, lead_eq_ok_iff.mpr
      ⟨checkPath_above (display_ne_empty some_more named) checked, way.follow_eq⟩,
    short_of_follow plain (by simp) ends, follow_name plain (unlinked directory) ends⟩

/-- A path to a directory leads on to a file in it. -/
theorem resolve_file {tree : Tree} {root name : String} {more : List String} {directory : Place}
    {content : Content} (some_more : more ≠ [])
    (leads : tree.resolve ⟨root, more⟩ = .ok (.entry directory .directory)) (plain : Plain name)
    (short : name.utf8ByteSize ≤ nameLimit)
    (checked : checkPath (Path.display ⟨root, more ++ [name]⟩) = .ok ())
    (there : tree.lookup (directory ++ [name]) = some (.file content)) :
    tree.resolve ⟨root, more ++ [name]⟩ =
      .ok (.entry (directory ++ [name]) (.file content)) := by
  have long : Path.names ⟨root, more ++ [name]⟩ = Path.names ⟨root, more⟩ ++ [name] := by
    rw [show Path.names ⟨root, more⟩ = _ from Path.names_join ⟨root, []⟩ rfl some_more,
      List.append_assoc]
    exact Path.names_join ⟨root, []⟩ rfl (List.append_ne_nil_of_left_ne_nil some_more _)
  have no_slash : [name] ≠ [""] := fun slash => plain.1 (List.singleton_inj.mp slash)
  obtain ⟨left, further⟩ := (way_of_follow (lead_eq_ok_iff.mp leads).2).follow_append
  refine lead_eq_ok_iff.mpr ⟨checked, ?_⟩
  rw [long]
  refine (further .find [name] (List.cons_ne_nil _ _) no_slash).trans ?_
  rw [follow_plain plain short (by simp), there]
  rfl

/-! ## Links at the end of a path -/

/-- Without following a link at its end a path leads where it leads otherwise, or to a link. -/
theorem follow_locate_of_find {tree : Tree} {links : Nat} {place : Place} {names : List String}
    {target : Target} (leads : tree.follow .find links place names = .ok target) :
    tree.follow .locate links place names = .ok target ∨
      ∃ found way, tree.follow .locate links place names = .ok (.entry found (.link way)) := by
  have plain {name : String} (different : ¬(name = "" ∨ name = ".")) (down : ¬name = "..") :
      Plain name := ⟨fun empty => different (.inl empty), fun dot => different (.inr dot), down⟩
  fun_induction tree.follow .find links place names with
  | case1 =>
      rw [follow]
      exact .inl leads
  | case2 _ _ _ _ same ih =>
      rw [follow_stay same]
      exact ih leads
  | case3 _ _ _ _ ih =>
      rw [follow_up]
      exact ih leads
  | case6 _ _ _ different down short _ missing =>
      rw [follow_plain (plain different down) (Nat.not_lt.mp short) (by simp), missing]
      exact .inl leads
  | case8 _ _ _ _ different down _ short _ there ih =>
      rw [follow_plain (plain different down) (Nat.not_lt.mp short) (by simp), there]
      exact ih leads
  | case9 _ _ _ different down short _ _ there =>
      rw [follow_plain (plain different down) (Nat.not_lt.mp short) (by simp), there]
      exact .inl leads
  | case13 place name rest different down _ short _ way there _ links ih =>
      rw [follow_plain (plain different down) (Nat.not_lt.mp short) (by simp), there]
      dsimp only
      by_cases last : rest = []
      · rw [if_pos ⟨last, rfl⟩]
        exact .inr ⟨_, way, rfl⟩
      · rw [if_neg (fun ends => last ends.1)]
        rw [dite_eq_ite] at ih
        exact ih leads
  | case4 | case5 | case7 | case10 | case12 => cases leads
  | case11 _ _ _ _ _ _ _ _ _ _ _ ends => cases ends.2

/-- What a path leads to is located by it, unless a link stands at its end. -/
theorem locate_of_resolve {tree : Tree} {path : Path} {target : Target}
    (leads : tree.resolve path = .ok target) :
    tree.locate path = .ok target ∨
      ∃ found way, tree.locate path = .ok (.entry found (.link way)) := by
  obtain ⟨checked, follows⟩ := lead_eq_ok_iff.mp leads
  rcases follow_locate_of_find follows with same | ⟨found, way, link⟩
  · exact .inl (lead_eq_ok_iff.mpr ⟨checked, same⟩)
  · exact .inr ⟨found, way, lead_eq_ok_iff.mpr ⟨checked, link⟩⟩

/-! ## Making directories -/

namespace Closed

variable {tree after : Tree}

theorem makeDirectory (closed : tree.Closed) {path : Path}
    (made : tree.makeDirectory path = .ok after) : after.Closed := by
  unfold Tree.makeDirectory at made
  split at made
  · cases made
  · rename_i place leads
    cases made
    have follows := (lead_eq_ok_iff.mp leads).2
    have missing := lookup_of_follow_free follows
    obtain ⟨base, name, split, there⟩ :=
      closed.exists_of_follow_free (start path.base closed.current) follows
    refine closed.change (by rw [missing]; simp) rfl
      (fun other differ => lookup_put_of_ne tree _ differ) fun _ => ⟨base, name, split, there⟩
  · cases made

theorem ensureDirectory (closed : tree.Closed) (path : Path) :
    (tree.ensureDirectory path).2.Closed := by
  unfold Tree.ensureDirectory
  split
  · rename_i made
    exact closed.makeDirectory made
  · split <;> exact closed

theorem makeUpwards (closed : tree.Closed) (paths : List Path) :
    (tree.makeUpwards paths).2.Closed := by
  induction paths with
  | nil => exact closed
  | cons path ancestors ih =>
      unfold Tree.makeUpwards
      split
      · rename_i made
        exact closed.makeDirectory made
      · split
        · rename_i above
          rw [above] at ih
          exact ih.ensureDirectory path
        · exact ih
      · exact closed.ensureDirectory path

theorem makeDirectories (closed : tree.Closed) (path : Path) :
    (tree.makeDirectories path).2.Closed := by
  unfold Tree.makeDirectories
  split
  · exact closed
  · exact closed.makeUpwards _

end Closed

/-- Nothing is made where something is, as long as the path leads to a directory. -/
theorem makeDirectories_of_refused {tree : Tree} {path : Path}
    (refused : tree.makeDirectory path = .error .alreadyExists)
    (there : tree.isDirectory path = true) : tree.makeDirectories path = (.ok (), tree) := by
  unfold Tree.makeDirectories
  split
  · rfl
  · rw [Tree.makeUpwards, refused]
    dsimp only
    rw [Tree.ensureDirectory, refused]
    dsimp only
    rw [if_pos there]

/-- Nothing is made where a directory is. -/
theorem makeDirectories_of_directory {tree : Tree} {path : Path} {place : Place}
    (leads : tree.resolve path = .ok (.entry place .directory))
    (open_end : Path.withoutSlash path.names = path.names) :
    tree.makeDirectories path = (.ok (), tree) := by
  refine makeDirectories_of_refused ?_ (by rw [Tree.isDirectory, leads])
  rw [Tree.makeDirectory, Tree.locateName, open_end, ← Tree.locate]
  rcases Tree.locate_of_resolve leads with same | ⟨found, way, link⟩
  · rw [same]
  · rw [link]

/-- Nothing is made where a text leads to a directory, with or without a slash at its end. -/
theorem Rooted.makeDirectories_eq {tree : Tree} {root : String} {base : Place}
    (rooted : Rooted tree root base) : tree.makeDirectories ⟨root, []⟩ = (.ok (), tree) := by
  refine makeDirectories_of_refused ?_ (by rw [Tree.isDirectory, rooted])
  have checked := (lead_eq_ok_iff.mp rooted).1
  have located : tree.locateName ⟨root, []⟩ = .ok (.entry base .directory) ∨
      ∃ found way, tree.locateName ⟨root, []⟩ = .ok (.entry found (.link way)) :=
    (follow_locate_of_find rooted.way.follow_eq).imp
      (fun same => lead_eq_ok_iff.mpr ⟨checked, same⟩)
      fun ⟨found, way, link⟩ => ⟨found, way, lead_eq_ok_iff.mpr ⟨checked, link⟩⟩
  rw [Tree.makeDirectory]
  rcases located with same | ⟨found, way, link⟩
  · rw [same]
  · rw [link]

end ImageGallery.Disk.Tree
