import ImageGallery.Proofs.Stores
import ImageGallery.Store.File

/-!
# Stores in files

A store whose database a file keeps. Every change that is committed goes to the file at once, so
that whoever opens the file again goes on with the same database. What has to be known for that is
where the file is found again: the text that says where the database is leads to no other file
later on, whatever the connection puts beside its file meanwhile.
-/

namespace ImageGallery

open Disk

namespace Connection

/-! ## Where a path leads to when files are put into the tree -/

/-- No link stands at a place. -/
def Solid (tree : Tree) (place : Place) : Prop :=
  ∀ target, tree.lookup place ≠ some (.link target)

section Put

variable {tree : Tree} {changed : Place} {content : Content}

theorem lookup_put_file_cases (tree : Tree) (changed : Place) (content : Content) (place : Place) :
    (tree.put changed (.file content)).lookup place = tree.lookup place ∨
      place = changed ∧
        (tree.put changed (.file content)).lookup place = some (.file content) := by
  by_cases same : place = changed
  · subst same
    by_cases outer : place = []
    · subst outer
      exact .inl (by rw [Tree.lookup_nil, Tree.lookup_nil])
    · exact .inr ⟨rfl, Tree.lookup_put_self _ _ outer⟩
  · exact .inl (Tree.lookup_put_of_ne _ _ same)

theorem Solid.put {place : Place} (solid : Solid tree place) :
    Solid (tree.put changed (.file content)) place := by
  intro target
  rcases lookup_put_file_cases tree changed content place with same | ⟨-, filed⟩
  · rw [same]
    exact solid target
  · rw [filed]
    simp

/-- Where a name leads on among more files, it led on before, and along the same link. -/
theorem exists_entryIn?_of_put (solid : Solid tree changed) {place : Place} {name : String}
    {entry : Option Entry}
    (looked : entryIn? (tree.put changed (.file content)) place name = .ok entry) :
    ∃ old, entryIn? tree place name = .ok old ∧
      ∀ target, old = some (.link target) ↔ entry = some (.link target) := by
  unfold entryIn? at looked ⊢
  rcases lookup_put_file_cases tree changed content place with same | ⟨-, filed⟩
  · rw [same] at looked
    split at looked
    · exact ⟨entry, looked, fun _ => Iff.rfl⟩
    · split at looked
      · cases looked
      · rename_i short
        rw [if_neg short]
        rcases lookup_put_file_cases tree changed content (place ++ [name]) with
          next | ⟨next, filed⟩
        · rw [next] at looked
          exact ⟨entry, looked, fun _ => Iff.rfl⟩
        · rw [filed] at looked
          cases looked
          refine ⟨_, rfl, fun target => ?_⟩
          rw [next]
          simp [solid target]
    · cases looked
  · rw [filed] at looked
    cases looked

/-- Names that lead to a place among more files led there before. -/
theorem placeFrom_of_put (solid : Solid tree changed) {links : Nat} {place found : Place}
    {names : List String}
    (leads : placeFrom (tree.put changed (.file content)) links place names = some found) :
    placeFrom tree links place names = some found := by
  fun_induction placeFrom (tree.put changed (.file content)) links place names with
  | case1 => rwa [placeFrom]
  | case2 links place name rest idle ih =>
      rw [placeFrom, if_pos idle]
      exact ih leads
  | case3 links place rest named ih =>
      rw [placeFrom, if_neg named, if_pos rfl]
      exact ih leads
  | case4 => cases leads
  | case5 => cases leads
  | case6 => cases leads
  | case7 place name rest named lower short target looked links ih =>
      obtain ⟨old, oldLooked, alike⟩ := exists_entryIn?_of_put solid looked
      rw [(alike target).mpr rfl] at oldLooked
      rw [placeFrom, if_neg named, if_neg lower, if_neg short, oldLooked]
      exact ih leads
  | case8 links place name rest named lower short entry unlinked looked ih =>
      obtain ⟨old, oldLooked, alike⟩ := exists_entryIn?_of_put solid looked
      rw [placeFrom, if_neg named, if_neg lower, if_neg short, oldLooked]
      split
      · rename_i impossible
        cases impossible
      · rename_i target linked
        cases linked
        exact absurd ((alike target).mp rfl) (unlinked target)
      · exact ih leads

theorem placeOf?_of_put (solid : Solid tree changed) {path : String} {found : Place}
    (leads : placeOf? (tree.put changed (.file content)) path = some found) :
    placeOf? tree path = some found := by
  unfold placeOf? at leads ⊢
  rw [Option.filter_eq_some_iff] at leads ⊢
  exact ⟨placeFrom_of_put solid leads.1, leads.2⟩

end Put

/-! ## A connection and its file -/

/-- The places beside a database that its log and the index of the log stand at. -/
def sides (place : Place) : List Place :=
  [beside place "-wal", beside place "-shm"]

theorem ne_beside {place : Place} {ending : String} (inner : place ≠ []) (longer : ending ≠ "") :
    place ≠ beside place ending := by
  rcases List.eq_nil_or_concat place with outer | ⟨above, name, rfl⟩
  · exact absurd outer inner
  · intro same
    rw [List.concat_eq_append, beside, List.dropLast_concat] at same
    have names : name = name ++ ending := by simpa using same
    have texts := congrArg String.toList names
    rw [String.toList_append, List.self_eq_append_right] at texts
    exact longer (String.toList_inj.mp texts)

/-- A tree keeps the database of a connection in a file that can be changed, and a location leads
nowhere else. -/
structure Keeps (location : Location) (place : Place) (connection : Connection) (tree : Tree) :
    Prop where
  shared : location.isPrivate = false
  changeable : location.isReadOnly = false
  placed : connection.place = some place
  file : ∃ logged settled, tree.lookup place = some (.file (.database
    { database := connection.database, logged, settled })) ∧
      (connection.held = true → settled = false)
  only : ∀ other, placeOf? tree location.path = some other → other = place
  solid : ∀ side ∈ sides place, Solid tree side

namespace Keeps

variable {location : Location} {place : Place} {connection : Connection} {tree : Tree}

theorem solid_place (keeps : Keeps location place connection tree) : Solid tree place := by
  intro target linked
  obtain ⟨logged, settled, filed, -⟩ := keeps.file
  rw [filed] at linked
  cases linked

theorem inner (keeps : Keeps location place connection tree) : place ≠ [] := by
  rintro rfl
  obtain ⟨logged, settled, filed, -⟩ := keeps.file
  rw [Tree.lookup_nil] at filed
  cases filed

/-- A database is kept by writing it to the file. -/
theorem write (keeps : Keeps location place connection tree) {other : Connection}
    {file : DatabaseFile} (placed : other.place = some place)
    (same : file.database = other.database) (unsettled : other.held = true → file.settled = false) :
    Keeps location place other (tree.put place (.file (.database file))) where
  shared := keeps.shared
  changeable := keeps.changeable
  placed := placed
  file := by
    refine ⟨file.logged, file.settled, ?_, unsettled⟩
    rw [Tree.lookup_put_self _ _ keeps.inner, ← same]
  only other leads := keeps.only other (placeOf?_of_put keeps.solid_place leads)
  solid side mem := (keeps.solid side mem).put

/-- A file beside the database does it no harm. -/
theorem putBeside (keeps : Keeps location place connection tree) (content : Content) {side : Place}
    (mem : side ∈ sides place) (apart : place ≠ side) :
    Keeps location place connection (tree.put side (.file content)) where
  shared := keeps.shared
  changeable := keeps.changeable
  placed := keeps.placed
  file := by
    rw [Tree.lookup_put_of_ne _ _ apart]
    exact keeps.file
  only other leads := keeps.only other (placeOf?_of_put (keeps.solid side mem) leads)
  solid other otherMem := (keeps.solid other otherMem).put

/-- What a connection changes is kept. -/
theorem keep (keeps : Keeps location place connection tree) (database : Database) :
    Keeps location place { connection with database }
      ({ connection with database }.keep tree) := by
  obtain ⟨logged, settled, filed, unsettled⟩ := keeps.file
  have reached : ¬(connection.held = true ∧ settled = true) := by
    rintro ⟨held, settling⟩
    rw [unsettled held] at settling
    cases settling
  have kept : { connection with database }.keep tree =
      tree.put place (.file (.database { database, logged, settled })) := by
    unfold Connection.keep
    dsimp only
    rw [keeps.placed]
    dsimp only
    rw [filed]
    dsimp only
    rw [if_neg reached]
  rw [kept]
  exact keeps.write keeps.placed rfl unsettled

/-- A connection that is held keeps its database. -/
theorem hold (keeps : Keeps location place connection tree) :
    Keeps location place (connection.hold tree).1 (connection.hold tree).2 := by
  have held : connection.hold tree = ({ connection with held := true },
      ((tree.put place (.file (.database
          { database := connection.database, settled := false }))).put
        (beside place "-wal") (.file (.ofBytes logMark))).put
        (beside place "-shm") (.file (.ofBytes indexMark))) := by
    unfold Connection.hold
    rw [keeps.placed]
  rw [held]
  have written : Keeps location place { connection with held := true }
      (tree.put place (.file (.database
        { database := connection.database, settled := false }))) :=
    keeps.write keeps.placed rfl fun _ => rfl
  have logged := written.putBeside (.ofBytes logMark) List.mem_cons_self
    (ne_beside keeps.inner (by decide))
  exact logged.putBeside (.ofBytes indexMark) (List.mem_cons_of_mem _ List.mem_cons_self)
    (ne_beside keeps.inner (by decide))

/-- Whoever opens the file goes on with the database. -/
theorem reopen {text : String} {other : Connection} {after : Tree}
    (keeps : Keeps location place connection tree) (named : Location.ofText text = .ok location)
    (opened : openAt text tree = (.ok other, after)) :
    other.database = connection.database ∧ Keeps location place other after := by
  obtain ⟨logged, settled, filed, -⟩ := keeps.file
  unfold openAt at opened
  rw [named] at opened
  dsimp only at opened
  rw [keeps.shared, if_neg Bool.false_ne_true] at opened
  split at opened
  · cases opened
  · rename_i found leads
    rw [keeps.only found leads] at opened
    split at opened
    · unfold openPlace at opened
      rw [filed] at opened
      have changeable := keeps.changeable
      rw [Location.isReadOnly, Bool.or_eq_false_iff, decide_eq_false_iff_not] at changeable
      dsimp only at opened
      rw [openExisting, changeable.1, if_neg Bool.false_ne_true] at opened
      split at opened
      · cases opened
      · rw [if_neg changeable.2] at opened
        cases opened
        exact ⟨rfl, keeps.write rfl rfl fun impossible => absurd impossible Bool.false_ne_true⟩
    · cases opened

end Keeps

/-! ## Opening -/

/-- The file at a place was opened for changes, and holds the database of the connection. -/
structure Opened (location : Location) (place : Place) (connection : Connection)
    (tree after : Tree) : Prop where
  changeable : location.isReadOnly = false
  connection_eq : connection = { database := connection.database, place }
  file : ∃ file : DatabaseFile, file.database = connection.database ∧
    after = tree.put place (.file (.database file))

section Opened

variable {location : Location} {place : Place} {connection : Connection} {tree after : Tree}

theorem opened_of_openFresh (opened : openFresh location place tree = (.ok connection, after)) :
    Opened location place connection tree after := by
  unfold openFresh at opened
  split at opened
  · cases opened
  · rename_i changeable
    split at opened
    · cases opened
      exact ⟨Bool.not_eq_true _ ▸ changeable, rfl, _, rfl, rfl⟩
    · cases opened

theorem opened_of_openExisting {file : DatabaseFile}
    (opened : openExisting location place file tree = (.ok connection, after))
    (writable : connection.writable = true) : Opened location place connection tree after := by
  unfold openExisting at opened
  dsimp only at opened
  split at opened
  · split at opened
    · cases opened
      cases writable
    · cases opened
  · rename_i mutable
    split at opened
    · cases opened
    · split at opened
      · split at opened
        · cases opened
          cases writable
        · cases opened
      · rename_i changing
        cases opened
        refine ⟨?_, rfl, { file with logged := file.logged || !location.isUnlogged }, rfl, rfl⟩
        rw [Location.isReadOnly, Bool.or_eq_false_iff, decide_eq_false_iff_not]
        exact ⟨Bool.not_eq_true _ ▸ mutable, changing⟩

theorem opened_of_openBytes {bytes : Bytes}
    (opened : openBytes location place bytes tree = (.ok connection, after)) :
    Opened location place connection tree after := by
  unfold openBytes at opened
  split at opened
  · split at opened
    · cases opened
    · exact opened_of_openFresh opened
  · split at opened
    case h_5 =>
      split at opened
      · exact opened_of_openFresh opened
      · cases opened
    all_goals cases opened

theorem opened_of_openPlace {text : String}
    (opened : openPlace text location place tree = (.ok connection, after))
    (writable : connection.writable = true) : Solid tree place ∧
      (Opened location place connection tree after ∨
        Opened location place connection (tree.put place (.file (.ofBytes []))) after) := by
  unfold openPlace at opened
  split at opened
  · rename_i file filed
    refine ⟨fun target linked => ?_, .inl (opened_of_openExisting opened writable)⟩
    rw [filed] at linked
    cases linked
  · rename_i content _ filed
    refine ⟨fun target linked => ?_, .inl (opened_of_openBytes opened)⟩
    rw [filed] at linked
    cases linked
  · cases opened
  · cases opened
  · rename_i free
    split at opened
    · refine ⟨fun target linked => ?_, .inr (opened_of_openFresh opened)⟩
      rw [free] at linked
      cases linked
    · cases opened

/-- A file that was opened for changes keeps its database. -/
theorem Opened.keeps (opened : Opened location place connection tree after)
    (shared : location.isPrivate = false) (inner : place ≠ [])
    (only : ∀ other, placeOf? tree location.path = some other → other = place)
    (solid : Solid tree place) (clear : ∀ side ∈ sides place, Solid tree side) :
    Keeps location place connection after := by
  obtain ⟨file, same, rfl⟩ := opened.file
  exact {
    shared
    changeable := opened.changeable
    placed := by rw [opened.connection_eq]
    file := by
      refine ⟨file.logged, file.settled, ?_, ?_⟩
      · rw [Tree.lookup_put_self _ _ inner, ← same]
      · rw [opened.connection_eq]
        intro held
        cases held
    only := fun other leads => only other (placeOf?_of_put solid leads)
    solid := fun side mem => (clear side mem).put }

/-- The database in a file that was opened for changes is kept there, if no links stand where the
log and its index go. -/
theorem keeps_of_openAt {text : String} (opened : openAt text tree = (.ok connection, after))
    (placed : connection.place = some place) (writable : connection.writable = true)
    (clear : ∀ side ∈ sides place, Solid tree side) :
    ∃ location, Location.ofText text = .ok location ∧ Keeps location place connection after := by
  unfold openAt at opened
  split at opened
  · cases opened
  · rename_i location named
    refine ⟨location, named, ?_⟩
    split at opened
    · split at opened
      · cases opened
      · cases opened
        cases placed
    · rename_i shared
      split at opened
      · cases opened
      · rename_i found leads
        have inner : found ≠ [] := by
          rintro rfl
          have outer := (Option.filter_eq_some_iff.mp leads).2
          simp at outer
        have only (other : Place) (otherLeads : placeOf? tree location.path = some other) :
            other = found := Option.some.inj (otherLeads.symm.trans leads)
        have unshared := Bool.not_eq_true _ ▸ shared
        split at opened
        · obtain ⟨solid, there | made⟩ := opened_of_openPlace opened writable
          · rw [there.connection_eq] at placed
            cases placed
            exact there.keeps unshared inner only solid clear
          · rw [made.connection_eq] at placed
            cases placed
            exact made.keeps unshared inner
              (fun other otherLeads => only other (placeOf?_of_put solid otherLeads)) solid.put
              fun side mem => (clear side mem).put
        · cases opened

end Opened

end Connection

/-! ## The store -/

/-- A store on a connection whose database is kept in a file. Like every database it may refuse
calls. -/
structure FileStore where
  /-- Where the database is, as text and as what the text denotes. -/
  text : String
  location : Location
  place : Place
  connection : Connection
  /-- The tree that has the file. -/
  tree : Tree
  refusals : Refusals := fun _ _ => none
  named : Location.ofText text = .ok location
  keeps : Connection.Keeps location place connection tree

namespace FileStore

/-- The database, which may refuse calls. -/
def database (store : FileStore) : Fallible Database where
  inner := store.connection.database
  refusals := store.refusals

/-- Change the database and its file. -/
def write (store : FileStore) (database : Database) : FileStore :=
  { store with
    connection := { store.connection with database }
    tree := { store.connection with database }.keep store.tree
    keeps := store.keeps.keep database }

/-- Open the file again, and go on with the database in it. If it cannot be opened, the store stays
as it is. -/
def reopen (store : FileStore) : FileStore :=
  match opened : Connection.openAt store.text store.tree with
  | (.error _, _) => store
  | (.ok connection, tree) =>
    { store with
      connection := (connection.hold tree).1
      tree := (connection.hold tree).2
      keeps := (store.keeps.reopen store.named opened).2.hold }

/-- Nothing is lost when the file is opened again. -/
theorem database_reopen (store : FileStore) : store.reopen.database = store.database := by
  unfold reopen
  split
  · rfl
  · rename_i connection tree opened
    exact congrArg (fun inner => { store.database with inner })
      (store.keeps.reopen store.named opened).1

/-- A file that was opened for changes gives a store, if no links stand where its log goes. -/
theorem exists_of_openAt {text : String} {tree after : Tree} {connection : Connection}
    {place : Place} (opened : Connection.openAt text tree = (.ok connection, after))
    (placed : connection.place = some place) (writable : connection.writable = true)
    (clear : ∀ side ∈ Connection.sides place, Connection.Solid tree side) :
    ∃ store : FileStore, store.text = text ∧ store.connection = (connection.hold after).1 ∧
      store.tree = (connection.hold after).2 := by
  obtain ⟨location, named, keeps⟩ := Connection.keeps_of_openAt opened placed writable clear
  exact ⟨{ text, location, place, connection := _, tree := _, named, keeps := keeps.hold },
    rfl, rfl, rfl⟩

/-- Commit to the database and to its file. -/
def commit (tx : FallibleTx DatabaseTx) (store : FileStore) :
    Except StoreError Unit × FileStore :=
  match GalleryStore.commit tx store.database with
  | (.ok (), database) => (.ok (), store.write database.inner)
  | (.error error, _) => (.error error, store)

theorem commit_eq_error {tx : FallibleTx DatabaseTx} {store after : FileStore} {error : StoreError}
    (refused : store.commit tx = (.error error, after)) : after = store := by
  unfold commit at refused
  split at refused
  · cases refused
  · cases refused
    rfl

theorem commit_eq_ok {tx : FallibleTx DatabaseTx} {store after : FileStore}
    (committed : store.commit tx = (.ok (), after)) :
    ∃ database, GalleryStore.commit tx store.database = (.ok (), database) ∧
      after = store.write database.inner := by
  unfold commit at committed
  split at committed
  · rename_i database published
    cases committed
    exact ⟨database, published, rfl⟩
  · cases committed

instance : GalleryStore FileStore (FallibleTx DatabaseTx) where
  start store parent := GalleryStore.start store.database parent
  commit tx store := store.commit tx
  listImages store parent := GalleryStore.listImages store.database parent
  galleryParentIds store := GalleryStore.galleryParentIds store.database

instance : ParentStore FileStore where
  registry store := ParentStore.registry store.database
  withRegistry store registry :=
    store.write (ParentStore.withRegistry store.database registry).inner

instance : StoreView FileStore (FallibleTx DatabaseTx) where
  images store := StoreView.images store.database
  lastId store := StoreView.lastId store.database
  Open store tx := StoreView.Open store.database tx

instance : LawfulStore FileStore (FallibleTx DatabaseTx) where
  listImages_eq store parent := LawfulStore.listImages_eq store.database parent
  draft_start store parent := LawfulStore.draft_start store.database parent
  open_start store parent := LawfulStore.open_start store.database parent
  open_insert {store tx} image opened := by
    have within : StoreView.Open store.database tx := opened
    have kept := LawfulStore.open_insert image within
    exact kept
  open_setSortOrder {store tx} id order opened := by
    have within : StoreView.Open store.database tx := opened
    have kept := LawfulStore.open_setSortOrder id order within
    exact kept
  open_assignExclusiveCover {store tx} id opened := by
    have within : StoreView.Open store.database tx := opened
    have kept := LawfulStore.open_assignExclusiveCover id within
    exact kept
  open_delete {store tx} id opened := by
    have within : StoreView.Open store.database tx := opened
    have kept := LawfulStore.open_delete id within
    exact kept
  commit_of_error refused := commit_eq_error refused
  commit_of_ok {store after tx} opened committed := by
    have within : StoreView.Open store.database tx := opened
    obtain ⟨database, accepted, rfl⟩ := commit_eq_ok committed
    have published := LawfulStore.commit_of_ok within accepted
    exact
      { images_self := published.images_self
        images_other := published.images_other
        lastId_eq := published.lastId_eq
        registry_eq := published.registry_eq }
  registry_withRegistry _ _ := rfl
  images_withRegistry _ _ := rfl
  lastId_withRegistry _ _ := rfl

/-- What a store in a file can be told between calls. -/
inductive Order where
  /-- To refuse calls from now on. -/
  | refuse (refusals : Refusals)
  /-- To open its file again. -/
  | reopen

instance : Refusing FileStore Order where
  refuse store
    | .refuse refusals => { store with refusals }
    | .reopen => store.reopen

instance : LawfulRefusing FileStore (FallibleTx DatabaseTx) Order where
  images_refuse store order := by
    cases order with
    | refuse refusals => rfl
    | reopen =>
        have same := congrArg StoreView.images store.database_reopen
        exact same
  lastId_refuse store order := by
    cases order with
    | refuse refusals => rfl
    | reopen =>
        have same := congrArg StoreView.lastId store.database_reopen
        exact same
  registry_refuse store order := by
    cases order with
    | refuse refusals => rfl
    | reopen =>
        have same := congrArg ParentStore.registry store.database_reopen
        exact same

end FileStore

end ImageGallery
