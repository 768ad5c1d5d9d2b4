import ImageGallery.Disk.Tree
import ImageGallery.Store.Head
import ImageGallery.Store.Location

/-!
# Databases in files

Opening a location reads the database in its file. A file of at most one byte becomes a new
database, and so does one whose first page says that there is nothing in it; any other file that
holds no database is refused. Changes of a database go to a log beside
its file first, unless it is opened in a way that leaves no room for one; then a database that has a
log cannot be opened.

The place of the file is found from the names of the path alone, so that `..` leads back also from
a directory that is missing. Only links are looked up on the way.
-/

namespace ImageGallery

open Disk

/-- An open database. -/
structure Connection where
  database : Database := {}
  /-- The place of the file that keeps it, if one does. -/
  place : Option Place := none
  /-- Whether it may be changed. -/
  writable : Bool := true
  /-- Whether it stays open while others use the file. -/
  held : Bool := false
deriving DecidableEq, Inhabited

namespace Connection

/-! ## Places -/

/-- The number of bytes in a place as text. -/
def placeSize (place : Place) : Nat :=
  place.foldl (fun size name => size + 1 + name.utf8ByteSize) 0

/-- The greatest number of bytes in the place of a database. -/
def placeLimit : Nat := 504

/-- The greatest number of bytes in a place on the way. -/
def passageLimit : Nat := 511

/-- The number of links that may be followed. -/
def linkLimit : Nat := 101

/-- What stands at a name in a place that may itself be missing. -/
def entryIn? (tree : Tree) (place : Place) (name : String) : Except SystemError (Option Entry) :=
  match tree.lookup place with
  | none => .ok none
  | some .directory =>
    if Tree.nameLimit < name.utf8ByteSize then .error .nameTooLong
    else .ok (tree.lookup (place ++ [name]))
  | some _ => .error .notDirectory

/-- The place that names lead to from another one. `links` more links may be followed. -/
def placeFrom (tree : Tree) (links : Nat) (place : Place) (names : List String) : Option Place :=
  match names with
  | [] => some place
  | name :: rest =>
    if name = "" ∨ name = "." then placeFrom tree links place rest
    else if name = ".." then placeFrom tree links place.dropLast rest
    else if passageLimit < placeSize (place ++ [name]) then none
    else
      match entryIn? tree place name with
      | .error _ => none
      | .ok (some (.link target)) =>
        match links with
        | 0 => none
        | links + 1 =>
          placeFrom tree links (if Path.isAbsolute target then [] else place)
            (Path.split target ++ rest)
      | .ok _ => placeFrom tree links (place ++ [name]) rest
termination_by (links, names.length)

/-- The place of the file at a path. -/
def placeOf? (tree : Tree) (path : String) : Option Place :=
  (placeFrom tree linkLimit (if Path.isAbsolute path then [] else tree.current)
    (Path.split path)).filter fun place => place ≠ [] && placeSize place ≤ placeLimit

/-! ## Logs -/

/-- The place of a file beside another one, whose name is longer. -/
def beside (place : Place) (ending : String) : Place :=
  place.dropLast ++ [place.getLastD "" ++ ending]

/-- The bytes that a log starts with. -/
def logMark : Bytes := [0x37, 0x7F, 0x06, 0x82]

/-- The bytes that the index of a log starts with. -/
def indexMark : Bytes := [0x18, 0xE2, 0x2D, 0x00]

/-- Whether a connection holds the file at a place, whose log has an index then. -/
def isHeld (place : Place) (tree : Tree) : Bool :=
  tree.lookup (beside place "-shm") = some (.file (.ofBytes indexMark))

/-! ## Opening -/

/-- Whether there can be a journal beside a file, which a new database needs. -/
def hasRoomForJournal (place : Place) : Bool :=
  (place.getLastD "").utf8ByteSize + "-journal".utf8ByteSize ≤ Tree.nameLimit

/-- Open a file that holds no database yet. -/
def openFresh (location : Location) (place : Place) (tree : Tree) :
    Except StoreError Connection × Tree :=
  if location.isReadOnly then (.error .readOnly, tree)
  else if hasRoomForJournal place then
    (.ok { place }, tree.put place (.file (.database { logged := !location.isUnlogged })))
  else (.error .noRoom, tree)

/-- Open a file that holds a database. Read-only access cannot turn a database without a log into
one with a log. What is only in the log is missing for those who take the file for immutable: then
the file alone holds no tables. -/
def openExisting (location : Location) (place : Place) (file : DatabaseFile) (tree : Tree) :
    Except StoreError Connection × Tree :=
  let readOnly : Connection := { database := file.database, place, writable := false }
  if location.immutable then (if file.settled then .ok readOnly else .error .readOnly, tree)
  else if location.isUnlogged ∧ file.logged then (.error .noRoom, tree)
  else if location.access = .readOnly then
    (if file.logged ∨ location.isUnlogged then .ok readOnly else .error .readOnly, tree)
  else
    let logged := file.logged || !location.isUnlogged
    (.ok { database := file.database, place },
      tree.put place (.file (.database { file with logged })))

/-- Whether a file of some bytes counts as empty. -/
def isVacant (bytes : Bytes) : Bool :=
  bytes.length ≤ 1

/-- Open a file of bytes. A log cannot be started for an empty file that someone holds. -/
def openBytes (location : Location) (place : Place) (bytes : Bytes) (tree : Tree) :
    Except StoreError Connection × Tree :=
  if isVacant bytes then
    if isHeld place tree ∧ !location.isReadOnly ∧ !location.isUnlogged then (.error .locked, tree)
    else openFresh location place tree
  else
    match DatabaseHead.ofBytes bytes with
    | .foreign => (.error .notDatabase, tree)
    | .damaged => (.error .damaged, tree)
    | .unsupported => (.error .unsupported, tree)
    | .frozen => (.error .readOnly, tree)
    | .blank hasRoom =>
      if hasRoom ∨ location.isReadOnly then openFresh location place tree
      else (.error .damaged, tree)

/-- Open the file at a place, which is made if it is missing. A directory can be opened for reading,
but it has no bytes to read. -/
def openPlace (text : String) (location : Location) (place : Place) (tree : Tree) :
    Except StoreError Connection × Tree :=
  match tree.lookup place with
  | some (.file (.database file)) => openExisting location place file tree
  | some (.file content) => openBytes location place content.bytes tree
  | some .directory =>
    (.error (if location.access = .readOnly then .noAnswer text else .cannotOpen text), tree)
  | some (.link _) => (.error (.cannotOpen text), tree)
  | none =>
    if location.access = .create ∧ tree.lookup place.dropLast = some .directory then
      openFresh location place (tree.put place (.file (.ofBytes [])))
    else (.error (.cannotOpen text), tree)

/-- Open the database at the location that a text denotes. -/
def openAt (text : String) (tree : Tree) : Except StoreError Connection × Tree :=
  match Location.ofText text with
  | .error fault => (.error (.badLocation text fault), tree)
  | .ok location =>
    if location.isPrivate then
      (if location.isFrozen then .error .readOnly else .ok {}, tree)
    else
      match placeOf? tree location.path with
      | none => (.error (.cannotOpen text), tree)
      | some place =>
        if location.model.all fun path => tree.leadsSomewhere ⟨path, []⟩ then
          openPlace text location place tree
        else (.error (.noAnswer text), tree)

/-! ## Keeping -/

/-- Let a connection stay open while others use its file. Its changes are only in the log then. -/
def hold (connection : Connection) (tree : Tree) : Connection × Tree :=
  let heldTree :=
    match connection.place with
    | none => tree
    | some place =>
      ((tree.put place (.file (.database
          { database := connection.database, settled := false }))).put
        (beside place "-wal") (.file (.ofBytes logMark))).put
        (beside place "-shm") (.file (.ofBytes indexMark))
  ({ connection with held := true }, heldTree)

/-- Keep the database of a connection in its file. A file that was removed is not made again, and
one that was emptied, or made in its place by someone else, stays as it is. -/
def keep (connection : Connection) (tree : Tree) : Tree :=
  match connection.place with
  | none => tree
  | some place =>
    match tree.lookup place with
    | some (.file (.database file)) =>
      if connection.held ∧ file.settled then tree
      else tree.put place (.file (.database { file with database := connection.database }))
    | some (.file content) =>
      if connection.held ∧ !isVacant content.bytes then
        tree.put place (.file (.database { database := connection.database, settled := false }))
      else tree
    | _ => tree

/-- A connection that stayed open, with what others have changed in its file. -/
def refresh (connection : Connection) (tree : Tree) : Connection :=
  match connection.place.bind tree.lookup with
  | some (.file (.database file)) =>
    if file.settled then connection else { connection with database := file.database }
  | _ => connection

end Connection

end ImageGallery
