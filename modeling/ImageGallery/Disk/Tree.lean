import ImageGallery.Disk.Content
import ImageGallery.Disk.Path
import ImageGallery.Error

/-!
# Directory trees

A tree holds directories, files and symbolic links, each at a place: the list of names on the way
from the root. Operations take paths, which lead to places along directories and links. A path is
relative to the tree's current directory unless it starts with a slash.

Looking up a path follows links on the way; what is done at its end depends on what the path is
looked up for. Forty links may be followed before the path is refused.
-/

namespace ImageGallery.Disk

/-- The names on the way from the root to an entry. -/
abbrev Place := List String

/-- What stands at a place. -/
inductive Entry where
  | directory
  | file (content : Content)
  | link (target : String)
deriving DecidableEq, Inhabited

/-- A tree of entries, with the directory that relative paths start from. -/
structure Tree where
  entries : List (Place × Entry) := []
  current : Place := []
deriving DecidableEq, Inhabited

namespace Tree

/-! ## Entries by place -/

/-- What stands at a place; the root is a directory. -/
def lookup (tree : Tree) (place : Place) : Option Entry :=
  if place = [] then some .directory
  else (tree.entries.find? fun entry => entry.1 = place).map (·.2)

/-- Put an entry at a place. -/
def put (tree : Tree) (place : Place) (entry : Entry) : Tree :=
  { tree with entries := (place, entry) :: tree.entries.filter fun other => other.1 ≠ place }

/-- Take the entry at a place away. -/
def erase (tree : Tree) (place : Place) : Tree :=
  { tree with entries := tree.entries.filter fun other => other.1 ≠ place }

/-- Take the entry at a place away together with everything below it. -/
def eraseAll (tree : Tree) (place : Place) : Tree :=
  { tree with entries := tree.entries.filter fun other => ¬place.isPrefixOf other.1 }

/-- The names in the directory at a place. -/
def children (tree : Tree) (place : Place) : List String :=
  tree.entries.filterMap fun entry =>
    match entry.1.getLast? with
    | some name => if entry.1 = place ++ [name] then some name else none
    | none => none

@[simp]
theorem lookup_nil (tree : Tree) : tree.lookup [] = some .directory := by
  simp [lookup]

@[simp]
theorem lookup_put_self (tree : Tree) {place : Place} (entry : Entry) (inner : place ≠ []) :
    (tree.put place entry).lookup place = some entry := by
  simp [lookup, put, inner]

theorem lookup_put_of_ne (tree : Tree) {place other : Place} (entry : Entry)
    (differ : other ≠ place) : (tree.put place entry).lookup other = tree.lookup other := by
  have unnamed : ¬place = other := fun same => differ same.symm
  simp only [lookup, put, List.find?_cons, unnamed, decide_false, List.find?_filter]
  congr 3
  funext candidate
  by_cases named : candidate.1 = other <;> simp [named, differ]

@[simp]
theorem lookup_erase_self (tree : Tree) {place : Place} (inner : place ≠ []) :
    (tree.erase place).lookup place = none := by
  simp only [lookup, inner, if_false, erase, List.find?_filter, Option.map_eq_none_iff,
    List.find?_eq_none]
  intro candidate _
  by_cases named : candidate.1 = place <;> simp [named]

theorem lookup_erase_of_ne (tree : Tree) {place other : Place} (differ : other ≠ place) :
    (tree.erase place).lookup other = tree.lookup other := by
  simp only [lookup, erase, List.find?_filter]
  congr 3
  funext candidate
  by_cases named : candidate.1 = other <;> simp [named, differ]

/-! ## Following paths -/

/-- Where a path leads. -/
inductive Target where
  /-- To an entry. -/
  | entry (place : Place) (entry : Entry)
  /-- To a free name in a directory. -/
  | free (place : Place)
deriving DecidableEq, Inhabited

/-- The number of links that may be followed. -/
def linkLimit : Nat := 40

/-- The greatest number of bytes in a name. -/
def nameLimit : Nat := 255

/-- The greatest number of bytes in a path. -/
def pathLimit : Nat := 4095

/-- What a path is looked up for, which decides about its last name. -/
inductive Purpose where
  /-- What the path leads to: a link is followed. -/
  | find
  /-- What stands at the last name: a link is not followed, unless a slash ends the path. -/
  | locate
  /-- Making a file there: links are followed, and no slash may end a path. -/
  | create
deriving DecidableEq, Inhabited

/-- Follow names from a directory. `links` more links may be followed. -/
def follow (tree : Tree) (purpose : Purpose) (links : Nat) (place : Place)
    (names : List String) : Except SystemError Target :=
  match names with
  | [] => .ok (.entry place .directory)
  | name :: rest =>
    if name = "" ∨ name = "." then follow tree purpose links place rest
    else if name = ".." then follow tree purpose links place.dropLast rest
    else if purpose = .create ∧ rest = [""] then .error .isDirectory
    else if nameLimit < name.utf8ByteSize then .error .nameTooLong
    else
      let next := place ++ [name]
      match tree.lookup next with
      | none => if rest = [] then .ok (.free next) else .error .notFound
      | some .directory => follow tree purpose links next rest
      | some (.file content) =>
        if rest = [] then .ok (.entry next (.file content)) else .error .notDirectory
      | some (.link target) =>
        if rest = [] ∧ purpose = .locate then .ok (.entry next (.link target))
        else
          match links with
          | 0 => .error .tooManyLinks
          | links + 1 =>
            follow tree purpose links (if Path.isAbsolute target then [] else place)
              (Path.split target ++ rest)
termination_by (links, names.length)

/-- Whether a text may be a path at all. The empty path leads nowhere. -/
def checkPath (text : String) : Except SystemError Unit :=
  if text.toList.contains '\x00' then .error .zeroByte
  else if text = "" then .error .notFound
  else if pathLimit < text.utf8ByteSize then .error .nameTooLong
  else .ok ()

/-- Where some names of a path lead from its start. -/
def lead (tree : Tree) (purpose : Purpose) (path : Path) (names : List String) :
    Except SystemError Target := do
  checkPath path.display
  tree.follow purpose linkLimit (if Path.isAbsolute path.base then [] else tree.current) names

/-- Where a path leads, with a link at its end followed. -/
def resolve (tree : Tree) (path : Path) : Except SystemError Target :=
  tree.lead .find path path.names

/-- Where a path leads, without following a link at its end. -/
def locate (tree : Tree) (path : Path) : Except SystemError Target :=
  tree.lead .locate path path.names

/-- The place of the last name of a path, whether or not a slash follows it. -/
def locateName (tree : Tree) (path : Path) : Except SystemError Target :=
  tree.lead .locate path (Path.withoutSlash path.names)

/-- The place of the entry that a path leads to through all links. -/
def canonical? (tree : Tree) (path : Path) : Option Place :=
  match tree.resolve path with
  | .ok (.entry place _) => some place
  | _ => none

/-- Whether a path leads to a file. -/
def isFile (tree : Tree) (path : Path) : Bool :=
  match tree.resolve path with
  | .ok (.entry _ (.file _)) => true
  | _ => false

/-- Whether a path leads to a directory. -/
def isDirectory (tree : Tree) (path : Path) : Bool :=
  match tree.resolve path with
  | .ok (.entry _ .directory) => true
  | _ => false

/-- Whether a path leads to anything. -/
def leadsSomewhere (tree : Tree) (path : Path) : Bool :=
  (tree.canonical? path).isSome

/-! ## Operations -/

/-- The bytes of a file. -/
def read (tree : Tree) (path : Path) : Except SystemError Bytes :=
  match tree.resolve path with
  | .ok (.entry _ (.file content)) => .ok content.bytes
  | .ok (.entry _ _) => .error .isDirectory
  | .ok (.free _) => .error .notFound
  | .error error => .error error

/-- Write a whole file, in place of the content it had. -/
def write (tree : Tree) (path : Path) (bytes : Bytes) : Except SystemError Tree :=
  match tree.lead .create path path.names with
  | .ok (.entry place (.file _)) => .ok (tree.put place (.file (.ofBytes bytes)))
  | .ok (.entry _ _) => .error .isDirectory
  | .ok (.free place) => .ok (tree.put place (.file (.ofBytes bytes)))
  | .error error => .error error

/-- Add bytes at the end of a file. -/
def append (tree : Tree) (path : Path) (chunk : Bytes) : Except SystemError Tree :=
  match tree.resolve path with
  | .ok (.entry place (.file content)) => .ok (tree.put place (.file (content.append chunk)))
  | .ok (.entry _ _) => .error .isDirectory
  | .ok (.free _) => .error .notFound
  | .error error => .error error

/-- Remove a file or a link; a link is removed itself and not what it leads to. -/
def remove (tree : Tree) (path : Path) : Except SystemError Tree :=
  match tree.locate path with
  | .ok (.entry _ .directory) => .error .isDirectory
  | .ok (.entry place _) => .ok (tree.erase place)
  | .ok (.free _) => .error .notFound
  | .error error => .error error

/-- Move a file or a link to another path, in place of a file or a link there. -/
def rename (tree : Tree) (source target : Path) : Except SystemError Tree :=
  match tree.locate source with
  | .error error => .error error
  | .ok (.free _) => .error .notFound
  | .ok (.entry _ .directory) => .error .isDirectory
  | .ok (.entry old entry) =>
    match tree.locate target with
    | .error error => .error error
    | .ok (.entry _ .directory) => .error .isDirectory
    | .ok (.entry new _) => .ok ((tree.erase old).put new entry)
    | .ok (.free new) => .ok ((tree.erase old).put new entry)

/-- Make one directory. -/
def makeDirectory (tree : Tree) (path : Path) : Except SystemError Tree :=
  match tree.locateName path with
  | .ok (.entry _ _) => .error .alreadyExists
  | .ok (.free place) => .ok (tree.put place .directory)
  | .error error => .error error

/-- Make a directory in one that is there, unless it is there itself. -/
def ensureDirectory (tree : Tree) (path : Path) : Except SystemError Unit × Tree :=
  match tree.makeDirectory path with
  | .ok tree => (.ok (), tree)
  | .error error => if tree.isDirectory path then (.ok (), tree) else (.error error, tree)

/-- Make the first of some directories and, where they are missing, those above it, which follow it
in the list. -/
def makeUpwards (tree : Tree) : List Path → Except SystemError Unit × Tree
  | [] => (.ok (), tree)
  | path :: ancestors =>
    match tree.makeDirectory path with
    | .ok tree => (.ok (), tree)
    | .error .notFound =>
      match makeUpwards tree ancestors with
      | (.ok (), tree) => tree.ensureDirectory path
      | failed => failed
    | .error _ => tree.ensureDirectory path

/-- Make a directory and those above it that are missing. The empty path stands for a directory
that is there. -/
def makeDirectories (tree : Tree) (path : Path) : Except SystemError Unit × Tree :=
  if path.display = "" then (.ok (), tree) else tree.makeUpwards (path :: path.ancestors)

/-- Make a symbolic link. -/
def makeLink (tree : Tree) (path : Path) (target : String) : Except SystemError Tree := do
  checkPath target
  match ← tree.locateName path with
  | .entry _ _ => .error .alreadyExists
  | .free place =>
    if path.names = Path.withoutSlash path.names then return tree.put place (.link target)
    else .error .notFound

/-- The names in a directory. -/
def listDirectory (tree : Tree) (path : Path) : Except SystemError (List String) :=
  match tree.resolve path with
  | .ok (.entry place .directory) => .ok (tree.children place)
  | .ok (.entry _ _) => .error .notDirectory
  | .ok (.free _) => .error .notFound
  | .error error => .error error

end Tree

end ImageGallery.Disk
