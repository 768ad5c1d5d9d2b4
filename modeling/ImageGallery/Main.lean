import ImageGallery.Admin.Run
import ImageGallery.Clock
import ImageGallery.Store.Document
import Std.Time.DateTime.Timestamp

/-!
# The command line

Runs the administration tool on the disk. The part of the disk that a request is about is taken
into a directory tree, the request is carried out on the tree, and what changed in the tree is
written back.
-/

namespace ImageGallery.CommandLine

open Disk
open Admin (Command Request)

/-- The place that a path names when no links are followed. -/
def placeOf (tree : Tree) (path : Path) : Place :=
  path.names.foldl
    (fun place name =>
      if name = "" ∨ name = "." then place
      else if name = ".." then place.dropLast
      else place ++ [name])
    (if Path.isAbsolute path.base then [] else tree.current)

/-- The beginnings of a place, the shortest first. -/
def beginnings (place : Place) : List Place :=
  (List.range place.length).map fun count => place.take (count + 1)

/-- The text of a place. -/
def placeText (place : Place) : String :=
  "/" ++ "/".intercalate place

/-- The entries of a tree that differ from those of the tree before. -/
def changes (before tree : Tree) : List (Place × Entry) :=
  (tree.entries.filter fun entry => before.lookup entry.1 ≠ some entry.2).mergeSort
    fun first second => first.1.length ≤ second.1.length

/-- What a file with some bytes holds. -/
def contentOf (bytes : Bytes) : Content :=
  match Database.ofBytes? bytes with
  | some database => .database { database }
  | none => .ofBytes bytes

/-- The bytes of a file on the disk with some content. -/
def bytesOf : Content → Bytes
  | .database file => file.database.toBytes
  | content => content.bytes

/-- What stands on the disk at a place, if anything does. Links count as what they lead to. -/
def look (place : Place) : IO (Option Entry) := do
  try
    let content ← IO.FS.readBinFile (placeText place)
    return some (.file (contentOf content.toList))
  catch
    | .inappropriateType _ 21 _ => return some .directory
    | _ => return none

/-- Take what a path leads to, and the directories above, from the disk into a tree. -/
def take (tree : Tree) (path : Path) : IO Tree :=
  (beginnings (placeOf tree path)).foldlM
    (fun tree place => do
      match ← look place with
      | some entry => return tree.put place entry
      | none => return tree)
    tree

/-- Write an entry to the disk. -/
def store (entry : Place × Entry) : IO Unit :=
  match entry.2 with
  | .directory => IO.FS.createDirAll (placeText entry.1)
  | .file content => IO.FS.writeBinFile (placeText entry.1) (ByteArray.mk (bytesOf content).toArray)
  | .link _ => pure ()

/-- The files that an audit of a database looks for. -/
def auditedPaths (config : Config) (database : Database) : List Path :=
  database.images.map fun image => ⟨config.storage.rootDirectory, Path.split image.storageKey⟩

/-- The paths that a command is about, besides configuration and database. -/
def commandPaths (command : Command) (config : Config) (database : Database) : List Path :=
  match command with
  | .addParent .. => []
  | .exportTo _ target => [⟨target, []⟩]
  | .check =>
    ⟨config.storage.rootDirectory, []⟩ :: ⟨config.storage.rootDirectory, [".tmp"]⟩ ::
      auditedPaths config database

/-- Take the part of the disk that a request is about. -/
def snapshot (request : Request) : IO Tree := do
  let here := toString (← IO.currentDir)
  let tree ← take { current := Path.split here } ⟨here, []⟩
  let tree ← take tree ⟨request.config, []⟩
  match Config.loadOrDefault ⟨request.config, []⟩ tree with
  | .error _ => return tree
  | .ok config =>
    let path := request.databasePath config
    let tree ←
      match Location.ofText path with
      | .ok location =>
        (location.path :: location.model.toList).foldlM (fun tree path => take tree ⟨path, []⟩) tree
      | .error _ => pure tree
    match Connection.openAt path tree with
    | (.error _, _) => return tree
    | (.ok connection, _) =>
      (commandPaths request.command config connection.database).foldlM take tree

/-- The present time as text. -/
def presentTime : IO String := do
  let now ← Std.Time.Timestamp.now
  return Clock.timestamp (1000 * now.toMillisecondsSinceUnixEpoch.toInt.toNat)

/-- Answer the arguments of the command line. -/
def answer (arguments : List String) : IO UInt32 := do
  match Admin.parse arguments with
  | .error .wanted =>
    IO.print Admin.usageText
    return 0
  | .error .needed =>
    IO.eprint Admin.usageText
    return 2
  | .ok request =>
    let before ← snapshot request
    let (outcome, after) := Admin.run request (← presentTime) before
    (changes before after).forM store
    IO.print outcome.output
    IO.eprint outcome.report
    return outcome.code.toUInt32

end ImageGallery.CommandLine

/-- The command line of the administration tool. -/
def main (arguments : List String) : IO UInt32 :=
  ImageGallery.CommandLine.answer arguments
