import ImageGallery.Admin.Arguments
import ImageGallery.Audit
import ImageGallery.Blob.Local
import ImageGallery.Config.File
import ImageGallery.Export
import ImageGallery.Store.File

/-!
# The administration tool

The tool works on a directory tree that holds the configuration, the database and the stored
files. It registers parents, exports galleries and audits them.
-/

namespace ImageGallery.Admin

/-- What a run of the tool leaves behind besides the changes of the tree. -/
structure Outcome where
  code : Nat
  output : String := ""
  /-- What is reported beside the output. -/
  report : String := ""
deriving DecidableEq, Inhabited

namespace Outcome

/-- A run that failed with a message. -/
def failed (message : String) : Outcome :=
  { code := 1, report := message ++ "\n" }

/-- A run that succeeded, with a message beside the output. -/
def done (message : String) : Outcome :=
  { code := 0, report := message ++ "\n" }

end Outcome

/-- Register a parent. A parent that is registered under another scope is a failure. -/
def addParent (connection : Connection) (id scope now : String) : Outcome × Connection :=
  match ParentStore.register connection.database id scope now with
  | (.error error, _) => (.failed ("Error: " ++ error.message), connection)
  | (.ok parent, database) =>
    if !connection.writable then
      (.failed ("Error: " ++ (Failure.store .readOnly).chain), connection)
    else if parent.scopeId = scope then
      (.done s!"Registered parent {parent.id} (scope {parent.scopeId})",
        { connection with database })
    else
      (.failed s!"Parent {parent.id} already exists with scope {parent.scopeId}",
        { connection with database })

/-- Export the parents of a database and their galleries. -/
def exportTo (database : Database) (parent : Option String) (target now : String)
    (tree : Disk.Tree) : Outcome × Disk.Tree :=
  match Export.galleries database (ParentStore.registry database).sorted parent now with
  | .error missing => (.failed ("Error: " ++ Export.refusal missing), tree)
  | .ok document =>
    if target = "-" then ({ code := 0, output := document ++ "\n" }, tree)
    else
      match tree.write ⟨target, []⟩ (Text.encode (document ++ "\n")) with
      | .error error => (.failed ("Error writing output: " ++ error.message), tree)
      | .ok tree => (.done ("Exported to " ++ target), tree)

/-- The line of a violation. -/
def violationLine (violation : Violation) : String :=
  violation.parentId ++ "\t" ++ violation.fault.word ++ "\t" ++ violation.fault.detail ++ "\n"

/-- The outcome of an audit. -/
def auditOutcome (report : AuditReport) : Outcome where
  code := if report.isClean then 0 else 2
  output := String.join (report.violations.map violationLine)
  report :=
    s!"Checked {report.galleries} galleries ({report.images} images): " ++
      s!"{report.violations.length} violations\n"

/-- Audit all galleries of a database against the files under a root. -/
def check (database : Database) (storage : StorageConfig) (tree : Disk.Tree) :
    Outcome × Disk.Tree :=
  match LocalBlobs.prepare storage.rootDirectory tree with
  | (.error failure, tree) => (.failed ("Error opening storage root: " ++ failure.chain), tree)
  | (.ok (), tree) =>
    let blobs : LocalBlobs :=
      { root := storage.rootDirectory, chunkSize := storage.chunkSize, tree
        names := { draws := fun _ => default } }
    (auditOutcome (Audit.report database blobs), tree)

/-- Carry a command out on an open database, and keep what it changes. -/
def perform (command : Command) (connection : Connection) (storage : StorageConfig)
    (now : String) (tree : Disk.Tree) : Outcome × Disk.Tree :=
  match command with
  | .addParent id scope =>
    let (outcome, connection) := addParent connection id scope now
    (outcome, connection.keep tree)
  | .exportTo parent target => exportTo connection.database parent target now tree
  | .check => check connection.database storage tree

/-- The text that says where the database of a request is. -/
def Request.databasePath (request : Request) (config : Config) : String :=
  request.database.getD config.metadata.databasePath

/-- Carry a request out. -/
def run (request : Request) (now : String) (tree : Disk.Tree) : Outcome × Disk.Tree :=
  match Config.loadOrDefault ⟨request.config, []⟩ tree with
  | .error error => (.failed ("Error reading config: " ++ error.message), tree)
  | .ok config =>
    let path := request.databasePath config
    match Connection.openAt path tree with
    | (.error error, tree) =>
      (.failed (s!"Error opening database {path}: " ++ (Failure.store error).chain), tree)
    | (.ok connection, tree) => perform request.command connection config.storage now tree

end ImageGallery.Admin
