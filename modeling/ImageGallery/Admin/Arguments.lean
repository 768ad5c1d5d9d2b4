import ImageGallery.Text.Fields

/-!
# Arguments of the administration tool

A command with its options, and two options that may stand in front of the command or after it. An
option takes one value, in the next argument or after an equals sign, and may be given once in each
of the two places; after the command it prevails. A value in an argument of its own must not start
with a dash, unless it is only a dash.
-/

namespace ImageGallery.Admin

/-- What the tool is asked to do. -/
inductive Command where
  /-- Register a parent. -/
  | addParent (id scope : String)
  /-- Export all parents, or one, to a file or, with `-`, to the output. -/
  | exportTo (parent : Option String) (output : String)
  /-- Audit all galleries. -/
  | check
deriving DecidableEq, Inhabited

/-- A command and where it finds the configuration and the database. -/
structure Request where
  /-- The path of the configuration. -/
  config : String := "vitrine.yaml"
  /-- The path of the database, in place of the one in the configuration. -/
  database : Option String := none
  command : Command
deriving DecidableEq, Inhabited

/-- Why arguments are answered with a text about their use. -/
inductive Usage where
  /-- The text was asked for. -/
  | wanted
  /-- The arguments are not understood. -/
  | needed
deriving DecidableEq, Inhabited

/-- Options and their values. -/
abbrev Options := List (String × String)

namespace Options

/-- The value of an option. -/
def find? (options : Options) (name : String) : Option String :=
  (List.find? (fun option => option.1 = name) options).map (·.2)

end Options

/-- Whether an argument may be the value of the option in front of it. -/
def isValue (argument : String) : Bool :=
  argument = "-" || argument.toList.head? ≠ some '-'

/-- The name and the value in an option with an equals sign. -/
def splitOption (option : List Char) : String × Option String :=
  match option.dropWhile (· ≠ '=') with
  | [] => (String.ofList option, none)
  | _ :: value => (String.ofList (Text.beforeFirst '=' option), some (String.ofList value))

/-- Take an option that was read, unless it was there before. The configuration needs a path. -/
def keep (found : Options) (name value : String) : Except Usage Options :=
  if (found.find? name).isSome ∨ (name = "config" ∧ value = "") then .error .needed
  else .ok ((name, value) :: found)

/-- Read options up to the first argument that is none. `pending` is an option that waits for its
value. -/
def readOptions (names : List String) :
    (pending : Option String) → Options → List String → Except Usage (Options × List String)
  | none, found, [] => .ok (found, [])
  | some _, _, [] => .error .needed
  | some name, found, value :: arguments => do
    if isValue value then
      readOptions names none (← keep found name value) arguments
    else throw .needed
  | none, found, argument :: arguments => do
    match argument.toList with
    | ['-', '-'] => if arguments = [] then return (found, []) else throw .needed
    | '-' :: '-' :: option =>
      match splitOption option with
      | ("help", none) => throw .wanted
      | (name, value) =>
        if name ∉ names then
          throw .needed
        match value with
        | some value => readOptions names none (← keep found name value) arguments
        | none => readOptions names (some name) found arguments
    | '-' :: 'h' :: _ => throw .wanted
    | '-' :: _ :: _ => throw .needed
    | _ => return (found, argument :: arguments)

/-- The options that may stand in front of a command and after it. -/
def commonNames : List String :=
  ["config", "db"]

/-- The options of each command. -/
def commandNames : List (String × List String) :=
  [("add-parent", ["id", "scope"]), ("export", ["parent", "output"]), ("check", [])]

/-- The command with a name and options. -/
def commandOf (name : String) (options : Options) : Except Usage Command :=
  match name with
  | "add-parent" =>
    match options.find? "id", options.find? "scope" with
    | some id, some scope => .ok (.addParent id scope)
    | _, _ => .error .needed
  | "export" => .ok (.exportTo (options.find? "parent") ((options.find? "output").getD "-"))
  | "check" => .ok .check
  | _ => .error .needed

/-- Answer a request for help, which may name a command. -/
def helpFor : List String → Usage
  | [] => .wanted
  | [name] => if name = "help" ∨ commandNames.any (·.1 = name) then .wanted else .needed
  | _ => .needed

/-- The request that arguments make. -/
def parse (arguments : List String) : Except Usage Request := do
  let (before, rest) ← readOptions commonNames none [] arguments
  match rest with
  | [] => throw .needed
  | name :: rest =>
    if name = "help" then
      throw (helpFor rest)
    match commandNames.find? (·.1 = name) with
    | none => throw .needed
    | some (_, names) =>
      let (after, rest) ← readOptions (commonNames ++ names) none [] rest
      if rest ≠ [] then
        throw .needed
      let command ← commandOf name after
      let config := (after.find? "config").or (before.find? "config")
      let database := (after.find? "db").or (before.find? "db")
      return { config := config.getD "vitrine.yaml", database, command }

/-- The text about the use of the tool. -/
def usageText : String :=
  "Vitrine gallery administration tool\n\n" ++
  "Usage: vitrine-admin [--config <CONFIG>] [--db <DB>] <COMMAND>\n\n" ++
  "Commands:\n" ++
  "  add-parent --id <ID> --scope <SCOPE>\n" ++
  "      Register a parent so it can receive uploads\n" ++
  "  export [--parent <PARENT>] [--output <FILE>]\n" ++
  "      Export parents and their galleries to JSON\n" ++
  "  check\n" ++
  "      Check every gallery for violations\n" ++
  "  help\n" ++
  "      Print this text\n"

end ImageGallery.Admin
