import ImageGallery.Config.Reader
import ImageGallery.Error

/-!
# Limits on a configuration

Some settings may not take every value of their type. A configuration is accepted if all its values
are within the limits; otherwise it is refused with a list of all settings that are not.
-/

namespace ImageGallery

/-- What is wrong with the value of a setting. -/
inductive ConfigProblem where
  | below (least : Nat)
  | above (greatest : Nat)
  | shorter (least : Nat)
  /-- The value is none of the given words. -/
  | unlisted (words : List String)
deriving DecidableEq, Inhabited

/-- The wording of a problem. -/
def ConfigProblem.message : ConfigProblem → String
  | below least => s!"lower than {least}"
  | above greatest => s!"greater than {greatest}"
  | shorter least => s!"length is lower than {least}"
  | unlisted words => "does not match pattern /^(" ++ "|".intercalate words ++ ")$/"

/-- A setting that is out of its limits. -/
structure ConfigViolation where
  /-- The keys that lead to the setting, joined by points. -/
  path : String
  problem : ConfigProblem
deriving DecidableEq, Inhabited

/-- Why a configuration was refused. -/
inductive ConfigError where
  /-- The text is no YAML, or no configuration. -/
  | unreadable
  /-- Some settings are out of their limits. -/
  | invalid (violations : List ConfigViolation)
  /-- The file's bytes are no text. -/
  | notText
  /-- The file cannot be read. -/
  | system (error : SystemError)
deriving DecidableEq, Inhabited

namespace Config

/-- The problem of a number that is out of its limits. -/
def checkRange (path : String) (least : Nat) (greatest : Option Nat) (value : Nat) :
    List ConfigViolation :=
  if value < least then [⟨path, .below least⟩]
  else
    match greatest with
    | some greatest => if greatest < value then [⟨path, .above greatest⟩] else []
    | none => []

/-- The problem of a text that is empty. -/
def checkFilled (path value : String) : List ConfigViolation :=
  if value = "" then [⟨path, .shorter 1⟩] else []

/-- The problem of a text that is none of the given words. -/
def checkWord (path : String) (words : List String) (value : String) : List ConfigViolation :=
  if value ∈ words then [] else [⟨path, .unlisted words⟩]

/-- The levels of the log. -/
def levels : List String :=
  ["trace", "debug", "info", "warn", "error"]

/-- The formats of the log. -/
def formats : List String :=
  ["text", "json"]

/-- All settings that are out of their limits, in the order of their paths. -/
def violations (config : Config) : List ConfigViolation :=
  checkRange "gallery.max_files_per_request" 1 none config.gallery.maxFilesPerRequest
    ++ checkRange "gallery.max_images_per_parent" 1 none config.gallery.maxImagesPerParent
    ++ checkFilled "gallery.public_base_url" config.gallery.publicBaseUrl
    ++ checkWord "logging.format" formats config.logging.format
    ++ checkWord "logging.level" levels config.logging.level
    ++ checkFilled "metadata.sqlite.path" config.metadata.databasePath
    ++ checkFilled "server.host" config.server.host
    ++ checkRange "server.max_body_bytes" 1024 none config.server.maxBodyBytes
    ++ checkRange "storage.chunk_size" 1024 (some 16777216) config.storage.chunkSize
    ++ checkFilled "storage.root_dir" config.storage.rootDirectory

/-- A configuration whose values are within the limits. -/
def checked (config : Config) : Except ConfigError Config :=
  match config.violations with
  | [] => .ok config
  | violations => .error (.invalid violations)

/-- The configuration that a text denotes. -/
def parse (text : String) : Except ConfigError Config :=
  match read? text with
  | some config => config.checked
  | none => .error .unreadable

end Config

/-- The wording of a refusal. -/
def ConfigError.message : ConfigError → String
  | unreadable => "malformed configuration"
  | invalid violations =>
    "invalid configuration: " ++ String.join
      (violations.map fun violation => violation.path ++ ": " ++ violation.problem.message ++ "\n")
  | notText => "stream did not contain valid UTF-8"
  | system error => error.message

end ImageGallery
