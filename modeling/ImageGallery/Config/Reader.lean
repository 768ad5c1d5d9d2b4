import ImageGallery.Config
import ImageGallery.Text.Integer
import ImageGallery.Yaml.Reader

/-!
# Reading a configuration

A configuration is a YAML mapping from sections to mappings from settings to values. What it does
not mention keeps its value, keys without a meaning are skipped, and a setting may not be given
twice. Nothing in the place of a section stands for an empty one.
-/

namespace ImageGallery.Config

open Yaml (Document Node)

/-! ## Values -/

/-- The value of digits to a base, if there is at least one and all are digits to that base. -/
def readDigits? (base : Nat) (digits : List Char) : Option Nat := do
  let values ← digits.mapM Text.hexValue?
  if digits ≠ [] ∧ values.all (· < base) then
    return values.foldl (fun value digit => base * value + digit) 0
  else
    none

/-- A number to the base 10 without needless zeros. -/
def readDecimal? : List Char → Option Nat
  | '0' :: _ :: _ => none
  | digits => readDigits? 10 digits

/-- A number as it is written in a configuration: to the base 16, 8 or 2 after `0x`, `0o` or `0b`,
or else to the base 10, and with a plus sign in front or not. -/
def readNumber? (chars : List Char) : Option Nat :=
  match (match chars with
    | '+' :: chars => chars
    | chars => chars) with
  | '0' :: 'x' :: digits => readDigits? 16 digits
  | '0' :: 'o' :: digits => readDigits? 8 digits
  | '0' :: 'b' :: digits => readDigits? 2 digits
  | digits => readDecimal? digits

/-- The text of a node. -/
def textOf? (document : Document) (node : Node) : Option String :=
  (document.scalar? node).map (·.text)

/-- The number of a node, which has to be below the bound. -/
def numberOf? (bound : Nat) (document : Document) (node : Node) : Option Nat := do
  let text ← (← document.scalar? node).textAs? (.ofString "tag:yaml.org,2002:int")
  (readNumber? text.toList).filter (· < bound)

/-- The truth value of a node. -/
def flagOf? (document : Document) (node : Node) : Option Bool := do
  let text ← (← document.scalar? node).textAs? (.ofString "tag:yaml.org,2002:bool")
  match text with
  | "true" | "True" | "TRUE" => some true
  | "false" | "False" | "FALSE" => some false
  | _ => none

/-! ## Mappings -/

/-- A key with a meaning: how its value, a node of a document, changes what was read so far. -/
structure Setting (α : Type) where
  key : String
  read : α → Document → Node → Option α

/-- Read the entries of a mapping. `seen` holds the keys with a meaning that were given already. -/
def readEntries {α : Type} (settings : List (Setting α)) (document : Document) :
    (seen : List String) → α → List (Node × Node) → Option α
  | _, value, [] => some value
  | seen, value, (key, node) :: entries => do
    let key ← textOf? document key
    match settings.find? (·.key = key) with
    | none => readEntries settings document seen value entries
    | some setting =>
      if key ∈ seen then none
      else
        readEntries settings document (key :: seen) (← setting.read value document node) entries

/-- Read a mapping, starting from the given value. -/
def readMapping {α : Type} (settings : List (Setting α)) (start : α) (document : Document)
    (node : Node) : Option α :=
  match document.follow node with
  | .mapping entries => readEntries settings document [] start entries
  | .scalar scalar => if scalar.isEmpty then some start else none
  | _ => none

/-! ## Sections -/

/-- One more than the greatest number of 16 bits. -/
def bound16 : Nat := 65536

/-- One more than the greatest number of 32 bits. -/
def bound32 : Nat := 4294967296

/-- One more than the greatest number of 64 bits. -/
def bound64 : Nat := 18446744073709551616

/-- A setting with a text as its value. -/
def textSetting {α : Type} (key : String) (put : α → String → α) : Setting α :=
  ⟨key, fun value document node => (textOf? document node).map (put value)⟩

/-- A setting with a number below a bound as its value. -/
def numberSetting {α : Type} (key : String) (bound : Nat) (put : α → Nat → α) : Setting α :=
  ⟨key, fun value document node => (numberOf? bound document node).map (put value)⟩

/-- A setting with a truth value. -/
def flagSetting {α : Type} (key : String) (put : α → Bool → α) : Setting α :=
  ⟨key, fun value document node => (flagOf? document node).map (put value)⟩

/-- The settings of the server. -/
def serverSettings : List (Setting ServerConfig) :=
  [ textSetting "host" fun config value => { config with host := value },
    numberSetting "port" bound16 fun config value => { config with port := value },
    numberSetting "shutdown_timeout" bound64 fun config value =>
      { config with shutdownTimeout := value },
    numberSetting "max_body_bytes" bound64 fun config value =>
      { config with maxBodyBytes := value } ]

/-- The settings of the database. -/
def databaseSettings : List (Setting MetadataConfig) :=
  [textSetting "path" fun config value => { config with databasePath := value }]

/-- The settings of the metadata store. -/
def metadataSettings : List (Setting MetadataConfig) :=
  [⟨"sqlite", readMapping databaseSettings⟩]

/-- The settings of the blob store. -/
def storageSettings : List (Setting StorageConfig) :=
  [ textSetting "root_dir" fun config value => { config with rootDirectory := value },
    numberSetting "chunk_size" bound64 fun config value => { config with chunkSize := value } ]

/-- The settings of galleries. -/
def gallerySettings : List (Setting GalleryConfig) :=
  [ numberSetting "max_files_per_request" bound64 fun config value =>
      { config with maxFilesPerRequest := value },
    numberSetting "max_images_per_parent" bound32 fun config value =>
      { config with maxImagesPerParent := value },
    textSetting "public_base_url" fun config value => { config with publicBaseUrl := value } ]

/-- The settings of the log. -/
def loggingSettings : List (Setting LoggingConfig) :=
  [ textSetting "level" fun config value => { config with level := value },
    textSetting "format" fun config value => { config with format := value } ]

/-- The settings of what can be observed. -/
def observabilitySettings : List (Setting ObservabilityConfig) :=
  [flagSetting "metrics" fun config value => { config with metrics := value }]

/-- A section of the configuration. -/
def part {α : Type} (key : String) (settings : List (Setting α)) (start : α)
    (put : Config → α → Config) : Setting Config :=
  ⟨key, fun config document node => (readMapping settings start document node).map (put config)⟩

/-- The sections of a configuration. -/
def sections : List (Setting Config) :=
  [ part "server" serverSettings {} fun config value => { config with server := value },
    part "metadata" metadataSettings {} fun config value => { config with metadata := value },
    part "storage" storageSettings {} fun config value => { config with storage := value },
    part "gallery" gallerySettings {} fun config value => { config with gallery := value },
    part "logging" loggingSettings {} fun config value => { config with logging := value },
    part "observability" observabilitySettings {} fun config value =>
      { config with observability := value } ]

/-- The configuration that a document denotes. -/
def ofDocument? (document : Document) : Option Config :=
  readMapping sections {} document document.root

/-- The configuration that a text denotes, whatever its values. -/
def read? (text : String) : Option Config :=
  (Yaml.parse? text).bind ofDocument?

end ImageGallery.Config
