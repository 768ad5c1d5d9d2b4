import ImageGallery.Config.Limits
import Mathlib.Logic.Basic
import Mathlib.Tactic.ByContra

/-!
# Fields of a configuration

The settings of a configuration one by one: the keys that lead to each, which values it takes, and
which of these it allows. A configuration is what its fields are, and is refused for the fields that
have a value which they do not allow.
-/

namespace ImageGallery.Config

/-! ## Values -/

/-- A value of a field. -/
inductive Value where
  | text (text : String)
  | number (number : Nat)
  | flag (flag : Bool)
deriving DecidableEq

/-- A type of values. Numbers are below a bound. -/
inductive Kind where
  | text
  | number (bound : Nat)
  | flag
deriving DecidableEq

/-- Whether a value is of a type. -/
def Value.Suits : Kind → Value → Prop
  | .text, .text _ => True
  | .number bound, .number count => count < bound
  | .flag, .flag _ => True
  | _, _ => False

/-! ## Fields -/

/-- A field of a configuration. -/
inductive Field where
  | host
  | port
  | shutdownTimeout
  | maxBodyBytes
  | databasePath
  | rootDirectory
  | chunkSize
  | maxFilesPerRequest
  | maxImagesPerParent
  | publicBaseUrl
  | level
  | format
  | metrics
deriving DecidableEq

namespace Field

/-- The keys that lead to a field. -/
def path : Field → List String
  | host => ["server", "host"]
  | port => ["server", "port"]
  | shutdownTimeout => ["server", "shutdown_timeout"]
  | maxBodyBytes => ["server", "max_body_bytes"]
  | databasePath => ["metadata", "sqlite", "path"]
  | rootDirectory => ["storage", "root_dir"]
  | chunkSize => ["storage", "chunk_size"]
  | maxFilesPerRequest => ["gallery", "max_files_per_request"]
  | maxImagesPerParent => ["gallery", "max_images_per_parent"]
  | publicBaseUrl => ["gallery", "public_base_url"]
  | level => ["logging", "level"]
  | format => ["logging", "format"]
  | metrics => ["observability", "metrics"]

/-- The type of a field: 16, 32 and 64 bits for numbers. -/
def kind : Field → Kind
  | host | databasePath | rootDirectory | publicBaseUrl | level | format => .text
  | port => .number UInt16.size
  | maxImagesPerParent => .number UInt32.size
  | shutdownTimeout | maxBodyBytes | chunkSize | maxFilesPerRequest => .number UInt64.size
  | metrics => .flag

/-- Whether a field may have a value. -/
def Allows : Field → Value → Prop
  | host, .text text | databasePath, .text text | rootDirectory, .text text
  | publicBaseUrl, .text text => text ≠ ""
  | maxBodyBytes, .number number => 1024 ≤ number
  | chunkSize, .number number => 1024 ≤ number ∧ number ≤ 16777216
  | maxFilesPerRequest, .number number | maxImagesPerParent, .number number => 1 ≤ number
  | level, .text text => text ∈ ["trace", "debug", "info", "warn", "error"]
  | format, .text text => text ∈ ["text", "json"]
  | _, _ => True

/-- The name of a field in a report. -/
def name (field : Field) : String :=
  ".".intercalate field.path

end Field

/-- The value of a field in a configuration. -/
def get (config : Config) : Field → Value
  | .host => .text config.server.host
  | .port => .number config.server.port
  | .shutdownTimeout => .number config.server.shutdownTimeout
  | .maxBodyBytes => .number config.server.maxBodyBytes
  | .databasePath => .text config.metadata.databasePath
  | .rootDirectory => .text config.storage.rootDirectory
  | .chunkSize => .number config.storage.chunkSize
  | .maxFilesPerRequest => .number config.gallery.maxFilesPerRequest
  | .maxImagesPerParent => .number config.gallery.maxImagesPerParent
  | .publicBaseUrl => .text config.gallery.publicBaseUrl
  | .level => .text config.logging.level
  | .format => .text config.logging.format
  | .metrics => .flag config.observability.metrics

/-- Give a field a value of its type. -/
def put (config : Config) : Field → Value → Config
  | .host, .text host => { config with server.host := host }
  | .port, .number port => { config with server.port := port }
  | .shutdownTimeout, .number seconds => { config with server.shutdownTimeout := seconds }
  | .maxBodyBytes, .number bytes => { config with server.maxBodyBytes := bytes }
  | .databasePath, .text path => { config with metadata.databasePath := path }
  | .rootDirectory, .text path => { config with storage.rootDirectory := path }
  | .chunkSize, .number bytes => { config with storage.chunkSize := bytes }
  | .maxFilesPerRequest, .number count => { config with gallery.maxFilesPerRequest := count }
  | .maxImagesPerParent, .number count => { config with gallery.maxImagesPerParent := count }
  | .publicBaseUrl, .text url => { config with gallery.publicBaseUrl := url }
  | .level, .text level => { config with logging.level := level }
  | .format, .text format => { config with logging.format := format }
  | .metrics, .flag metrics => { config with observability.metrics := metrics }
  | _, _ => config

variable {config other : Config} {field another : Field} {value : Value}

theorem get_put_self (suits : value.Suits field.kind) :
    (config.put field value).get field = value := by
  cases field <;> cases value <;> first | rfl | exact suits.elim

theorem get_put_of_ne (ne : another ≠ field) :
    (config.put field value).get another = config.get another := by
  cases field <;> cases value <;> first
    | rfl
    | (cases another <;> first | rfl | exact (ne rfl).elim)

theorem ext_get (same : ∀ field, config.get field = other.get field) : config = other := by
  obtain ⟨⟨_, _, _, _⟩, ⟨_⟩, ⟨_, _⟩, ⟨_, _, _⟩, ⟨_, _⟩, ⟨_⟩⟩ := config
  obtain ⟨⟨_, _, _, _⟩, ⟨_⟩, ⟨_, _⟩, ⟨_, _, _⟩, ⟨_, _⟩, ⟨_⟩⟩ := other
  cases same .host
  cases same .port
  cases same .shutdownTimeout
  cases same .maxBodyBytes
  cases same .databasePath
  cases same .rootDirectory
  cases same .chunkSize
  cases same .maxFilesPerRequest
  cases same .maxImagesPerParent
  cases same .publicBaseUrl
  cases same .level
  cases same .format
  cases same .metrics
  rfl

/-! ## Violations -/

namespace Field

instance (field : Field) (value : Value) : Decidable (field.Allows value) := by
  unfold Allows
  split <;> infer_instance

/-- The fields that do not allow every value, in the order of their names. -/
def limited : List Field :=
  [maxFilesPerRequest, maxImagesPerParent, publicBaseUrl, format, level, databasePath, host,
    maxBodyBytes, chunkSize, rootDirectory]

theorem allows_of_not_mem_limited (unlimited : field ∉ limited) : field.Allows value := by
  cases field <;> first | exact True.intro | exact (unlimited (by decide)).elim

theorem nodup_map_name_limited : (limited.map name).Nodup := by
  decide

/-- Every default is allowed. -/
theorem allows_default (field : Field) : field.Allows (({} : Config).get field) := by
  cases field <;> decide

end Field

theorem map_path_checkRange (path : String) (least count : Nat) (greatest : Option Nat) :
    (checkRange path least greatest count).map (·.path) =
      if least ≤ count ∧ greatest.all (count ≤ ·) then [] else [path] := by
  unfold checkRange
  by_cases low : count < least
  · rw [if_pos low, if_neg fun within => Nat.not_le_of_lt low within.1]
    rfl
  · cases greatest with
    | none => simp [Nat.le_of_not_lt low]
    | some greatest =>
        by_cases high : greatest < count
        · simp [low, high]
        · simp [Nat.le_of_not_lt low, high, Nat.le_of_not_lt high]

theorem map_path_checkFilled (path text : String) :
    (checkFilled path text).map (·.path) = if text ≠ "" then [] else [path] := by
  unfold checkFilled
  by_cases filled : text = "" <;> simp [filled]

theorem map_path_checkWord (path text : String) (words : List String) :
    (checkWord path words text).map (·.path) = if text ∈ words then [] else [path] := by
  unfold checkWord
  by_cases listed : text ∈ words <;> simp [listed]

/-- A report names the fields that have a value which they do not allow. -/
theorem map_path_violations (config : Config) :
    config.violations.map (·.path) =
      (Field.limited.filter fun field => ¬field.Allows (config.get field)).map Field.name := by
  have each (field : Field) (fields : List Field) :
      ((field :: fields).filter fun field => ¬field.Allows (config.get field)).map Field.name =
        (if field.Allows (config.get field) then [] else [field.name]) ++
          (fields.filter fun field => ¬field.Allows (config.get field)).map Field.name := by
    by_cases allowed : field.Allows (config.get field) <;> simp [allowed]
  rw [violations]
  simp only [List.map_append, map_path_checkRange, map_path_checkFilled, map_path_checkWord,
    Field.limited, each, List.filter_nil, List.map_nil, List.append_nil, List.append_assoc,
    Option.all_none, Option.all_some, and_true, decide_eq_true_eq]
  iterate 9 refine congrArg₂ (· ++ ·) (if_congr Iff.rfl rfl rfl) ?_
  exact if_congr Iff.rfl rfl rfl

/-- A report names the fields that have a value which they do not allow, each once. -/
theorem violations_exact (config : Config) :
    (config.violations.map (·.path)).Nodup ∧
      ∀ path, path ∈ config.violations.map (·.path) ↔
        ∃ field : Field, ¬field.Allows (config.get field) ∧ field.name = path := by
  rw [map_path_violations]
  refine ⟨(List.filter_sublist.map _).nodup Field.nodup_map_name_limited, fun path => ?_⟩
  simp only [List.mem_map, List.mem_filter, decide_eq_true_eq]
  refine ⟨fun ⟨field, among, named⟩ => ⟨field, among.2, named⟩, fun ⟨field, refused, named⟩ => ?_⟩
  refine ⟨field, ⟨?_, refused⟩, named⟩
  by_contra unlimited
  exact refused (Field.allows_of_not_mem_limited unlimited)

/-- A configuration is accepted if all its fields allow their values. -/
theorem checked_of_allowed (allowed : ∀ field : Field, field.Allows (config.get field)) :
    config.checked = .ok config := by
  have none_refused : config.violations = [] := by
    rw [← List.map_eq_nil_iff (f := (·.path)), map_path_violations,
      List.filter_eq_nil_iff.mpr fun field _ => by simpa using allowed field]
    rfl
  rw [checked, none_refused]

theorem checked_of_refused (refused : ¬field.Allows (config.get field)) :
    config.checked = .error (.invalid config.violations) := by
  have named := ((violations_exact config).2 field.name).mpr ⟨field, refused, rfl⟩
  unfold checked
  split
  · next none_refused =>
      rw [none_refused] at named
      cases named
  · rfl

end ImageGallery.Config
