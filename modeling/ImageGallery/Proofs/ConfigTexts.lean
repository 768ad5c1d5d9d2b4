import ImageGallery.Proofs.ConfigWriting

/-!
# Texts of configurations

A text that gives fields their values is parsed as the configuration where these fields have these
values and the others their defaults, or refused with a report of all the fields whose values are
not allowed.
-/

namespace ImageGallery.Config

open Yaml (Block Content Key Page Spelling)

/-- A text is parsed as what it assigns. -/
structure ParsedExactly (text : String) (assigned : Field → Option Value) : Prop where
  /-- If all values are allowed then the fields have these values, and the others their defaults. -/
  accepted : (∀ field value, assigned field = some value → field.Allows value) →
    ∃ config, parse text = .ok config ∧
      ∀ field, config.get field = (assigned field).getD (({} : Config).get field)
  /-- If not then the report names the fields whose values are not allowed, each once. -/
  refused : (∃ field value, assigned field = some value ∧ ¬Field.Allows field value) →
    ∃ violations, parse text = .error (.invalid violations) ∧
      (violations.map (·.path)).Nodup ∧
      ∀ name, name ∈ violations.map (·.path) ↔
        ∃ field value, assigned field = some value ∧ ¬Field.Allows field value ∧
          field.name = name

section

variable {given : List (Field × Value)} {path seen : List String}
  {entries : List (Yaml.Node × Yaml.Node)} {field : Field} {value : Value}

theorem Assigns.suits (assigns : Assigns path seen entries given)
    (among : (field, value) ∈ given) : value.Suits field.kind := by
  induction assigns with
  | nil => cases among
  | unknown unknown others ih => exact ih among
  | field path_eq unseen suits spelled others ih =>
      obtain same | among := List.mem_cons.mp among
      · obtain ⟨rfl, rfl⟩ := Prod.mk.inj same
        exact suits
      · exact ih among
  | blank isSection unseen others ih => exact ih among
  | nested isSection unseen within others ih_within ih_others =>
      exact (List.mem_append.mp among).elim ih_within ih_others

theorem mem_of_lookup (found : given.lookup field = some value) : (field, value) ∈ given := by
  induction given with
  | nil => cases found
  | cons assigned given ih =>
      rw [List.lookup_cons] at found
      split at found
      · next same =>
          cases found
          rw [eq_of_beq same]
          exact List.mem_cons_self
      · exact List.mem_cons_of_mem _ (ih found)

theorem Means.suits {node : Yaml.Node} (means : Means path node given)
    (among : (field, value) ∈ given) : value.Suits field.kind := by
  cases means with
  | blank => cases among
  | mapping assigns => exact assigns.suits among

/-- Fields are given values of their types. -/
theorem Writes.suits {text : String} {assigned : Field → Option Value}
    (writes : Writes text assigned) (field : Field) (value : Value)
    (value_eq : assigned field = some value) : value.Suits field.kind := by
  obtain ⟨-, page, -, -, given, means, assigned_eq⟩ := writes
  rw [assigned_eq] at value_eq
  exact means.suits (mem_of_lookup value_eq)

theorem not_mem_of_lookup (missing : given.lookup field = none) : field ∉ given.map (·.1) := by
  rw [List.lookup_eq_none_iff] at missing
  rintro among
  obtain ⟨assigned, member, rfl⟩ := List.mem_map.mp among
  simpa using missing assigned member

/-- Fields that are assigned have what they are assigned, and others keep their defaults. -/
theorem get_putAll_of_means {node : Yaml.Node} (means : Means [] node given) (field : Field) :
    (({} : Config).putAll given).get field =
      (given.lookup field).getD (({} : Config).get field) := by
  cases means with
  | blank => rfl
  | mapping assigns =>
      cases found : given.lookup field with
      | none => exact get_putAll_of_not_mem (not_mem_of_lookup found)
      | some value =>
          have among := mem_of_lookup found
          exact get_putAll_of_mem assigns.nodup among (assigns.suits among)

end

/-- A configuration is checked by the values that are not its defaults. -/
theorem checked_exactly {config : Config} {assigned : Field → Option Value}
    (same : ∀ field, config.get field = (assigned field).getD (({} : Config).get field)) :
    ((∀ field value, assigned field = some value → field.Allows value) →
        config.checked = .ok config) ∧
      ((∃ field value, assigned field = some value ∧ ¬Field.Allows field value) →
        config.checked = .error (.invalid config.violations)) ∧
      ∀ field : Field, ¬field.Allows (config.get field) ↔
        ∃ value, assigned field = some value ∧ ¬field.Allows value := by
  have refused_iff (field : Field) : ¬field.Allows (config.get field) ↔
      ∃ value, assigned field = some value ∧ ¬field.Allows value := by
    rw [same]
    cases given : assigned field with
    | none => simpa using Field.allows_default field
    | some value => simp
  refine ⟨fun allowed => checked_of_allowed fun field => ?_, ?_, refused_iff⟩
  · by_contra refused
    obtain ⟨value, given, not_allowed⟩ := (refused_iff field).mp refused
    exact not_allowed (allowed field value given)
  · rintro ⟨field, value, given, not_allowed⟩
    exact checked_of_refused ((refused_iff field).mpr ⟨value, given, not_allowed⟩)

/-- Whatever values fields have, a text can give them these values, and each text that does is
parsed as what it says. -/
theorem parsedExactly_of_suits {assigned : Field → Option Value}
    (suits : ∀ field value, assigned field = some value → value.Suits field.kind) :
    (∃ text, Writes text assigned) ∧
      ∀ text, Writes text assigned → ParsedExactly text assigned := by
  refine ⟨exists_writes suits, ?_⟩
  rintro text ⟨allowed, page, written, proper, given, means, assigned_eq⟩
  have read : read? text = some (({} : Config).putAll given) := by
    rw [read?, Yaml.parse?_page allowed written proper, Option.bind_some]
    exact ofDocument?_of_means means
  have same (field : Field) : (({} : Config).putAll given).get field =
      (assigned field).getD (({} : Config).get field) := by
    rw [get_putAll_of_means means, assigned_eq]
  have parse_eq : parse text = (({} : Config).putAll given).checked := by
    rw [parse, read]
  obtain ⟨accepts, refuses, refused_iff⟩ := checked_exactly same
  obtain ⟨once, named⟩ := violations_exact (({} : Config).putAll given)
  constructor
  · intro all
    exact ⟨_, by rw [parse_eq, accepts all], same⟩
  · intro some_refused
    refine ⟨_, by rw [parse_eq, refuses some_refused], once, fun name => ?_⟩
    rw [named]
    constructor
    · rintro ⟨field, not_allowed, name_eq⟩
      obtain ⟨value, given, not_allowed⟩ := (refused_iff field).mp not_allowed
      exact ⟨field, value, given, not_allowed, name_eq⟩
    · rintro ⟨field, value, given, not_allowed, name_eq⟩
      exact ⟨field, (refused_iff field).mpr ⟨value, given, not_allowed⟩, name_eq⟩

/-- A configuration with a comment, an empty section and a key that means nothing. -/
def partialSections : String :=
  "# Gallery
server:
  port: 8080   # as before
logging:
gallery:
  max_images_per_parent: 12
  theme: 'dark'
  public_base_url: \"https://cdn.example.com/g\"
metadata:
  sqlite:
    path: \":memory:\"
"

/-- A text in double quotes that needs no escapes. -/
def quoted (text : String) : Content :=
  .scalar [' '] (.double (text.toList.map fun char => ([char], char)))

/-- How the configuration is written. -/
def partialPage : Page :=
  .block "# Gallery\n".toList 0
    (.nested (plainKey "server") "\n  ".toList 2
      (.entry (plainKey "port") (.scalar [' '] (.plain "8080".toList []))
        "   # as before\n".toList .nil)
      (.entry (plainKey "logging") .nothing "\n".toList
        (.nested (plainKey "gallery") "\n  ".toList 2
          (.entry (plainKey "max_images_per_parent") (.scalar [' '] (.plain "12".toList []))
            "\n  ".toList
            (.entry (plainKey "theme") (.scalar [' '] (.single "dark".toList)) "\n  ".toList
              (.entry (plainKey "public_base_url") (quoted "https://cdn.example.com/g")
                "\n".toList .nil)))
          (.nested (plainKey "metadata") "\n  ".toList 2
            (.nested (plainKey "sqlite") "\n    ".toList 4
              (.entry (plainKey "path") (quoted ":memory:") "\n".toList .nil) .nil)
            .nil))))

/-- The values that it gives. -/
def partialValues : List (Field × Value) :=
  [(.port, .number 8080), (.maxImagesPerParent, .number 12),
    (.publicBaseUrl, .text "https://cdn.example.com/g"), (.databasePath, .text ":memory:")]

theorem means_partialSections : Means [] partialPage.root partialValues := by
  have root_eq : partialPage.root = .mapping
      [(.scalar { text := "server" }, .mapping
          [(.scalar { text := "port" }, .scalar { text := "8080" })]),
        (.scalar { text := "logging" }, .empty),
        (.scalar { text := "gallery" }, .mapping
          [(.scalar { text := "max_images_per_parent" }, .scalar { text := "12" }),
            (.scalar { text := "theme" }, .scalar { style := .quoted, text := "dark" }),
            (.scalar { text := "public_base_url" },
              .scalar { style := .quoted, text := "https://cdn.example.com/g" })]),
        (.scalar { text := "metadata" }, .mapping
          [(.scalar { text := "sqlite" }, .mapping
            [(.scalar { text := "path" },
              .scalar { style := .quoted, text := ":memory:" })])])] := rfl
  have server : Assigns ["server"] [] [(.scalar { text := "port" }, .scalar { text := "8080" })]
      [(.port, .number 8080)] :=
    .field rfl nofun (show 8080 < UInt16.size by decide) (.number .decimal (.inl (by decide))) .nil
  have unknown (field : Field) : ¬["gallery", "theme"] <+: field.path := by
    cases field <;> decide
  have gallery : Assigns ["gallery"] []
      [(.scalar { text := "max_images_per_parent" }, .scalar { text := "12" }),
        (.scalar { text := "theme" }, .scalar { style := .quoted, text := "dark" }),
        (.scalar { text := "public_base_url" },
          .scalar { style := .quoted, text := "https://cdn.example.com/g" })]
      [(.maxImagesPerParent, .number 12), (.publicBaseUrl, .text "https://cdn.example.com/g")] :=
    .field rfl nofun (show 12 < UInt32.size by decide) (.number .decimal (.inl (by decide)))
      (.unknown unknown (.field rfl (by decide) trivial (.text nofun) .nil))
  have database : Assigns ["metadata", "sqlite"] []
      [(.scalar { text := "path" }, .scalar { style := .quoted, text := ":memory:" })]
      [(.databasePath, .text ":memory:")] :=
    .field rfl nofun trivial (.text nofun) .nil
  have values_eq : partialValues =
      [(.port, .number 8080)] ++ ([(.maxImagesPerParent, .number 12),
        (.publicBaseUrl, .text "https://cdn.example.com/g")] ++
          ([(.databasePath, .text ":memory:")] ++ [] ++ [])) := rfl
  rw [root_eq, values_eq]
  refine .mapping (.nested ⟨.port, ⟨_, rfl⟩, ?_⟩ ?_ server (.blank ⟨.level, ⟨_, rfl⟩, ?_⟩ ?_
    (.nested ⟨.publicBaseUrl, ⟨_, rfl⟩, ?_⟩ ?_ gallery (.nested ⟨.databasePath, ⟨_, rfl⟩, ?_⟩ ?_
      (.nested ⟨.databasePath, ⟨_, rfl⟩, ?_⟩ ?_ database .nil) .nil))))
  all_goals decide

theorem parsedExactly_partialSections :
    ParsedExactly partialSections fun field => partialValues.lookup field := by
  have text_eq : partialSections = String.ofList partialPage.text := by cbv
  have allowed : partialSections.toList.all Yaml.isAllowed = true := by
    rw [text_eq, String.toList_ofList]
    decide +kernel
  have written : Yaml.unifyBreaks partialSections.toList = partialPage.text := by
    rw [text_eq, String.toList_ofList]
    decide +kernel
  have proper : partialPage.isProper = true := by decide +kernel
  have writes : Writes partialSections fun field => partialValues.lookup field :=
    ⟨allowed, partialPage, written, proper, partialValues, means_partialSections, fun _ => rfl⟩
  exact (parsedExactly_of_suits writes.suits).2 partialSections writes

end ImageGallery.Config
