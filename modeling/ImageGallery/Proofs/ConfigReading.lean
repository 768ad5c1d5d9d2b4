import ImageGallery.Config.Reader
import ImageGallery.Proofs.ConfigFields
import ImageGallery.Proofs.JsonText
import ImageGallery.Proofs.YamlDocuments

/-!
# Reading configurations

What a YAML mapping assigns to the fields of a configuration: sections and fields stand in any
order, some may be missing, a section may be empty, and keys that mean nothing may stand anywhere.
Such a mapping is read as the defaults with the fields put to what it assigns, whether a section is
missing or only some of its fields.
-/

namespace ImageGallery.Config

open Yaml (Document Node Style)

/-! ## Values as they are written -/

/-- A base that numbers are written to. -/
inductive Radix where
  | decimal
  | hexadecimal
  | octal
  | binary
deriving DecidableEq

namespace Radix

def base : Radix → Nat
  | decimal => 10
  | hexadecimal => 16
  | octal => 8
  | binary => 2

/-- What stands in front of the digits. -/
def mark : Radix → List Char
  | decimal => []
  | hexadecimal => ['0', 'x']
  | octal => ['0', 'o']
  | binary => ['0', 'b']

/-- A number as it is written to a base. -/
def numeral (radix : Radix) (number : Nat) : List Char :=
  radix.mark ++ Nat.toDigits radix.base number

end Radix

/-- How a value is written: a text in any style, a number plainly and with a plus sign or not, and a
truth value plainly in one of three cases. -/
inductive Spells : Value → Node → Prop where
  | text {style : Style} {text : String} (written : style = .plain → text ≠ "") :
      Spells (.text text) (.scalar { style, text })
  | number {number : Nat} {text : String} (radix : Radix)
      (written : text.toList = radix.numeral number ∨
        text.toList = '+' :: radix.numeral number) :
      Spells (.number number) (.scalar { text })
  | yes {text : String} (written : text ∈ ["true", "True", "TRUE"]) :
      Spells (.flag true) (.scalar { text })
  | no {text : String} (written : text ∈ ["false", "False", "FALSE"]) :
      Spells (.flag false) (.scalar { text })

section Values

variable {value : Value} {node : Node} {document : Document}

theorem textOf?_of_spells {text : String} (spelled : Spells (.text text) node) :
    textOf? document node = some text := by
  cases spelled
  rfl

theorem flagOf?_of_spells {flag : Bool} (spelled : Spells (.flag flag) node) :
    flagOf? document node = some flag := by
  cases spelled with
  | yes written | no written =>
      simp only [List.mem_cons, List.not_mem_nil, or_false] at written
      obtain rfl | rfl | rfl := written <;> rfl

theorem hexValue?_digitChar {digit : Nat} (small : digit < 16) :
    Text.hexValue? digit.digitChar = some digit := by
  revert small
  revert digit
  decide

theorem mapM_toDigits {base : Nat} (large : 1 < base) (small : base ≤ 16) (number : Nat) :
    ∃ values, (Nat.toDigits base number).mapM Text.hexValue? = some values ∧
      (∀ value ∈ values, value < base) ∧
      values.foldl (fun value digit => base * value + digit) 0 = number := by
  induction number using Nat.strong_induction_on with
  | _ number ih =>
      rw [Nat.toDigits_eq_if large]
      split
      · next single =>
          refine ⟨[number], ?_, by simpa using single, by simp⟩
          simp [hexValue?_digitChar (Nat.lt_of_lt_of_le single small)]
      · next several =>
          obtain ⟨values, read, bounded, total⟩ := ih (number / base)
            (Nat.div_lt_self (by omega) large)
          have last : number % base < base := Nat.mod_lt _ (by omega)
          refine ⟨values ++ [number % base], ?_, ?_, ?_⟩
          · rw [List.mapM_append, read]
            simp [hexValue?_digitChar (Nat.lt_of_lt_of_le last small)]
          · simp only [List.forall_mem_append, List.forall_mem_singleton]
            exact ⟨bounded, last⟩
          · rw [List.foldl_append, total, List.foldl_cons, List.foldl_nil]
            exact Nat.div_add_mod number base

theorem readDigits?_toDigits {base : Nat} (large : 1 < base) (small : base ≤ 16) (number : Nat) :
    readDigits? base (Nat.toDigits base number) = some number := by
  obtain ⟨values, read, bounded, total⟩ := mapM_toDigits large small number
  unfold readDigits?
  rw [read]
  simp [Nat.toDigits_ne_nil, total]
  exact bounded

theorem readNumber?_decimal (number : Nat) :
    readNumber? (Nat.toDigits 10 number) = some number ∧
      readNumber? ('+' :: Nat.toDigits 10 number) = some number := by
  have read : readDigits? 10 (Nat.toDigits 10 number) = some number :=
    readDigits?_toDigits (by decide) (by decide) number
  have unpadded := Json.naturalText_ne_padded number
  have digits (char : Char) (among : char ∈ Nat.toDigits 10 number) : char.isDigit = true :=
    Text.isDigit_of_mem_naturalText among
  unfold Text.naturalText at unpadded
  match shape : Nat.toDigits 10 number with
  | [] => exact absurd shape Nat.toDigits_ne_nil
  | digit :: rest =>
      by_cases zero : digit = '0'
      · subst zero
        cases rest with
        | nil =>
            rw [shape] at read
            exact ⟨read, read⟩
        | cons next rest => exact absurd shape (unpadded next rest)
      · have sign : digit ≠ '+' := by
          rintro rfl
          have digit := digits '+' (by rw [shape]; exact List.mem_cons_self)
          cases digit
        rw [shape] at read
        have decimal : readDecimal? (digit :: rest) = some number := by
          unfold readDecimal?
          split
          · next same =>
              cases same
              exact absurd rfl zero
          · exact read
        unfold readNumber?
        simp [sign, zero, decimal]

/-- Every number is read as it is written, to each base. -/
theorem readNumber?_numeral (radix : Radix) (number : Nat) :
    readNumber? (radix.numeral number) = some number ∧
      readNumber? ('+' :: radix.numeral number) = some number := by
  cases radix with
  | decimal => exact readNumber?_decimal number
  | hexadecimal | octal | binary =>
      exact ⟨readDigits?_toDigits (by decide) (by decide) number,
        readDigits?_toDigits (by decide) (by decide) number⟩

theorem numberOf?_of_spells {number bound : Nat} (spelled : Spells (.number number) node)
    (small : number < bound) : numberOf? bound document node = some number := by
  cases spelled with
  | @number _ text radix written =>
      have read : readNumber? text.toList = some number := by
        obtain unsigned | signed := written
        · rw [unsigned]
          exact (readNumber?_numeral radix number).1
        · rw [signed]
          exact (readNumber?_numeral radix number).2
      change (readNumber? text.toList).filter _ = _
      rw [read]
      simpa using small

end Values

/-! ## Configurations as they are written -/

/-- Give fields their values, one after the other. -/
def putAll (config : Config) (given : List (Field × Value)) : Config :=
  given.foldl (fun config assigned => config.put assigned.1 assigned.2) config

/-- Whether keys lead to a section, and not to a field. -/
def IsSection (path : List String) : Prop :=
  ∃ field : Field, path <+: field.path ∧ path ≠ field.path

/-- What is written in a mapping: which fields get which values. The keys in `path` lead to the
mapping. Fields and sections stand in any order, each at most once, and those in `seen` no more.
Other keys may have any value. -/
inductive Assigns : (path seen : List String) → List (Node × Node) → List (Field × Value) → Prop
  where
  | nil {path seen : List String} : Assigns path seen [] []
  | unknown {path seen : List String} {style : Style} {key : String} {node : Node}
      {entries : List (Node × Node)} {given : List (Field × Value)}
      (unknown : ∀ field : Field, ¬path ++ [key] <+: field.path)
      (others : Assigns path seen entries given) :
      Assigns path seen ((.scalar { style, text := key }, node) :: entries) given
  | field {path seen : List String} {style : Style} {key : String} {node : Node} {field : Field}
      {value : Value} {entries : List (Node × Node)} {given : List (Field × Value)}
      (path_eq : field.path = path ++ [key]) (unseen : key ∉ seen)
      (suits : value.Suits field.kind) (spelled : Spells value node)
      (others : Assigns path (key :: seen) entries given) :
      Assigns path seen ((.scalar { style, text := key }, node) :: entries)
        ((field, value) :: given)
  /-- A section where nothing is written. -/
  | blank {path seen : List String} {style : Style} {key : String}
      {entries : List (Node × Node)} {given : List (Field × Value)}
      (isSection : IsSection (path ++ [key])) (unseen : key ∉ seen)
      (others : Assigns path (key :: seen) entries given) :
      Assigns path seen ((.scalar { style, text := key }, .empty) :: entries) given
  | nested {path seen : List String} {style : Style} {key : String}
      {inside entries : List (Node × Node)} {inner given : List (Field × Value)}
      (isSection : IsSection (path ++ [key])) (unseen : key ∉ seen)
      (within : Assigns (path ++ [key]) [] inside inner)
      (others : Assigns path (key :: seen) entries given) :
      Assigns path seen ((.scalar { style, text := key }, .mapping inside) :: entries)
        (inner ++ given)

/-- What a node assigns where a mapping may stand. -/
inductive Means (path : List String) : Node → List (Field × Value) → Prop where
  | blank : Means path .empty []
  | mapping {entries : List (Node × Node)} {given : List (Field × Value)}
      (assigns : Assigns path [] entries given) : Means path (.mapping entries) given

/-- A text is a mapping in block style that gives fields their values. -/
def Writes (text : String) (assigned : Field → Option Value) : Prop :=
  text.toList.all Yaml.isAllowed = true ∧
    ∃ page : Yaml.Page, Yaml.unifyBreaks text.toList = page.text ∧ page.isProper = true ∧
      ∃ given, Means [] page.root given ∧ ∀ field, assigned field = given.lookup field

section Assignments

variable {path seen : List String} {key : String} {entries : List (Node × Node)}
  {given inner : List (Field × Value)} {config : Config} {field another : Field} {value : Value}

/-- No field lies inside another. -/
theorem Field.eq_of_inside (inside : field.path <+: another.path) : field = another := by
  revert inside
  cases field <;> cases another <;> first | exact fun _ => rfl | decide

theorem not_isSection_path : ¬IsSection field.path := fun ⟨_, inside, ne⟩ =>
  ne (congrArg Field.path (Field.eq_of_inside inside))

/-- A mapping assigns fields that lie in it, behind keys that were not seen before. -/
theorem Assigns.exists_key (assigns : Assigns path seen entries given)
    (among : field ∈ given.map (·.1)) : ∃ key, key ∉ seen ∧ path ++ [key] <+: field.path := by
  induction assigns with
  | nil => cases among
  | unknown unknown others ih => exact ih among
  | @field path seen style key node own value entries given path_eq unseen suits spelled others
      ih =>
      rw [List.map_cons, List.mem_cons] at among
      obtain rfl | among := among
      · exact ⟨key, unseen, path_eq ▸ List.prefix_refl _⟩
      · obtain ⟨other, unseen, inside⟩ := ih among
        exact ⟨other, fun member => unseen (.tail _ member), inside⟩
  | blank isSection unseen others ih =>
      obtain ⟨other, unseen, inside⟩ := ih among
      exact ⟨other, fun member => unseen (.tail _ member), inside⟩
  | @nested path seen style key inside entries inner given isSection unseen within others ih_within
      ih_others =>
      rw [List.map_append, List.mem_append] at among
      obtain among | among := among
      · obtain ⟨other, -, inside⟩ := ih_within among
        exact ⟨key, unseen, (List.prefix_append _ _).trans inside⟩
      · obtain ⟨other, unseen, inside⟩ := ih_others among
        exact ⟨other, fun member => unseen (.tail _ member), inside⟩

theorem key_eq_of_inside {first second : String} {target : List String}
    (one : path ++ [first] <+: target) (two : path ++ [second] <+: target) : first = second := by
  have lengths : (path ++ [first]).length = (path ++ [second]).length := by simp
  have same := (List.prefix_of_prefix_length_le one two lengths.le).eq_of_length lengths
  simpa using same

/-- No field is assigned twice. -/
theorem Assigns.nodup (assigns : Assigns path seen entries given) : (given.map (·.1)).Nodup := by
  induction assigns with
  | nil => exact List.nodup_nil
  | unknown unknown others ih => exact ih
  | @field path seen style key node own value entries given path_eq unseen suits spelled others
      ih =>
      refine List.nodup_cons.mpr ⟨fun again => ?_, ih⟩
      obtain ⟨other, fresh, inside⟩ := others.exists_key again
      rw [key_eq_of_inside inside ⟨[], by rw [List.append_nil, path_eq]⟩] at fresh
      exact fresh List.mem_cons_self
  | blank isSection unseen others ih => exact ih
  | @nested path seen style key inside entries inner given isSection unseen within others ih_within
      ih_others =>
      rw [List.map_append]
      refine List.nodup_append.mpr ⟨ih_within, ih_others, ?_⟩
      rintro field one _ two rfl
      obtain ⟨deeper, -, inside⟩ := within.exists_key one
      obtain ⟨other, fresh, beside⟩ := others.exists_key two
      rw [key_eq_of_inside beside ((List.prefix_append _ _).trans inside)] at fresh
      exact fresh List.mem_cons_self

theorem get_putAll_of_not_mem (unassigned : field ∉ given.map (·.1)) :
    (config.putAll given).get field = config.get field := by
  induction given generalizing config with
  | nil => rfl
  | cons assigned given ih =>
      rw [List.map_cons, List.mem_cons, not_or] at unassigned
      change ((config.put assigned.1 assigned.2).putAll given).get field = _
      rw [ih unassigned.2, get_put_of_ne unassigned.1]

theorem get_putAll_of_mem (once : (given.map (·.1)).Nodup) (among : (field, value) ∈ given)
    (suits : value.Suits field.kind) : (config.putAll given).get field = value := by
  induction given generalizing config with
  | nil => cases among
  | cons assigned given ih =>
      rw [List.map_cons, List.nodup_cons] at once
      change ((config.put assigned.1 assigned.2).putAll given).get field = _
      obtain rfl | among := List.mem_cons.mp among
      · rw [get_putAll_of_not_mem once.1, get_put_self suits]
      · exact ih once.2 among

end Assignments

/-! ## Reading -/

/-- Whether all fields behind some keys have their defaults. -/
def Untouched (config : Config) (path : List String) : Prop :=
  ∀ field : Field, path <+: field.path → config.get field = ({} : Config).get field

section Reading

variable {α : Type} {settings : List (Setting α)} {setting : Setting α} {path seen : List String}
  {embed : α → Config} {start : α} {key : String} {entries : List (Node × Node)} {node : Node}
  {given : List (Field × Value)} {config : Config} {field : Field} {value : Value}
  {document : Document}

/-- A setting reads the values of a field. `embed` tells what a part that was read so far means for
the whole configuration. -/
def ReadsField (setting : Setting α) (embed : α → Config) (field : Field) : Prop :=
  ∀ (start : α) (document : Document) (node : Node) (value : Value),
    value.Suits field.kind → Spells value node →
      ∃ read, setting.read start document node = some read ∧
        embed read = (embed start).put field value

/-- A setting reads what is assigned in a section, if nothing was before. -/
def ReadsSection (setting : Setting α) (embed : α → Config) (path : List String) : Prop :=
  ∀ (start : α) (document : Document) (node : Node) (given : List (Field × Value)),
    Means path node given → (embed start).Untouched path →
      ∃ read, setting.read start document node = some read ∧
        embed read = (embed start).putAll given

/-- A setting of a mapping is a field or a section. -/
inductive Serves (path : List String) (embed : α → Config) (setting : Setting α) : Prop where
  | field (field : Field) (path_eq : field.path = path ++ [setting.key])
      (reads : ReadsField setting embed field) : Serves path embed setting
  | nested (isSection : IsSection (path ++ [setting.key]))
      (reads : ReadsSection setting embed (path ++ [setting.key])) : Serves path embed setting

/-- The settings of a mapping are its fields and sections. -/
structure ServesAll (settings : List (Setting α)) (path : List String) (embed : α → Config) :
    Prop where
  serves : ∀ setting ∈ settings, Serves path embed setting
  complete : ∀ (field : Field) (key : String), path ++ [key] <+: field.path →
    key ∈ settings.map (·.key)

/-- Which settings a mapping has to have is seen from the fields that lie in it. -/
theorem complete_of_heads
    (listed : ∀ field : Field, path <+: field.path →
      (field.path.drop path.length).head?.all (· ∈ settings.map (·.key)) = true)
    (field : Field) (key : String) (below : path ++ [key] <+: field.path) :
    key ∈ settings.map (·.key) := by
  obtain ⟨rest, path_eq⟩ := below
  rw [List.append_assoc] at path_eq
  have head_listed := listed field ⟨_, path_eq⟩
  rw [← path_eq, List.drop_left] at head_listed
  exact of_decide_eq_true head_listed

theorem Serves.exists_inside (serves : Serves path embed setting) :
    ∃ field : Field, path ++ [setting.key] <+: field.path := by
  cases serves with
  | field field path_eq reads => exact ⟨field, [], by rw [List.append_nil, path_eq]⟩
  | nested isSection reads => exact ⟨isSection.choose, isSection.choose_spec.1⟩

theorem ServesAll.find?_eq_none (all : ServesAll settings path embed)
    (unknown : ∀ field : Field, ¬path ++ [key] <+: field.path) :
    settings.find? (·.key = key) = none := by
  refine List.find?_eq_none.mpr fun setting member same => ?_
  obtain ⟨field, inside⟩ := (all.serves setting member).exists_inside
  rw [of_decide_eq_true same] at inside
  exact unknown field inside

theorem ServesAll.exists_find? (all : ServesAll settings path embed)
    (known : path ++ [key] <+: field.path) :
    ∃ setting, settings.find? (·.key = key) = some setting ∧ setting.key = key ∧
      Serves path embed setting := by
  obtain ⟨setting, member, same⟩ := List.mem_map.mp (all.complete field key known)
  have isSome : (settings.find? (·.key = key)).isSome :=
    List.find?_isSome.mpr ⟨setting, member, by simpa using same⟩
  obtain ⟨found, found_eq⟩ := Option.isSome_iff_exists.mp isSome
  exact ⟨found, found_eq, by simpa using List.find?_some found_eq,
    all.serves found (List.mem_of_find?_eq_some found_eq)⟩

theorem ServesAll.exists_field (all : ServesAll settings path embed)
    (path_eq : field.path = path ++ [key]) :
    ∃ setting, settings.find? (·.key = key) = some setting ∧ ReadsField setting embed field := by
  have inside : path ++ [key] <+: field.path := ⟨[], by rw [List.append_nil, path_eq]⟩
  obtain ⟨setting, found, rfl, serves⟩ := all.exists_find? inside
  refine ⟨setting, found, ?_⟩
  cases serves with
  | field other other_eq reads =>
      rw [← other_eq] at inside
      rwa [← Field.eq_of_inside inside]
  | nested isSection reads => exact (not_isSection_path (path_eq ▸ isSection)).elim

theorem ServesAll.exists_section (all : ServesAll settings path embed)
    (isSection : IsSection (path ++ [key])) :
    ∃ setting, settings.find? (·.key = key) = some setting ∧
      ReadsSection setting embed (path ++ [key]) := by
  obtain ⟨setting, found, rfl, serves⟩ := all.exists_find? isSection.choose_spec.1
  refine ⟨setting, found, ?_⟩
  cases serves with
  | field other other_eq reads => exact (not_isSection_path (other_eq ▸ isSection)).elim
  | nested isSection reads => exact reads

theorem readEntries_cons {style : Style} (document : Document) :
    readEntries settings document seen start ((.scalar { style, text := key }, node) :: entries) =
      match settings.find? (·.key = key) with
      | none => readEntries settings document seen start entries
      | some setting =>
        if key ∈ seen then none
        else (setting.read start document node).bind fun read =>
          readEntries settings document (key :: seen) read entries := by
  rw [readEntries]
  rfl

theorem Untouched.mono (untouched : config.Untouched path) {more : List String}
    (inside : path <+: more) : config.Untouched more :=
  fun field below => untouched field (inside.trans below)

theorem Untouched.putAll (untouched : config.Untouched path)
    (apart : ∀ field ∈ given.map (·.1), ¬path <+: field.path) :
    (config.putAll given).Untouched path := fun field below => by
  rw [get_putAll_of_not_mem fun among => apart field among below, untouched field below]

/-- An entry whose key has a meaning is read before the others. -/
theorem readEntries_step {style : Style} (part : List (Field × Value)) {read : α}
    (found : settings.find? (·.key = key) = some setting) (unseen : key ∉ seen)
    (read_eq : setting.read start document node = some read)
    (embed_eq : embed read = (embed start).putAll part)
    (inside : ∀ field ∈ part.map (·.1), path ++ [key] <+: field.path)
    (untouched : ∀ key, key ∉ seen → (embed start).Untouched (path ++ [key]))
    (others : (∀ other, other ∉ key :: seen → (embed read).Untouched (path ++ [other])) →
      ∃ last, readEntries settings document (key :: seen) read entries = some last ∧
        embed last = (embed read).putAll given) :
    ∃ last, readEntries settings document seen start
        ((.scalar { style, text := key }, node) :: entries) = some last ∧
      embed last = (embed start).putAll (part ++ given) := by
  obtain ⟨last, last_eq, total⟩ := others fun other fresh => by
    rw [embed_eq]
    refine (untouched other fun member => fresh (.tail _ member)).putAll fun field among below => ?_
    rw [key_eq_of_inside below (inside field among)] at fresh
    exact fresh List.mem_cons_self
  refine ⟨last, ?_, ?_⟩
  · rw [readEntries_cons, found]
    simp only [if_neg unseen, read_eq, Option.bind_some, last_eq]
  · rw [total, embed_eq, Config.putAll, Config.putAll, Config.putAll, List.foldl_append]

/-- A mapping is read as what it assigns. -/
theorem readEntries_of_assigns (all : ServesAll settings path embed)
    (assigns : Assigns path seen entries given)
    (untouched : ∀ key, key ∉ seen → (embed start).Untouched (path ++ [key])) :
    ∃ read, readEntries settings document seen start entries = some read ∧
      embed read = (embed start).putAll given := by
  induction assigns generalizing start with
  | nil => exact ⟨start, rfl, rfl⟩
  | unknown unknown others ih =>
      rw [readEntries_cons, all.find?_eq_none unknown]
      exact ih all untouched
  | @field path seen style key node own value entries given path_eq unseen suits spelled others
      ih =>
      obtain ⟨setting, found, reads⟩ := all.exists_field path_eq
      obtain ⟨read, read_eq, embed_eq⟩ := reads start document node value suits spelled
      refine readEntries_step [(own, value)] found unseen read_eq embed_eq ?_ untouched
        (ih all)
      rintro _ (_ | ⟨_, ⟨⟩⟩)
      exact ⟨[], by rw [List.append_nil, path_eq]⟩
  | @blank path seen style key entries given isSection unseen others ih =>
      obtain ⟨setting, found, reads⟩ := all.exists_section isSection
      obtain ⟨read, read_eq, embed_eq⟩ :=
        reads start document .empty [] .blank (untouched key unseen)
      exact readEntries_step [] found unseen read_eq embed_eq nofun untouched (ih all)
  | @nested path seen style key inside entries inner given isSection unseen within others _ ih =>
      obtain ⟨setting, found, reads⟩ := all.exists_section isSection
      obtain ⟨read, read_eq, embed_eq⟩ :=
        reads start document (.mapping inside) inner (.mapping within) (untouched key unseen)
      refine readEntries_step inner found unseen read_eq embed_eq (fun field among => ?_) untouched
        (ih all)
      obtain ⟨deeper, -, below⟩ := within.exists_key among
      exact (List.prefix_append _ _).trans below

/-- A node in the place of a mapping is read as what it assigns. -/
theorem readMapping_of_means (all : ServesAll settings path embed) (means : Means path node given)
    (untouched : (embed start).Untouched path) :
    ∃ read, readMapping settings start document node = some read ∧
      embed read = (embed start).putAll given := by
  cases means with
  | blank => exact ⟨start, rfl, rfl⟩
  | mapping assigns =>
      exact readEntries_of_assigns all assigns fun key _ => untouched.mono (List.prefix_append _ _)

/-! ### Settings -/

theorem readsField_text {put : α → String → α} (kind_eq : field.kind = .text)
    (puts : ∀ part text, embed (put part text) = (embed part).put field (.text text)) :
    ReadsField (textSetting key put) embed field := by
  intro start document node value suits spelled
  rw [kind_eq] at suits
  cases value with
  | text text =>
      exact ⟨put start text, congrArg (Option.map (put start)) (textOf?_of_spells spelled),
        puts start text⟩
  | number _ | flag _ => exact suits.elim

theorem readsField_number {bound : Nat} {put : α → Nat → α} (kind_eq : field.kind = .number bound)
    (puts : ∀ part number, embed (put part number) = (embed part).put field (.number number)) :
    ReadsField (numberSetting key bound put) embed field := by
  intro start document node value suits spelled
  rw [kind_eq] at suits
  cases value with
  | number number =>
      exact ⟨put start number,
        congrArg (Option.map (put start)) (numberOf?_of_spells spelled suits), puts start number⟩
  | text _ | flag _ => exact suits.elim

theorem readsField_flag {put : α → Bool → α} (kind_eq : field.kind = .flag)
    (puts : ∀ part flag, embed (put part flag) = (embed part).put field (.flag flag)) :
    ReadsField (flagSetting key put) embed field := by
  intro start document node value suits spelled
  rw [kind_eq] at suits
  cases value with
  | flag flag =>
      exact ⟨put start flag, congrArg (Option.map (put start)) (flagOf?_of_spells spelled),
        puts start flag⟩
  | text _ | number _ => exact suits.elim

/-- A section that had its defaults is read as what it assigns. -/
theorem readsSection_part {put : Config → α → Config}
    (all : ∀ config, ServesAll settings path (put config))
    (same : ∀ config : Config, config.Untouched path → put config start = config) :
    ReadsSection (part key settings start put) id path := by
  intro config document node given means untouched
  have same_here := same config untouched
  obtain ⟨read, read_eq, total⟩ :
      ∃ read, readMapping settings start document node = some read ∧
        put config read = (put config start).putAll given :=
    readMapping_of_means (all config) means (by rw [same_here]; exact untouched)
  refine ⟨put config read, congrArg (Option.map (put config)) read_eq, ?_⟩
  rw [id, id, total, same_here]

end Reading

/-! ### Sections -/

section Sections

variable (config : Config)

theorem servesAll_server :
    ServesAll serverSettings ["server"] fun server => { config with server } where
  serves := by
    simp only [serverSettings, List.forall_mem_cons]
    exact ⟨.field .host rfl (readsField_text rfl fun _ _ => rfl),
      .field .port rfl (readsField_number rfl fun _ _ => rfl),
      .field .shutdownTimeout rfl (readsField_number rfl fun _ _ => rfl),
      .field .maxBodyBytes rfl (readsField_number rfl fun _ _ => rfl), nofun⟩
  complete := complete_of_heads fun field => by cases field <;> decide

theorem servesAll_database :
    ServesAll databaseSettings ["metadata", "sqlite"] fun metadata => { config with metadata } where
  serves := by
    simp only [databaseSettings, List.forall_mem_cons]
    exact ⟨.field .databasePath rfl (readsField_text rfl fun _ _ => rfl), nofun⟩
  complete := complete_of_heads fun field => by cases field <;> decide

theorem servesAll_metadata :
    ServesAll metadataSettings ["metadata"] fun metadata => { config with metadata } where
  serves := by
    simp only [metadataSettings, List.forall_mem_cons]
    exact ⟨.nested ⟨.databasePath, ⟨_, rfl⟩, nofun⟩ fun start document node given means untouched =>
      readMapping_of_means (servesAll_database config) means untouched, nofun⟩
  complete := complete_of_heads fun field => by cases field <;> decide

theorem servesAll_storage :
    ServesAll storageSettings ["storage"] fun storage => { config with storage } where
  serves := by
    simp only [storageSettings, List.forall_mem_cons]
    exact ⟨.field .rootDirectory rfl (readsField_text rfl fun _ _ => rfl),
      .field .chunkSize rfl (readsField_number rfl fun _ _ => rfl), nofun⟩
  complete := complete_of_heads fun field => by cases field <;> decide

theorem servesAll_gallery :
    ServesAll gallerySettings ["gallery"] fun gallery => { config with gallery } where
  serves := by
    simp only [gallerySettings, List.forall_mem_cons]
    exact ⟨.field .maxFilesPerRequest rfl (readsField_number rfl fun _ _ => rfl),
      .field .maxImagesPerParent rfl (readsField_number rfl fun _ _ => rfl),
      .field .publicBaseUrl rfl (readsField_text rfl fun _ _ => rfl), nofun⟩
  complete := complete_of_heads fun field => by cases field <;> decide

theorem servesAll_logging :
    ServesAll loggingSettings ["logging"] fun logging => { config with logging } where
  serves := by
    simp only [loggingSettings, List.forall_mem_cons]
    exact ⟨.field .level rfl (readsField_text rfl fun _ _ => rfl),
      .field .format rfl (readsField_text rfl fun _ _ => rfl), nofun⟩
  complete := complete_of_heads fun field => by cases field <;> decide

theorem servesAll_observability :
    ServesAll observabilitySettings ["observability"] fun observability =>
      { config with observability } where
  serves := by
    simp only [observabilitySettings, List.forall_mem_cons]
    exact ⟨.field .metrics rfl (readsField_flag rfl fun _ _ => rfl), nofun⟩
  complete := complete_of_heads fun field => by cases field <;> decide

end Sections

theorem servesAll_sections : ServesAll sections [] id where
  serves := by
    simp only [sections, List.forall_mem_cons]
    refine ⟨.nested ⟨.host, ⟨_, rfl⟩, nofun⟩ (readsSection_part servesAll_server ?_),
      .nested ⟨.databasePath, ⟨_, rfl⟩, nofun⟩ (readsSection_part servesAll_metadata ?_),
      .nested ⟨.chunkSize, ⟨_, rfl⟩, nofun⟩ (readsSection_part servesAll_storage ?_),
      .nested ⟨.publicBaseUrl, ⟨_, rfl⟩, nofun⟩ (readsSection_part servesAll_gallery ?_),
      .nested ⟨.level, ⟨_, rfl⟩, nofun⟩ (readsSection_part servesAll_logging ?_),
      .nested ⟨.metrics, ⟨_, rfl⟩, nofun⟩ (readsSection_part servesAll_observability ?_), nofun⟩
    all_goals
      intro config untouched
      refine ext_get fun field => ?_
      have default_here := untouched field
      cases field <;> first
        | rfl
        | exact (default_here ⟨_, rfl⟩).symm
  complete := complete_of_heads fun field => by cases field <;> decide

/-- A document whose root assigns fields is read as the defaults with these values. -/
theorem ofDocument?_of_means {document : Document} {given : List (Field × Value)}
    (means : Means [] document.root given) :
    ofDocument? document = some (({} : Config).putAll given) := by
  obtain ⟨read, read_eq, total⟩ :
      ∃ read, readMapping sections {} document document.root = some read ∧
        id read = (id {} : Config).putAll given :=
    readMapping_of_means servesAll_sections means fun _ _ => rfl
  rw [ofDocument?, read_eq]
  exact congrArg some total

end ImageGallery.Config
