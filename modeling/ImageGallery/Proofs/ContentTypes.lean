import Mathlib.Data.List.DropRight
import ImageGallery.Proofs.VisibleText

/-!
# What a content type is read from

A header's value that denotes a content type is visible, and so is everything that is read from it.
Blanks at its end may be left away: a value without them is a content type as well.
-/

namespace ImageGallery.Http.ContentType

/-- Characters denote a content type with some parameters: a type, and a subtype that is the end or
that the parameters follow. -/
structure Denotes (chars : List Char) (parameters : List (String × String)) : Prop where
  visible : chars.all isVisible
  some_type : chars.takeWhile isToken ≠ []
  subtyped : ∃ rest, chars.dropWhile isToken = '/' :: rest ∧
    (rest.dropWhile isToken = [] ∧ parameters = [] ∨
      ∃ following, rest.dropWhile isToken = ';' :: following ∧ rest.takeWhile isToken ≠ [] ∧
        readParameters (following.length + 1) following = some parameters)

theorem denotes_of_ofHeader? {value : String} {contentType : ContentType}
    (accepted : ofHeader? value = some contentType) :
    Denotes value.toList contentType.parameters := by
  unfold ofHeader? at accepted
  dsimp only at accepted
  split at accepted
  · rename_i visible
    split at accepted
    · cases accepted
    · rename_i rest remaining some_type
      refine ⟨visible, some_type, rest, remaining, ?_⟩
      split at accepted
      · rename_i ended
        cases accepted
        exact .inl ⟨ended, rfl⟩
      · rename_i following continued
        split at accepted
        · cases accepted
        · rename_i some_subtype
          obtain ⟨parameters, read, rfl⟩ := Option.map_eq_some_iff.mp accepted
          exact .inr ⟨following, continued, some_subtype, read⟩
      · cases accepted
    · cases accepted
  · cases accepted

theorem Denotes.isSome_ofHeader? {value : String} {parameters : List (String × String)}
    (denotes : Denotes value.toList parameters) : (ofHeader? value).isSome := by
  obtain ⟨visible, some_type, rest, remaining, ending⟩ := denotes
  obtain ⟨first, name, typed⟩ := List.exists_cons_of_ne_nil some_type
  unfold ofHeader?
  simp only [visible, typed, remaining, if_true]
  rcases ending with ⟨ended, -⟩ | ⟨following, continued, some_subtype, read⟩
  · simp only [ended, Option.isSome_some]
  · simp only [continued, if_neg some_subtype, read, Option.map_some, Option.isSome_some]

theorem exists_denotes {value : String} (accepted : (ofHeader? value).isSome) :
    ∃ parameters, Denotes value.toList parameters := by
  obtain ⟨contentType, accepted⟩ := Option.isSome_iff_exists.mp accepted
  exact ⟨contentType.parameters, denotes_of_ofHeader? accepted⟩

/-- A value that denotes a content type is visible. -/
theorem visible_of_ofHeader? {value : String} (accepted : (ofHeader? value).isSome) :
    Text.Visible value := by
  obtain ⟨parameters, denotes⟩ := exists_denotes accepted
  exact List.all_eq_true.mp denotes.visible

/-- A value that denotes a content type does not start with a blank. -/
theorem unspaced_of_ofHeader? {value : String} (accepted : (ofHeader? value).isSome) :
    value.toList.head? ≠ some ' ' := by
  intro spaced
  obtain ⟨others, spelled⟩ := List.head?_eq_some_iff.mp spaced
  obtain ⟨parameters, denotes⟩ := exists_denotes accepted
  apply denotes.some_type
  rw [spelled]
  exact List.takeWhile_cons_of_neg (by decide)

/-! ## Parameters -/

theorem subset_of_readBareValue {chars value rest : List Char}
    (read : readBareValue chars = some (value, rest)) : value ⊆ chars ∧ rest <:+ chars := by
  have front : chars.takeWhile isToken ⊆ chars := (List.takeWhile_prefix _).subset
  have back : chars.dropWhile isToken <:+ chars := List.dropWhile_suffix _
  unfold readBareValue at read
  split at read
  · cases read
    exact ⟨front, List.nil_suffix⟩
  · rename_i remaining
    split at read
    · cases read
    · cases read
      rw [remaining] at back
      exact ⟨front, (List.suffix_cons _ _).trans back⟩
  · cases read

theorem subset_of_readQuotedValue {chars value rest : List Char}
    (read : readQuotedValue chars = some (value, rest)) : value ⊆ chars ∧ rest <:+ chars := by
  cases chars with
  | nil => cases read
  | cons first chars =>
      have front : chars.takeWhile (· ≠ '"') ⊆ chars := (List.takeWhile_prefix _).subset
      have back : chars.dropWhile (· ≠ '"') <:+ chars := List.dropWhile_suffix _
      unfold readQuotedValue at read
      dsimp only at read
      split at read
      · cases read
      · rename_i quote rest remaining
        have value_subset : first :: chars.takeWhile (· ≠ '"') ⊆ first :: chars :=
          List.cons_subset_cons first front
        rw [remaining] at back
        have rest_suffix : rest.dropWhile (· = ' ') <:+ first :: chars := by
          apply (List.dropWhile_suffix _).trans
          apply (List.suffix_cons quote rest).trans
          exact back.trans (List.suffix_cons first chars)
        split at read
        · cases read
          exact ⟨value_subset, List.nil_suffix⟩
        · rename_i following
          cases read
          rw [following] at rest_suffix
          exact ⟨value_subset, (List.suffix_cons _ _).trans rest_suffix⟩
        · cases read

theorem subset_of_readValue {chars value rest : List Char}
    (read : readValue chars = some (value, rest)) : value ⊆ chars ∧ rest <:+ chars := by
  unfold readValue at read
  split at read
  · obtain ⟨valueSubset, restSuffix⟩ := subset_of_readQuotedValue read
    exact ⟨List.Subset.trans valueSubset (List.subset_cons_self _ _),
      restSuffix.trans (List.suffix_cons _ _)⟩
  · exact subset_of_readBareValue read

/-- A parameter that stands in front of others is read: its name, and its value up to the rest. -/
structure Leads (chars name value rest : List Char) : Prop where
  some_name : name ≠ []
  named : (chars.dropWhile (· = ' ')).takeWhile isToken = name
  valued : ∃ assigned, (chars.dropWhile (· = ' ')).dropWhile isToken = '=' :: assigned ∧
    readValue assigned = some (value, rest)

/-- Parameters end in blanks, or the first of them stands in front of the others. -/
theorem readParameters_cases {fuel : Nat} {chars : List Char}
    {parameters : List (String × String)}
    (read : readParameters (fuel + 1) chars = some parameters) :
    (chars.dropWhile (· = ' ') = [] ∧ parameters = []) ∨
      ∃ name value rest others, Leads chars name value rest ∧
        readParameters fuel rest = some others ∧
        parameters = (lowered name, String.ofList value) :: others := by
  unfold readParameters at read
  split at read
  · rename_i blank
    cases read
    exact .inl ⟨blank, rfl⟩
  · split at read
    · cases read
    · rename_i assigned remaining some_name
      obtain ⟨⟨value, rest⟩, valued, read⟩ := Option.bind_eq_some_iff.mp read
      obtain ⟨others, following, read⟩ := Option.bind_eq_some_iff.mp read
      cases read
      exact .inr ⟨_, value, rest, others, ⟨some_name, rfl, _, remaining, valued⟩, following, rfl⟩
    · cases read

theorem readParameters_of_blank {fuel : Nat} {chars : List Char}
    (blank : chars.dropWhile (· = ' ') = []) : readParameters (fuel + 1) chars = some [] := by
  rw [readParameters, blank]

theorem readParameters_of_leads {fuel : Nat} {chars name value rest : List Char}
    {others : List (String × String)} (leads : Leads chars name value rest)
    (following : readParameters fuel rest = some others) :
    readParameters (fuel + 1) chars = some ((lowered name, String.ofList value) :: others) := by
  obtain ⟨some_name, named, assigned, remaining, valued⟩ := leads
  unfold readParameters
  split
  · rename_i blank
    rw [blank] at remaining
    cases remaining
  · cases name with
    | nil => exact absurd rfl some_name
    | cons first name =>
        simp only [named, remaining, valued, Option.bind_eq_bind, Option.bind_some, following]
        rfl

/-- What is read as a parameter ends what it is read from. -/
theorem Leads.suffix {chars name value rest : List Char} (leads : Leads chars name value rest) :
    value ⊆ chars ∧ ∃ assigned, rest <:+ assigned ∧ '=' :: assigned <:+ chars := by
  obtain ⟨assigned, remaining, valued⟩ := leads.valued
  obtain ⟨valueSubset, restSuffix⟩ := subset_of_readValue valued
  have ending : '=' :: assigned <:+ chars := by
    rw [← remaining]
    exact (List.dropWhile_suffix _).trans (List.dropWhile_suffix _)
  refine ⟨?_, assigned, restSuffix, ending⟩
  exact List.Subset.trans valueSubset ((List.suffix_cons '=' assigned).trans ending).subset

/-- The characters of a parameter's value are among those that it is read from. -/
theorem subset_of_readParameters {fuel : Nat} {chars : List Char}
    {parameters : List (String × String)} (read : readParameters fuel chars = some parameters)
    {parameter : String × String} (mem : parameter ∈ parameters) :
    parameter.2.toList ⊆ chars := by
  induction fuel generalizing chars parameters with
  | zero => cases read
  | succ fuel ih =>
      rcases readParameters_cases read with
        ⟨-, rfl⟩ | ⟨name, value, rest, others, leads, later, rfl⟩
      · cases mem
      · obtain ⟨valueSubset, assigned, restSuffix, ending⟩ := leads.suffix
        rcases List.mem_cons.mp mem with rfl | mem
        · rw [String.toList_ofList]
          exact valueSubset
        · apply List.Subset.trans (ih later mem)
          exact (restSuffix.trans ((List.suffix_cons '=' assigned).trans ending)).subset

/-- The parameters of a content type stand after its subtype. -/
theorem subset_of_ofHeader? {value : String} {contentType : ContentType}
    (accepted : ofHeader? value = some contentType) {parameter : String × String}
    (mem : parameter ∈ contentType.parameters) : parameter.2.toList ⊆ value.toList := by
  obtain ⟨-, -, rest, remaining, ending⟩ := denotes_of_ofHeader? accepted
  rcases ending with ⟨-, none⟩ | ⟨following, continued, -, read⟩
  · rw [none] at mem
    cases mem
  · have back : following ⊆ value.toList := by
      apply List.Subset.trans (List.subset_cons_self ';' following)
      rw [← continued]
      apply List.Subset.trans (List.dropWhile_suffix _).subset
      apply List.Subset.trans (List.subset_cons_self '/' rest)
      rw [← remaining]
      exact (List.dropWhile_suffix _).subset
    exact List.Subset.trans (subset_of_readParameters read mem) back

/-- The boundary of a form that a header's value declares is visible. -/
theorem visible_of_formBoundary? {header boundary : String}
    (declared : (ofHeader? header).bind formBoundary? = some boundary) :
    Text.Visible boundary := by
  obtain ⟨contentType, accepted, declared⟩ := Option.bind_eq_some_iff.mp declared
  have visible := visible_of_ofHeader? (Option.isSome_of_eq_some accepted)
  unfold formBoundary? at declared
  split at declared
  · obtain ⟨parameter, found, rfl⟩ := Option.map_eq_some_iff.mp declared
    intro char mem
    exact visible char (subset_of_ofHeader? accepted (List.mem_of_find?_eq_some found) mem)
  · cases declared

/-! ## Blanks at the end -/

/-- A character that stops a reader is left over. -/
theorem takeWhile_append_stop {reads : Char → Bool} {stop : Char} (stops : reads stop = false)
    (chars : List Char) :
    (chars ++ [stop]).takeWhile reads = chars.takeWhile reads ∧
      (chars ++ [stop]).dropWhile reads = chars.dropWhile reads ++ [stop] := by
  induction chars with
  | nil => simp [stops]
  | cons char chars ih =>
      cases accepted : reads char with
      | false => simp [accepted]
      | true => simp [accepted, ih]

/-- What follows a character that stops a reader is left over. -/
theorem takeWhile_append_of_stopped {reads : Char → Bool} {chars : List Char}
    (stopped : chars.dropWhile reads ≠ []) (others : List Char) :
    (chars ++ others).takeWhile reads = chars.takeWhile reads ∧
      (chars ++ others).dropWhile reads = chars.dropWhile reads ++ others := by
  induction chars with
  | nil => exact absurd rfl stopped
  | cons char chars ih =>
      cases accepted : reads char with
      | false => simp [accepted]
      | true =>
          simp only [List.dropWhile_cons, accepted, if_true] at stopped
          simp [accepted, ih stopped]

/-- A character that is read at the end of what is read leaves nothing over. -/
theorem dropWhile_append_of_read {reads : Char → Bool} {chars : List Char} {last : Char}
    (all : chars.dropWhile reads = []) (accepted : reads last = true) :
    (chars ++ [last]).dropWhile reads = [] := by
  rw [List.dropWhile_eq_nil_iff] at all ⊢
  intro char mem
  rcases List.mem_append.mp mem with mem | mem
  · exact all char mem
  · rw [List.mem_singleton.mp mem]
    exact accepted

/-- A separator at the front of what a reader leaves over stands before a blank at the end. -/
theorem exists_of_append_blank {rest chars : List Char} {sign : Char} (other : sign ≠ ' ')
    (left : chars ++ [' '] = sign :: rest) :
    ∃ following, chars = sign :: following ∧ rest = following ++ [' '] := by
  cases chars with
  | nil =>
      cases left
      exact absurd rfl other
  | cons first chars =>
      rw [List.cons_append, List.cons_eq_cons] at left
      obtain ⟨rfl, rfl⟩ := left
      exact ⟨chars, rfl, rfl⟩

theorem readBareValue_append_blank (chars : List Char) {value rest : List Char}
    (read : readBareValue (chars ++ [' ']) = some (value, rest)) :
    ∃ shorter, rest = shorter ++ [' '] ∧ readBareValue chars = some (value, shorter) := by
  obtain ⟨front, back⟩ := takeWhile_append_stop (show isToken ' ' = false from rfl) chars
  unfold readBareValue at read ⊢
  rw [front, back] at read
  cases remaining : chars.dropWhile isToken with
  | nil =>
      rw [remaining] at read
      cases read
  | cons first following =>
      rw [remaining, List.cons_append] at read
      split at read
      · rename_i impossible
        cases impossible
      · rename_i same
        cases same
        split at read
        · cases read
        · rename_i some_value
          cases read
          exact ⟨following, rfl, if_neg some_value⟩
      · cases read

theorem readQuotedValue_append_blank {chars value rest : List Char}
    (read : readQuotedValue (chars ++ [' ']) = some (value, rest)) :
    ∃ shorter, (rest = shorter ++ [' '] ∨ rest = [] ∧ shorter = []) ∧
      readQuotedValue chars = some (value, shorter) := by
  cases chars with
  | nil => cases read
  | cons first chars =>
      rw [List.cons_append] at read
      unfold readQuotedValue at read ⊢
      dsimp only at read ⊢
      cases quoted : chars.dropWhile (· ≠ '"') with
      | nil =>
          rw [dropWhile_append_of_read quoted (by decide)] at read
          cases read
      | cons quote following =>
          obtain ⟨front, back⟩ := takeWhile_append_of_stopped
            (quoted ▸ List.cons_ne_nil quote following) [' ']
          rw [front, back, quoted, List.cons_append] at read
          dsimp only at read ⊢
          cases remaining : following.dropWhile (· = ' ') with
          | nil =>
              rw [dropWhile_append_of_read remaining (by decide)] at read
              cases read
              exact ⟨[], .inr ⟨rfl, rfl⟩, rfl⟩
          | cons separator after =>
              obtain ⟨-, left⟩ := takeWhile_append_of_stopped
                (remaining ▸ List.cons_ne_nil separator after) [' ']
              rw [left, remaining, List.cons_append] at read
              split at read
              · rename_i impossible
                cases impossible
              · rename_i same
                cases same
                cases read
                exact ⟨after, .inl rfl, rfl⟩
              · cases read

theorem readValue_append_blank {chars value rest : List Char}
    (read : readValue (chars ++ [' ']) = some (value, rest)) :
    ∃ shorter, (rest = shorter ++ [' '] ∨ rest = [] ∧ shorter = []) ∧
      readValue chars = some (value, shorter) := by
  cases chars with
  | nil =>
      obtain ⟨shorter, longer, bare⟩ := readBareValue_append_blank [] read
      exact ⟨shorter, .inl longer, bare⟩
  | cons first chars =>
      rw [List.cons_append] at read
      unfold readValue at read ⊢
      split at read
      · rename_i same
        cases same
        exact readQuotedValue_append_blank read
      · rename_i unquoted
        rw [← List.cons_append] at read
        obtain ⟨shorter, longer, bare⟩ := readBareValue_append_blank (first :: chars) read
        refine ⟨shorter, .inl longer, ?_⟩
        split
        · rename_i same
          cases same
          exact (unquoted _ rfl).elim
        · exact bare

theorem Leads.of_append_blank {chars name value rest : List Char}
    (leads : Leads (chars ++ [' ']) name value rest) :
    ∃ shorter, (rest = shorter ++ [' '] ∨ rest = [] ∧ shorter = []) ∧
      Leads chars name value shorter := by
  obtain ⟨some_name, named, assigned, remaining, valued⟩ := leads
  have some_chars : chars.dropWhile (· = ' ') ≠ [] := by
    intro blank
    rw [dropWhile_append_of_read blank (by decide)] at remaining
    cases remaining
  obtain ⟨-, spaced⟩ := takeWhile_append_of_stopped some_chars [' ']
  obtain ⟨front, back⟩ :=
    takeWhile_append_stop (show isToken ' ' = false from rfl) (chars.dropWhile (· = ' '))
  rw [spaced, front] at named
  rw [spaced, back] at remaining
  obtain ⟨following, left, rfl⟩ := exists_of_append_blank (by decide) remaining
  obtain ⟨shorter, longer, valued⟩ := readValue_append_blank valued
  exact ⟨shorter, longer, some_name, named, following, left, valued⟩

/-- Parameters are read without a blank at their end. -/
theorem isSome_readParameters_of_append_blank {fuel larger : Nat} {chars : List Char}
    (read : (readParameters fuel (chars ++ [' '])).isSome) (enough : chars.length < larger) :
    (readParameters larger chars).isSome := by
  induction fuel generalizing chars larger with
  | zero => cases read
  | succ fuel ih =>
      cases larger with
      | zero => cases enough
      | succ larger =>
          obtain ⟨parameters, read⟩ := Option.isSome_iff_exists.mp read
          rcases readParameters_cases read with
            ⟨blank, -⟩ | ⟨name, value, rest, others, leads, later, -⟩
          · have nothing : chars.dropWhile (· = ' ') = [] := by
              rw [List.dropWhile_eq_nil_iff] at blank ⊢
              exact fun char mem => blank char (List.mem_append_left _ mem)
            rw [readParameters_of_blank nothing]
            rfl
          · obtain ⟨shorter, longer, leads⟩ := leads.of_append_blank
            obtain ⟨-, assigned, restSuffix, ending⟩ := leads.suffix
            have room : shorter.length < larger := by
              have first := restSuffix.length_le
              have second := ending.length_le
              rw [List.length_cons] at second
              omega
            have following : (readParameters larger shorter).isSome := by
              rcases longer with rfl | ⟨rfl, rfl⟩
              · exact ih (Option.isSome_of_eq_some later) room
              · cases larger with
                | zero => cases room
                | succ larger => rfl
            obtain ⟨others, following⟩ := Option.isSome_iff_exists.mp following
            rw [readParameters_of_leads leads following]
            rfl

theorem Denotes.of_append_blank {chars : List Char} {parameters : List (String × String)}
    (denotes : Denotes (chars ++ [' ']) parameters) : ∃ others, Denotes chars others := by
  obtain ⟨visible, some_type, rest, remaining, ending⟩ := denotes
  rw [List.all_append, Bool.and_eq_true] at visible
  obtain ⟨front, back⟩ := takeWhile_append_stop (show isToken ' ' = false from rfl) chars
  rw [front] at some_type
  rw [back] at remaining
  obtain ⟨subtype, left, rfl⟩ := exists_of_append_blank (by decide) remaining
  obtain ⟨name, after⟩ := takeWhile_append_stop (show isToken ' ' = false from rfl) subtype
  rw [name, after] at ending
  rcases ending with ⟨impossible, -⟩ | ⟨rest, continued, some_subtype, read⟩
  · exact absurd impossible (List.append_ne_nil_of_right_ne_nil _ (List.cons_ne_nil _ _))
  · obtain ⟨following, cut, rfl⟩ := exists_of_append_blank (by decide) continued
    obtain ⟨others, read⟩ := Option.isSome_iff_exists.mp
      (isSome_readParameters_of_append_blank (Option.isSome_of_eq_some read) (Nat.lt_succ_self _))
    exact ⟨others, visible.1, some_type, subtype, left,
      .inr ⟨following, cut, some_subtype, read⟩⟩

/-- A content type is one without a blank at its end. -/
theorem isSome_ofHeader?_of_append_blank {chars : List Char}
    (accepted : (ofHeader? (String.ofList (chars ++ [' ']))).isSome) :
    (ofHeader? (String.ofList chars)).isSome := by
  obtain ⟨parameters, denotes⟩ := exists_denotes accepted
  rw [String.toList_ofList] at denotes
  obtain ⟨others, denotes⟩ := denotes.of_append_blank
  rw [← String.toList_ofList (l := chars)] at denotes
  exact denotes.isSome_ofHeader?

/-- A value without the blanks at its end. -/
def trimmed (value : String) : String :=
  String.ofList (value.toList.rdropWhile (· = ' '))

/-- What holds of all values without a blank at the end whenever it holds of them with one holds of
trimmed values. -/
theorem trimmed_induction (holds : String → Prop)
    (shorten : ∀ chars, holds (String.ofList (chars ++ [' '])) → holds (String.ofList chars))
    {value : String} (whole : holds value) : holds (trimmed value) := by
  rw [← String.ofList_toList (s := value)] at whole
  unfold trimmed
  generalize value.toList = chars at whole
  induction chars using List.reverseRecOn with
  | nil => exact whole
  | append_singleton chars last ih =>
      rw [List.rdropWhile_concat]
      split
      · rename_i blank
        rw [of_decide_eq_true blank] at whole
        exact ih (shorten chars whole)
      · exact whole

theorem isSome_ofHeader?_trimmed {value : String} (accepted : (ofHeader? value).isSome) :
    (ofHeader? (trimmed value)).isSome :=
  trimmed_induction (fun text => (ofHeader? text).isSome)
    (fun _ => isSome_ofHeader?_of_append_blank) accepted

theorem visible_trimmed {value : String} (visible : Text.Visible value) :
    Text.Visible (trimmed value) := by
  intro char mem
  rw [trimmed, String.toList_ofList] at mem
  exact visible char ((List.rdropWhile_prefix _ _).subset mem)

/-- A value that ends in a quote has no blanks at its end. -/
theorem trimmed_append_quote (value : String) : trimmed (value ++ "\"") = value ++ "\"" := by
  have quote : "\"".toList = ['"'] := by decide
  rw [trimmed, String.toList_append, quote, List.rdropWhile_concat_neg _ _ _ (by decide), ← quote,
    ← String.toList_append, String.ofList_toList]

end ImageGallery.Http.ContentType
