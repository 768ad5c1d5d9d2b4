import ImageGallery.Proofs.YamlBlocks

/-!
# Tokens of mappings in block style

A lexer that stands somewhere in a text finds tokens that depend only on what lies ahead, its column
and the open collections. From this each part of a mapping is read on its own, with what follows it
there: pauses, scalars, empty mappings, keys with their colons, and whole mappings by induction. So
a text that is a mapping has the tokens of the mapping.
-/

namespace ImageGallery.Yaml

/-! ## Runs of a lexer -/

/-- Where a lexer stands between two tokens in block style. -/
structure Lexer.At (lexer : Lexer) (ahead : List Char) (column : Nat) (allowed : Bool)
    (found : List Token) (columns : List Nat) : Prop where
  ahead_eq : lexer.cursor.ahead = ahead
  column_eq : lexer.cursor.column = column
  allowed_eq : lexer.keysAllowed = allowed
  found_eq : lexer.found = found.toArray
  columns_eq : lexer.columns = columns
  outer : lexer.outerKeys = []
  optional : lexer.key.any (·.required) = false

/-- Every lexer that stands somewhere finds some tokens in all. -/
def Yields (ahead : List Char) (column : Nat) (allowed : Bool) (found : List Token)
    (columns : List Nat) (tokens : List Token) : Prop :=
  ∀ (lexer : Lexer) (fuel : Nat), lexer.At ahead column allowed found columns →
    ahead.length < fuel → Lexer.run fuel lexer = some tokens.toArray

/-- What follows a pause in block style: the end of the text, or a token in a new line. -/
def Proceeds (rest : List Char) (next : Option Nat) (found : List Token) (columns : List Nat)
    (tokens : List Token) : Prop :=
  match next with
  | none => rest = [] ∧ tokens = found ++ columns.map fun _ => .blockEnd
  | some column =>
    startsToken rest = true ∧ Yields rest column true found columns tokens

section Runs

variable {rest ahead chars ending : List Char} {column head : Nat} {allowed : Bool}
  {found tokens : List Token} {columns : List Nat} {next : Option Nat} {lexer : Lexer}
  {pause later : Pause} {fuel : Nat}

theorem Lexer.At.advance (here : lexer.At (chars ++ rest) pause.column pause.fresh found columns)
    (paused : pause.after? chars = some later) :
    ((lexer.advance chars.length).allow later.fresh).At rest later.column later.fresh found
      columns where
  ahead_eq := Cursor.ahead_steps_append here.ahead_eq
  column_eq := Pause.column_steps here.ahead_eq here.column_eq paused
  allowed_eq := rfl
  found_eq := here.found_eq
  columns_eq := here.columns_eq
  outer := here.outer
  optional := here.optional

/-- A pause is gone past. -/
theorem yields_pause (yields : Yields rest later.column later.fresh found columns tokens)
    (begun : pause.comment = false) (paused : pause.after? chars = some later)
    (complete : later.comment = false ∨ rest = []) :
    Yields (chars ++ rest) pause.column pause.fresh found columns tokens := by
  intro lexer fuel here enough
  have there := here.advance paused
  have skipped :=
    Lexer.skip_append here.outer here.ahead_eq here.allowed_eq begun paused complete
  rw [List.length_append] at enough
  obtain ⟨fuel, rfl⟩ := Nat.exists_eq_succ_of_ne_zero (Nat.ne_zero_of_lt enough)
  rw [Lexer.run_of_skip_eq skipped (by rw [here.ahead_eq, List.length_append]; omega)
    (by rw [there.ahead_eq]; omega)]
  exact yields _ _ there (by omega)

theorem yields_end : Yields [] column allowed found columns
    (found ++ columns.map fun _ => .blockEnd) := by
  intro lexer fuel here enough
  obtain ⟨fuel, rfl⟩ := Nat.exists_eq_succ_of_ne_zero (Nat.ne_zero_of_lt enough)
  rw [Lexer.run_end here.ahead_eq here.outer here.optional, here.found_eq, here.columns_eq]

/-- A pause behind a value leads to what follows. -/
theorem Proceeds.yields (proceeds : Proceeds rest next found columns tokens)
    (proper : isEnding next ending = true) (column : Nat) :
    Yields (ending ++ rest) column false found columns tokens := by
  obtain ⟨later, paused, leads⟩ := exists_after?_of_isEnding proper column
  match next with
  | none =>
      obtain ⟨rfl, rfl⟩ := proceeds
      exact yields_pause yields_end rfl paused (.inr rfl)
  | some column =>
      obtain rfl := leads column rfl
      exact yields_pause proceeds.2 rfl paused (.inl rfl)

/-- A token to the left of the innermost mapping closes it. -/
theorem Proceeds.dedent
    (proceeds : Proceeds rest next (found ++ [.blockEnd]) columns tokens)
    (left : next.all (· < head) = true) : Proceeds rest next found (head :: columns) tokens := by
  match next with
  | none =>
      obtain ⟨rfl, rfl⟩ := proceeds
      exact ⟨rfl, List.append_assoc ..⟩
  | some column =>
      obtain ⟨token, yields⟩ := proceeds
      refine ⟨token, fun lexer fuel here enough => ?_⟩
      obtain ⟨fuel, rfl⟩ := Nat.exists_eq_succ_of_ne_zero (Nat.ne_zero_of_lt enough)
      rw [Lexer.run_dedent (here.ahead_eq ▸ token) here.outer here.columns_eq
        (here.column_eq ▸ of_decide_eq_true left)]
      refine yields _ _ ⟨here.ahead_eq, here.column_eq, here.allowed_eq, ?_, rfl, here.outer,
        here.optional⟩ enough
      change lexer.found.push .blockEnd = _
      rw [here.found_eq, List.push_toArray]

/-! ### Scalars -/

theorem unspaced_of_token (token : startsToken rest = true) :
    ∀ char ∈ rest.head?, (isGap char || isBreak char) = false := by
  match rest with
  | char :: more =>
      rintro _ ⟨⟩
      simp only [startsToken, Bool.not_eq_true', Bool.or_eq_false_iff] at token
      simp only [token, Bool.or_self]

/-- What ends a pause inside a pause is the mark of a comment. -/
theorem eq_hash_of_step? {char : Char} (begun : pause.comment = false)
    (unspaced : (isGap char || isBreak char) = false) (stepped : pause.step? char = some later) :
    char = '#' := by
  obtain ⟨gap, broken⟩ := Bool.or_eq_false_iff.mp unspaced
  have other : char ≠ ' ' ∧ char ≠ '\t' := by simpa [isGap] using gap
  by_contra mark
  unfold Pause.step? at stepped
  simp [begun, broken, other, mark] at stepped

/-- Behind the pause after a value the text ends, or a token stands in a new line. -/
theorem Proceeds.ended {indent : Nat} (proceeds : Proceeds rest next found columns tokens)
    (left : next.all (· < indent) = true)
    (leads : ∀ column, next = some column → later = ⟨false, true, column⟩) :
    rest = [] ∨ startsToken rest = true ∧ later.column < indent ∧ later.fresh = true := by
  match next with
  | none => exact .inl proceeds.1
  | some column =>
      obtain rfl := leads column rfl
      exact .inr ⟨proceeds.1, of_decide_eq_true left, rfl⟩

theorem Proceeds.endsWord (proceeds : Proceeds rest next found columns tokens)
    (proper : isEnding next ending = true) : endsWord (ending ++ rest) = true := by
  obtain ⟨later, paused, leads⟩ := exists_after?_of_isEnding proper 0
  match ending with
  | [] =>
      cases paused
      match next with
      | none =>
          obtain rfl := proceeds.1
          rfl
      | some column => cases leads column rfl
  | char :: more =>
      rw [isEnding, Bool.and_eq_true] at proper
      exact proper.1

/-- What follows a value does not continue it. -/
theorem Proceeds.follows {indent : Nat} (proceeds : Proceeds rest next found columns tokens)
    (proper : isEnding next ending = true) (left : next.all (· < indent) = true) (column : Nat) :
    Follows indent column (ending ++ rest) := by
  obtain ⟨later, paused, leads⟩ := exists_after?_of_isEnding proper column
  have ended := proceeds.ended left leads
  have stops : ∀ char ∈ rest.head?, (isGap char || isBreak char) = false := by
    obtain rfl | ⟨token, -⟩ := ended
    · nofun
    · exact unspaced_of_token token
  constructor
  · rw [proceeds.endsWord proper, Bool.true_or]
  · have split_eq : leadingRun ending ++ afterRun ending = ending :=
      List.takeWhile_append_dropWhile
    match stop : afterRun ending with
    | [] =>
        rw [stop, List.append_nil] at split_eq
        obtain ⟨run_eq, after_eq⟩ := run_append (split_eq ▸ spaces_leadingRun ending) stops
        rw [run_eq, after_eq]
        exact ⟨later, paused, ended.imp_right fun fresh => .inr (.inr fresh.2.1)⟩
    | char :: more =>
        have unspaced : (isGap char || isBreak char) = false := by
          have head := List.head?_dropWhile_not (fun char => isGap char || isBreak char) ending
          unfold afterRun at stop
          rw [stop] at head
          exact head
        rw [stop] at split_eq
        have stops :
            ∀ next ∈ (char :: more ++ rest).head?, (isGap next || isBreak next) = false := by
          rintro _ ⟨⟩
          exact unspaced
        obtain ⟨run_eq, after_eq⟩ := run_append (spaces_leadingRun ending) stops
        rw [← List.append_assoc, split_eq] at run_eq after_eq
        rw [← split_eq] at paused
        obtain ⟨middle, run_paused, paused⟩ := Pause.exists_after? paused
        obtain ⟨further, stepped, -⟩ := Option.bind_eq_some_iff.mp paused
        have begun := (run_of_pause 0 (spaces_leadingRun ending) run_paused).2.1
        rw [run_eq, after_eq]
        exact ⟨middle, run_paused, .inr (.inl (congrArg some
          (eq_hash_of_step? begun unspaced stepped)))⟩

theorem Lexer.At.margin_le (here : lexer.At ahead column allowed found columns)
    (closed : columns.head?.all (· ≤ column) = true) : lexer.margin ≤ lexer.cursor.column + 1 := by
  rw [Lexer.margin, here.columns_eq, here.column_eq]
  match columns with
  | [] => exact Nat.zero_le _
  | head :: columns => exact Nat.succ_le_succ (of_decide_eq_true closed)

/-- Where a scalar was read, as far as its pause, nothing but its token is new. -/
theorem Lexer.At.past {spelling : Spelling} {saved : Lexer}
    (here : saved.At (spelling.text ++ rest) column allowed found columns)
    (proper : spelling.isProper = true) :
    (saved.past spelling).At rest (column + spelling.text.length) false
      (found ++ [spelling.token]) columns where
  ahead_eq := Cursor.ahead_steps_append here.ahead_eq
  column_eq := by
    change (saved.cursor.steps spelling.text.length).column = _
    rw [Cursor.steps_of_unbroken here.ahead_eq (Spelling.unbroken_text proper), here.column_eq]
  allowed_eq := rfl
  found_eq := by
    change saved.found.push spelling.token = _
    rw [here.found_eq, List.push_toArray]
  columns_eq := here.columns_eq
  outer := here.outer
  optional := here.optional

/-- To the right of the innermost mapping nothing has to be a key. -/
theorem Lexer.At.exists_saved (here : lexer.At ahead column allowed found columns)
    (inside : columns.head? ≠ some column) :
    ∃ saved, lexer.saveKey = some saved ∧ saved.At ahead column allowed found columns := by
  by_cases allowed_here : lexer.keysAllowed = true
  · refine ⟨_, Lexer.saveKey_of_allowed allowed_here here.optional, here.ahead_eq, here.column_eq,
      here.allowed_eq, here.found_eq, here.columns_eq, here.outer, ?_⟩
    simp [here.columns_eq, here.column_eq, inside]
  · exact ⟨lexer, if_neg allowed_here, here⟩

/-- Behind a scalar only what follows it counts. -/
theorem Lexer.StandsPast.run_eq {after saved : Lexer} {spelling : Spelling}
    (stands : after.StandsPast saved spelling rest)
    (ahead : saved.cursor.ahead = spelling.text ++ rest) (enough : rest.length < fuel) :
    run fuel after = run fuel (saved.past spelling) := by
  obtain ⟨fuel, rfl⟩ := Nat.exists_eq_succ_of_ne_zero (Nat.ne_zero_of_lt enough)
  have there : (saved.past spelling).cursor.ahead = rest := Cursor.ahead_steps_append ahead
  refine run_of_skip_eq stands.skip_eq (Nat.le_trans stands.shorter (Nat.le_of_lt_succ enough)) ?_
  rw [there]
  exact Nat.le_of_lt_succ enough

theorem yields_scalar {spelling : Spelling} (proper : spelling.isProper = true)
    (right : head < column) (ends : isEnding next ending = true) (left : next.all (· ≤ head) = true)
    (proceeds : Proceeds rest next (found ++ [spelling.token]) (head :: columns) tokens) :
    Yields (spelling.text ++ (ending ++ rest)) column allowed found (head :: columns) tokens := by
  intro lexer fuel here enough
  obtain ⟨fuel, rfl⟩ := Nat.exists_eq_succ_of_ne_zero (Nat.ne_zero_of_lt enough)
  have token := spelling.startsToken_text proper (ending ++ rest)
  have closed : (head :: columns).head?.all (· ≤ column) = true :=
    decide_eq_true (Nat.le_of_lt right)
  obtain ⟨saved, saves, at_saved⟩ := here.exists_saved fun same =>
    Nat.ne_of_lt right (Option.some.inj same)
  have margin_eq : lexer.margin = head + 1 := by rw [Lexer.margin, here.columns_eq]; rfl
  have follows : Follows lexer.margin (lexer.cursor.column + spelling.text.length)
      (ending ++ rest) := by
    refine proceeds.follows ends ?_ _
    rw [margin_eq]
    simpa [Nat.lt_succ_iff] using left
  have inside : lexer.cursor.column ≠ 0 := by
    rw [here.column_eq]
    exact Nat.ne_zero_of_lt right
  obtain ⟨after, read, stands⟩ := Lexer.readToken_spelling proper here.ahead_eq here.outer
    (Cursor.atSeparator_of_inside inside) (here.margin_le closed) follows
    (by rw [here.ahead_eq]; exact enough) saves
  have shorter : (ending ++ rest).length < fuel := by
    have filled := List.length_pos_iff.mpr (Spelling.text_ne_nil proper)
    rw [List.length_append] at enough
    omega
  rw [Lexer.run_token (here.ahead_eq ▸ token)
      (by rw [here.columns_eq, here.column_eq]; exact closed),
    read, Option.bind_some, stands.run_eq at_saved.ahead_eq shorter]
  exact proceeds.yields ends _ _ _ (at_saved.past proper) shorter

/-! ### Empty mappings -/

theorem Lexer.At.readToken_brace (here : lexer.At ('\x7b' :: rest) column allowed found columns)
    (inside : columns.head? ≠ some column) :
    ∃ saved : Lexer, saved.At ('\x7b' :: rest) column allowed found columns ∧
      lexer.readToken fuel = some { ((saved.emit .flowMapping).advance 1).allow true with
        key := none, outerKeys := [saved.key] } := by
  obtain ⟨saved, saves, at_saved⟩ := here.exists_saved inside
  refine ⟨saved, at_saved, ?_⟩
  have dispatched : lexer.readToken fuel = lexer.openFlow .flowMapping := by
    unfold readToken Cursor.atDocumentStart Cursor.atDocumentEnd Cursor.startsLine Cursor.next?
    simp [here.ahead_eq]
  rw [dispatched, openFlow, saves, Option.bind_eq_bind, Option.bind_some, at_saved.outer]
  rfl

theorem readToken_closing {key : Option PossibleKey} {opened : Lexer}
    (ahead : opened.cursor.ahead = '\x7d' :: rest) (none_saved : opened.key = none)
    (outer : opened.outerKeys = [key]) : opened.readToken fuel =
      some { ((opened.emit .flowMappingEnd).advance 1).allow false with
        key := key, outerKeys := [] } := by
  have dispatched : opened.readToken fuel = opened.closeFlow .flowMappingEnd := by
    unfold Lexer.readToken Cursor.atDocumentStart Cursor.atDocumentEnd Cursor.startsLine
      Cursor.next?
    simp [ahead]
  rw [dispatched, Lexer.closeFlow, Lexer.dropKey, none_saved]
  simp [Lexer.emit, Lexer.advance, Lexer.allow, outer]

theorem yields_braces (closed : columns.head?.all (· < column) = true)
    (ends : isEnding next ending = true)
    (proceeds : Proceeds rest next (found ++ [.flowMapping, .flowMappingEnd]) columns tokens) :
    Yields ('\x7b' :: '\x7d' :: (ending ++ rest)) column allowed found columns tokens := by
  intro lexer fuel here enough
  obtain ⟨fuel, rfl⟩ : ∃ count, fuel = count + 2 :=
    ⟨fuel - 2, by rw [List.length_cons, List.length_cons] at enough; omega⟩
  have inside : columns.head? ≠ some column := by
    intro same
    rw [same] at closed
    exact Nat.lt_irrefl _ (of_decide_eq_true closed)
  have closed_le : columns.head?.all (· ≤ column) = true := by
    match columns with
    | [] => rfl
    | head :: columns => exact decide_eq_true (Nat.le_of_lt (of_decide_eq_true closed))
  obtain ⟨saved, at_saved, read⟩ := here.readToken_brace inside
  have past_eq := Cursor.step_of_unbroken at_saved.ahead_eq rfl
  rw [Lexer.run_token (by rw [here.ahead_eq]; rfl)
    (by rw [here.columns_eq, here.column_eq]; exact closed_le), read, Option.bind_some]
  generalize opened_eq : ({ ((saved.emit .flowMapping).advance 1).allow true with
    key := none, outerKeys := [saved.key] } : Lexer) = opened
  have cursor_eq : opened.cursor = saved.cursor.step := by rw [← opened_eq]; rfl
  have ahead_eq : opened.cursor.ahead = '\x7d' :: (ending ++ rest) := by rw [cursor_eq, past_eq]
  have columns_eq : opened.columns = columns := by rw [← opened_eq]; exact at_saved.columns_eq
  have column_eq : opened.cursor.column = column + 1 := by
    rw [cursor_eq, past_eq, at_saved.column_eq]
  have right : opened.columns.head?.all (· ≤ opened.cursor.column) = true := by
    rw [columns_eq, column_eq]
    match columns with
    | [] => rfl
    | head :: columns => exact decide_eq_true (Nat.le_succ_of_le (of_decide_eq_true closed_le))
  rw [Lexer.run_token (by rw [ahead_eq]; rfl) right,
    readToken_closing ahead_eq (by rw [← opened_eq]) (by rw [← opened_eq]), Option.bind_some]
  refine proceeds.yields ends _ _ _ ⟨?_, rfl, rfl, ?_, columns_eq, rfl, at_saved.optional⟩ ?_
  · change opened.cursor.step.ahead = _
    rw [Cursor.ahead_step, ahead_eq, List.tail_cons]
  · change opened.found.push .flowMappingEnd = _
    rw [← opened_eq]
    change (saved.found.push .flowMapping).push .flowMappingEnd = _
    rw [at_saved.found_eq]
    simp
  · simp only [List.length_cons] at enough
    omega

/-- What stands behind a key and its colon is read. -/
theorem yields_content {content : Content} (proper : content.isProper head = true)
    (right : head < column) (ends : isEnding next ending = true) (left : next.all (· ≤ head) = true)
    (proceeds : Proceeds rest next (found ++ content.tokens) (head :: columns) tokens) :
    Yields (content.text ++ (ending ++ rest)) column false found (head :: columns) tokens := by
  cases content with
  | nothing =>
      rw [Content.tokens, List.append_nil] at proceeds
      exact proceeds.yields ends column
  | braces lead =>
      obtain ⟨later, paused, ended, inside⟩ := exists_after?_of_isLead proper right
      have closed : (head :: columns).head?.all (· < later.column) = true := decide_eq_true inside
      rw [Content.text, List.append_assoc]
      exact yields_pause (yields_braces closed ends proceeds) rfl paused (.inl ended)
  | scalar lead spelling =>
      rw [Content.isProper, Bool.and_eq_true] at proper
      obtain ⟨later, paused, ended, inside⟩ := exists_after?_of_isLead proper.1 right
      rw [Content.text, List.append_assoc]
      exact yields_pause (yields_scalar proper.2 inside ends left proceeds) rfl paused (.inl ended)

/-! ### Keys -/

/-- Whether a key at a column opens a mapping there, or one is open already: the open collections in
front of the key, and the tokens in front of those of the key. -/
inductive Opens (column : Nat) (columns : List Nat) : List Nat → List Token → Prop where
  | already : Opens column columns (column :: columns) []
  | anew (right : columns.head?.all (· < column) = true) :
      Opens column columns columns [.blockMapping]

theorem Opens.closed {stack : List Nat} {opening : List Token}
    (opens : Opens column columns stack opening) : stack.head?.all (· ≤ column) = true := by
  cases opens with
  | already => exact decide_eq_true (Nat.le_refl _)
  | anew right =>
      match columns with
      | [] => rfl
      | head :: columns => exact decide_eq_true (Nat.le_of_lt (of_decide_eq_true right))

theorem isPrefixOf_of_append {word text : List Char} (filled : rest ≠ [])
    (apart : ∀ char ∈ rest.head?, char ∉ word) (starts : word.isPrefixOf (text ++ rest) = true) :
    word.isPrefixOf text = true := by
  induction word generalizing text with
  | nil => rfl
  | cons char word ih =>
      cases text with
      | nil =>
          obtain ⟨next, more, rfl⟩ := List.exists_cons_of_ne_nil filled
          simp only [List.nil_append, List.isPrefixOf, Bool.and_eq_true, beq_iff_eq] at starts
          exact (apart next rfl (starts.1 ▸ List.mem_cons_self)).elim
      | cons next text =>
          simp only [List.cons_append, List.isPrefixOf, Bool.and_eq_true] at starts ⊢
          exact ⟨starts.1, ih (fun char first among => apart char first (.tail _ among)) starts.2⟩

theorem insertIdx_append (found others : List Token) (token : Token) :
    (found ++ others).insertIdx found.length token = found ++ token :: others := by
  induction found with
  | nil => rfl
  | cons first found ih => exact congrArg (first :: ·) ih

theorem Lexer.readColon_of_key {key : PossibleKey} (saved : lexer.key = some key)
    (timely : key.isStale lexer.cursor = false) :
    lexer.readColon =
      some (((({ lexer with
        found := lexer.found.insertIdxIfInBounds key.number .key
        key := none }.openBlock key.start.column key.number .blockMapping).emit
          .value).advance 1).allow false) := by
  rw [readColon, saved]
  simp [timely]

theorem Lexer.openBlock_already {number : Nat} {token : Token}
    (columns_eq : lexer.columns = column :: columns) :
    lexer.openBlock column number token = lexer := by
  unfold openBlock
  rw [if_pos (by simp [columns_eq])]

theorem Lexer.openBlock_anew {number : Nat} {token : Token} (outer : lexer.outerKeys = [])
    (right : lexer.columns.head?.all (· < column) = true) :
    lexer.openBlock column number token = { lexer with
      columns := column :: lexer.columns
      found := lexer.found.insertIdxIfInBounds number token } := by
  unfold openBlock
  rw [if_neg (by simp [Lexer.inFlow, outer, right])]

/-- The colon of a key puts the tokens of the key in front of the scalar. -/
theorem Lexer.exists_readColon {stack : List Nat} {opening : List Token} {scalar : Token}
    {key : PossibleKey} (opens : Opens column columns stack opening)
    (ahead_eq : lexer.cursor.ahead = ':' :: rest)
    (found_eq : lexer.found = (found ++ [scalar]).toArray) (columns_eq : lexer.columns = stack)
    (outer : lexer.outerKeys = []) (saved : lexer.key = some key)
    (number_eq : key.number = found.length) (start_eq : key.start.column = column)
    (timely : key.isStale lexer.cursor = false) :
    ∃ after : Lexer, lexer.readColon = some after ∧
      after.At rest (lexer.cursor.column + 1) false (found ++ opening ++ [.key, scalar, .value])
        (column :: columns) := by
  have past_eq := Cursor.step_of_unbroken ahead_eq rfl
  have ahead_over : lexer.cursor.step.ahead = rest := by rw [past_eq]
  have column_over : lexer.cursor.step.column = lexer.cursor.column + 1 := by rw [past_eq]
  have marked : lexer.found.insertIdxIfInBounds found.length .key =
      (found ++ [.key, scalar]).toArray := by
    rw [found_eq, List.insertIdxIfInBounds_toArray, insertIdx_append]
  refine ⟨_, readColon_of_key saved timely, ?_⟩
  rw [number_eq, start_eq, marked]
  cases opens with
  | already =>
      rw [openBlock_already (by exact columns_eq)]
      refine ⟨ahead_over, column_over, rfl, ?_, columns_eq, outer, rfl⟩
      change (found ++ [.key, scalar]).toArray.push .value = _
      simp
  | anew right =>
      rw [openBlock_anew (by exact outer) (by rw [columns_eq]; exact right)]
      refine ⟨ahead_over, column_over, rfl, ?_, congrArg _ columns_eq, outer, rfl⟩
      change ((found ++ [.key, scalar]).toArray.insertIdxIfInBounds found.length
        .blockMapping).push .value = _
      rw [List.insertIdxIfInBounds_toArray, insertIdx_append]
      simp

theorem Key.atSeparator {key : Key} {cursor : Cursor} (proper : key.isProper = true)
    (ahead : cursor.ahead = key.spelling.text ++ (key.gap ++ ':' :: rest)) :
    cursor.atSeparator = false := by
  simp only [Key.isProper, Bool.and_eq_true, Bool.not_eq_true'] at proper
  obtain ⟨⟨⟨⟨-, no_start⟩, no_end⟩, gaps⟩, -⟩ := proper
  have apart : ∀ char ∈ (key.gap ++ ':' :: rest).head?, char ≠ '-' ∧ char ≠ '.' := by
    cases gap : key.gap with
    | nil =>
        rintro _ ⟨⟩
        decide
    | cons char more =>
        rintro _ ⟨⟩
        rw [gap, List.all_cons, Bool.and_eq_true] at gaps
        obtain rfl | rfl : char = ' ' ∨ char = '\t' := by simpa [isGap] using gaps.1
        · decide
        · decide
  have filled : key.gap ++ ':' :: rest ≠ [] :=
    List.append_ne_nil_of_right_ne_nil _ (List.cons_ne_nil _ _)
  have start : ['-', '-', '-'].isPrefixOf cursor.ahead = false := by
    by_contra starts
    rw [ahead, Bool.not_eq_false] at starts
    rw [isPrefixOf_of_append filled (fun char first => by simp [apart char first]) starts]
      at no_start
    cases no_start
  have stop : ['.', '.', '.'].isPrefixOf cursor.ahead = false := by
    by_contra starts
    rw [ahead, Bool.not_eq_false] at starts
    rw [isPrefixOf_of_append filled (fun char first => by simp [apart char first]) starts] at no_end
    cases no_end
  rw [Cursor.atSeparator, Cursor.atDocumentStart, Cursor.atDocumentEnd, Cursor.startsLine,
    Cursor.startsLine, start, stop]
  simp

/-- A key is not continued by its colon. -/
theorem Key.follows {key : Key} (proper : key.isProper = true) (ends : endsWord rest = true)
    (indent column : Nat) : Follows indent column (key.gap ++ ':' :: rest) := by
  simp only [Key.isProper, Bool.and_eq_true] at proper
  obtain ⟨⟨-, gaps⟩, -⟩ := proper
  have colon : ∀ char ∈ (':' :: rest).head?, (isGap char || isBreak char) = false := by
    rintro _ ⟨⟩
    rfl
  obtain ⟨run_eq, after_eq⟩ := run_append (space_of_gaps gaps) colon
  constructor
  · match gap : key.gap with
    | [] => exact ends
    | char :: more =>
        rw [gap, List.all_cons, Bool.and_eq_true] at gaps
        exact Bool.or_eq_true _ _ ▸ .inl (Bool.or_eq_true _ _ ▸ .inl gaps.1)
  · rw [run_eq, after_eq]
    exact ⟨_, after?_of_gaps gaps, .inr (.inr (.inl ends))⟩

theorem readToken_colon (ahead_eq : lexer.cursor.ahead = ':' :: rest)
    (ends : endsWord rest = true) : lexer.readToken fuel = lexer.readColon := by
  unfold Lexer.readToken Cursor.atDocumentStart Cursor.atDocumentEnd Cursor.startsLine Cursor.next?
  simp [ahead_eq, ends]

/-- Where a lexer stands behind the scalar of a key that starts at a cursor. -/
structure Lexer.Awaits (lexer : Lexer) (key : Key) (start : Cursor) (rest : List Char)
    (found : List Token) (stack : List Nat) : Prop where
  cursor_eq : lexer.cursor = ⟨key.gap ++ ':' :: rest, start.line,
    start.column + key.spelling.text.length, start.index + byteSize key.spelling.text⟩
  allowed_eq : lexer.keysAllowed = false
  found_eq : lexer.found = (found ++ [key.spelling.token]).toArray
  columns_eq : lexer.columns = stack
  outer : lexer.outerKeys = []
  key_eq : ∃ required, lexer.key = some ⟨required, found.length, start⟩

section Awaits

variable {key : Key} {start : Cursor} {stack : List Nat}

/-- The colon stands behind the gap. -/
theorem Lexer.Awaits.advance (awaits : lexer.Awaits key start rest found stack)
    (gaps : key.gap.all isGap = true) :
    ((lexer.advance key.gap.length).allow false).cursor = ⟨':' :: rest, start.line,
      start.column + key.spelling.text.length + key.gap.length,
      start.index + byteSize (key.spelling.text ++ key.gap)⟩ := by
  have ahead_eq : lexer.cursor.ahead = key.gap ++ ':' :: rest := by rw [awaits.cursor_eq]
  change lexer.cursor.steps key.gap.length = _
  rw [Cursor.steps_of_unbroken ahead_eq fun gap among =>
    isBreak_of_isGap (List.all_eq_true.mp gaps gap among), awaits.cursor_eq, byteSize_append,
    Nat.add_assoc, Nat.add_assoc]

/-- The colon comes soon enough. -/
theorem Lexer.Awaits.timely (awaits : lexer.Awaits key start rest found stack)
    (proper : key.isProper = true) (required : Bool) :
    PossibleKey.isStale ⟨required, found.length, start⟩
      ((lexer.advance key.gap.length).allow false).cursor = false := by
  simp only [Key.isProper, Bool.and_eq_true, decide_eq_true_eq] at proper
  obtain ⟨⟨-, gaps⟩, short⟩ := proper
  rw [awaits.advance gaps, PossibleKey.isStale, Bool.or_eq_false_iff]
  refine ⟨decide_eq_false (Nat.lt_irrefl _), decide_eq_false ?_⟩
  rw [Nat.add_lt_add_iff_left, Nat.not_lt]
  exact short

/-- The colon of a key that was possible makes it one. -/
theorem Lexer.Awaits.run_eq {opening : List Token}
    (awaits : lexer.Awaits key start rest found stack) (proper : key.isProper = true)
    (ends : endsWord rest = true) (start_eq : start.column = column)
    (opens : Opens column columns stack opening)
    (yields : Yields rest (column + key.text.length) false (found ++ opening ++ key.tokens)
      (column :: columns) tokens)
    (enough : (key.gap ++ ':' :: rest).length ≤ fuel) :
    run (fuel + 1) lexer = some tokens.toArray := by
  obtain ⟨required, key_eq⟩ := awaits.key_eq
  have timely := awaits.timely proper required
  simp only [Key.isProper, Bool.and_eq_true, decide_eq_true_eq] at proper
  obtain ⟨⟨-, gaps⟩, -⟩ := proper
  have ahead_eq : lexer.cursor.ahead = key.gap ++ ':' :: rest := by rw [awaits.cursor_eq]
  have paused : Pause.after? ⟨false, false, 0⟩ key.gap =
      some ⟨false, false, 0 + key.gap.length⟩ := after?_of_gaps gaps
  have skipped : lexer.skip = ((lexer.advance key.gap.length).allow false).skip :=
    skip_append awaits.outer ahead_eq awaits.allowed_eq rfl paused (.inl rfl)
  have past_eq := awaits.advance gaps
  have ahead_over : ((lexer.advance key.gap.length).allow false).cursor.ahead = ':' :: rest := by
    rw [past_eq]
  have column_over : ((lexer.advance key.gap.length).allow false).cursor.column =
      start.column + key.spelling.text.length + key.gap.length := by rw [past_eq]
  have closed : ((lexer.advance key.gap.length).allow false).columns.head?.all
      (· ≤ ((lexer.advance key.gap.length).allow false).cursor.column) = true := by
    have columns_eq : ((lexer.advance key.gap.length).allow false).columns = stack :=
      awaits.columns_eq
    have left := opens.closed
    rw [columns_eq, column_over]
    cases stack with
    | nil => rfl
    | cons head stack =>
        have le : head ≤ column := of_decide_eq_true left
        exact decide_eq_true (by omega)
  rw [run_of_skip_eq skipped (by rw [ahead_eq]; exact enough) (by
      rw [ahead_over]
      rw [List.length_append] at enough
      omega),
    run_token (by rw [ahead_over]; rfl) closed, readToken_colon ahead_over ends]
  obtain ⟨after, read, there⟩ := exists_readColon opens ahead_over awaits.found_eq
    awaits.columns_eq awaits.outer key_eq rfl start_eq timely
  have column_eq : ((lexer.advance key.gap.length).allow false).cursor.column + 1 =
      column + key.text.length := by
    rw [column_over, start_eq, Key.text, List.length_append, List.length_append,
      List.length_singleton]
    omega
  rw [column_eq] at there
  rw [read, Option.bind_some]
  refine yields after fuel there ?_
  rw [List.length_append, List.length_cons] at enough
  omega

end Awaits

/-- A key is read with its colon. -/
theorem yields_key {key : Key} {stack : List Nat} {opening : List Token}
    (proper : key.isProper = true) (ends : endsWord rest = true)
    (opens : Opens column columns stack opening)
    (yields : Yields rest (column + key.text.length) false (found ++ opening ++ key.tokens)
      (column :: columns) tokens) :
    Yields (key.text ++ rest) column true found stack tokens := by
  have text_eq : key.text ++ rest = key.spelling.text ++ (key.gap ++ ':' :: rest) := by
    simp [Key.text]
  intro lexer fuel here enough
  rw [text_eq] at here enough
  have spelled : key.spelling.isProper = true := by
    simp only [Key.isProper, Bool.and_eq_true] at proper
    exact proper.1.1.1.1
  have filled := List.length_pos_iff.mpr (Spelling.text_ne_nil spelled)
  obtain ⟨fuel, rfl⟩ : ∃ count, fuel = count + 2 := ⟨fuel - 2, by
    simp only [List.length_append, List.length_cons] at enough
    omega⟩
  have shorter : (key.gap ++ ':' :: rest).length < fuel + 1 := by
    rw [List.length_append] at enough
    omega
  have closed : lexer.columns.head?.all (· ≤ lexer.cursor.column) = true := by
    rw [here.columns_eq, here.column_eq]
    exact opens.closed
  have saves := Lexer.saveKey_of_allowed here.allowed_eq here.optional
  obtain ⟨after, read, stands⟩ := Lexer.readToken_spelling spelled here.ahead_eq here.outer
    (Key.atSeparator proper here.ahead_eq) (here.margin_le opens.closed)
    (Key.follows proper ends _ _) (by rw [here.ahead_eq]; exact enough) saves
  rw [Lexer.run_token (by rw [here.ahead_eq]; exact key.spelling.startsToken_text spelled _) closed,
    read, Option.bind_some, stands.run_eq here.ahead_eq shorter]
  refine Lexer.Awaits.run_eq
    ⟨Cursor.steps_of_unbroken here.ahead_eq (Spelling.unbroken_text spelled), rfl, ?_,
      here.columns_eq, here.outer, ?_⟩
    proper ends here.column_eq opens yields (Nat.le_of_lt_succ shorter)
  · change lexer.found.push key.spelling.token = _
    rw [here.found_eq, List.push_toArray]
  · exact ⟨_, by
      rw [Lexer.past, here.found_eq]
      rfl⟩

theorem startsToken_key {key : Key} (proper : key.isProper = true) (rest : List Char) :
    startsToken (key.text ++ rest) = true := by
  simp only [Key.isProper, Bool.and_eq_true] at proper
  rw [Key.text, List.append_assoc, List.append_assoc]
  exact key.spelling.startsToken_text proper.1.1.1.1 _

/-! ### Mappings -/

theorem endsWord_content {content : Content} (proper : content.isProper column = true)
    (ends : endsWord rest = true) : endsWord (content.text ++ rest) = true := by
  have lead_ends {lead more : List Char} (lead_proper : isLead column lead = true) :
      endsWord (lead ++ more) = true := by
    simp only [isLead, Bool.and_eq_true, decide_eq_true_eq] at lead_proper
    obtain ⟨char, others, rfl⟩ := List.exists_cons_of_ne_nil lead_proper.1.1
    exact lead_proper.1.2
  cases content with
  | nothing => exact ends
  | braces lead =>
      rw [Content.text, List.append_assoc]
      exact lead_ends proper
  | scalar lead spelling =>
      rw [Content.isProper, Bool.and_eq_true] at proper
      rw [Content.text, List.append_assoc]
      exact lead_ends proper.1

theorem Block.start_all {holds : Nat → Bool} (block : Block)
    (left : next.all (· < column) = true) (all : ∀ other, other ≤ column → holds other = true) :
    (block.start column next).all holds = true := by
  have none_or_left : next.all holds = true := by
    match next with
    | none => rfl
    | some other => exact all other (Nat.le_of_lt (of_decide_eq_true left))
  cases block with
  | nil => exact none_or_left
  | entry key content ending others => exact all column (Nat.le_refl _)
  | nested key ending inside inner others => exact all column (Nat.le_refl _)

theorem lt_add_key (key : Key) : column < column + key.text.length := by
  rw [Key.text, List.length_append, List.length_singleton]
  omega

/-- A mapping is read to its end, and what follows is read from there. -/
theorem Block.proceeds {stack : List Nat} {opening : List Token} (block : Block)
    (proper : block.isProper column next = true) (left : next.all (· < column) = true)
    (opens : Opens column columns stack opening) (filled : block = nil → opening = [])
    (proceeds : Proceeds rest next (found ++ opening ++ block.tokens) (column :: columns) tokens) :
    Proceeds (block.text ++ rest) (block.start column next) found stack tokens := by
  induction block generalizing column next found columns stack opening rest with
  | nil =>
      obtain rfl := filled rfl
      cases opens
      rw [Block.tokens, List.append_nil, List.append_nil] at proceeds
      exact proceeds
  | entry key content ending others ih =>
      simp only [isProper, Bool.and_eq_true] at proper
      obtain ⟨⟨⟨key_proper, content_proper⟩, ends⟩, others_proper⟩ := proper
      have further : Proceeds (others.text ++ rest) (others.start column next)
          (found ++ opening ++ key.tokens ++ content.tokens) (column :: columns) tokens := by
        refine ih others_proper left .already (fun _ => rfl) ?_
        simpa [Block.tokens] using proceeds
      have behind : (others.start column next).all (· ≤ column) = true :=
        others.start_all left fun other le => decide_eq_true le
      refine ⟨by rw [text, List.append_assoc]; exact startsToken_key key_proper _, ?_⟩
      rw [text, List.append_assoc, List.append_assoc, List.append_assoc]
      refine yields_key key_proper ?_ opens ?_
      · exact endsWord_content content_proper (further.endsWord ends)
      · exact yields_content content_proper (lt_add_key key) ends behind further
  | nested key ending inside inner others ih_inner ih_others =>
      simp only [isProper, Bool.and_eq_true, decide_eq_true_eq] at proper
      obtain ⟨⟨⟨⟨⟨key_proper, right⟩, inner_filled⟩, ends⟩, inner_proper⟩, others_proper⟩ := proper
      have further : Proceeds (others.text ++ rest) (others.start column next)
          (found ++ opening ++ key.tokens ++ [.blockMapping] ++ inner.tokens ++ [.blockEnd])
          (column :: columns) tokens := by
        refine ih_others others_proper left .already (fun _ => rfl) ?_
        simpa [Block.tokens] using proceeds
      have behind : (others.start column next).all (· < inside) = true :=
        others.start_all left fun other le => decide_eq_true (Nat.lt_of_le_of_lt le right)
      have within : Proceeds (inner.text ++ (others.text ++ rest)) (some inside)
          (found ++ opening ++ key.tokens) (column :: columns) tokens := by
        have start_eq : inner.start inside (others.start column next) = some inside := by
          cases inner with
          | nil => exact (inner_filled rfl).elim
          | entry key content ending others => rfl
          | nested key ending inside inner others => rfl
        rw [← start_eq]
        exact ih_inner inner_proper behind (.anew (decide_eq_true right))
          (fun none_inner => (inner_filled none_inner).elim) (further.dedent behind)
      refine ⟨by rw [text, List.append_assoc]; exact startsToken_key key_proper _, ?_⟩
      rw [text, List.append_assoc, List.append_assoc, List.append_assoc]
      exact yields_key key_proper (within.endsWord ends) opens (within.yields ends _)

/-- The tokens of a text that is a mapping. -/
theorem scan?_text (page : Page) (proper : page.isProper = true) :
    Token.scan? page.text = some page.tokens := by
  have begins : Lexer.At { cursor := { ahead := page.text } } page.text 0 true [] [] :=
    ⟨rfl, rfl, rfl, rfl, rfl, rfl, rfl⟩
  have yields : Yields page.text 0 true [] [] page.tokens := by
    cases page with
    | braces lead ending =>
        simp only [Page.isProper, Bool.and_eq_true, Option.any_eq_true, Bool.not_eq_true'] at proper
        obtain ⟨⟨later, paused, ended⟩, ends⟩ := proper
        have inside : Yields ('\x7b' :: '\x7d' :: (ending ++ [])) later.column later.fresh [] []
            [.flowMapping, .flowMappingEnd] := yields_braces rfl ends ⟨rfl, rfl⟩
        rw [List.append_nil] at inside
        exact yields_pause inside rfl paused (.inl ended)
    | block lead column keys =>
        simp only [Page.isProper, Bool.and_eq_true, Option.any_eq_true] at proper
        obtain ⟨⟨later, paused, leads⟩, keys_proper⟩ := proper
        have inside : keys ≠ .nil → Proceeds (keys.text ++ []) (keys.start column none) [] []
            (.blockMapping :: (keys.tokens ++ [.blockEnd])) := fun filled =>
          keys.proceeds keys_proper rfl (.anew rfl) (fun nothing => (filled nothing).elim)
            ⟨rfl, by simp⟩
        rw [List.append_nil] at inside
        cases keys with
        | nil => exact yields_pause yields_end rfl paused (.inr rfl)
        | entry _ _ _ _ | nested _ _ _ _ _ =>
            obtain rfl := of_decide_eq_true leads
            exact yields_pause (inside nofun).2 rfl paused (.inl rfl)
  rw [Token.scan?, yields _ _ begins (Nat.lt_succ_self _)]
  rfl

end Runs

end ImageGallery.Yaml
