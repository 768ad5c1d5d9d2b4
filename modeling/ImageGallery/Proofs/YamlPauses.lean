import ImageGallery.Yaml.Token.Lexer
import Mathlib.Data.List.TakeWhile

/-!
# Pauses in YAML texts

Between two tokens stand blanks, comments and line breaks. They mean nothing but for the column that
they lead to, and for whether they end a line, after which a key may start. The tokens that a lexer
finds from somewhere on depend on the place that the pause there leads to, and not on the pause.
-/

namespace ImageGallery.Yaml

/-! ## Going past characters -/

/-- The number of bytes that characters take. -/
def byteSize : List Char → Nat
  | [] => 0
  | char :: chars => char.utf8Size + byteSize chars

theorem byteSize_append (chars more : List Char) :
    byteSize (chars ++ more) = byteSize chars + byteSize more := by
  induction chars with
  | nil => exact (Nat.zero_add _).symm
  | cons char chars ih => rw [List.cons_append, byteSize, byteSize, ih, Nat.add_assoc]

namespace Cursor

variable {cursor : Cursor} {chars rest : List Char}

@[simp]
theorem ahead_step (cursor : Cursor) : cursor.step.ahead = cursor.ahead.tail := by
  unfold step
  split
  · next nothing => rw [nothing, List.tail_nil]
  · next char ahead ahead_eq =>
      rw [ahead_eq]
      split <;> rfl

theorem steps_add (cursor : Cursor) (first second : Nat) :
    cursor.steps (first + second) = (cursor.steps first).steps second := by
  induction first generalizing cursor with
  | zero => rw [Nat.zero_add, steps]
  | succ first ih => rw [Nat.succ_add, steps, ih, steps]

theorem ahead_steps (cursor : Cursor) (count : Nat) :
    (cursor.steps count).ahead = cursor.ahead.drop count := by
  induction count generalizing cursor with
  | zero => rfl
  | succ count ih => rw [steps, ih, ahead_step, List.drop_tail]

theorem ahead_steps_append (ahead : cursor.ahead = chars ++ rest) :
    (cursor.steps chars.length).ahead = rest := by
  rw [ahead_steps, ahead, List.drop_left]

theorem step_of_break {char : Char} (ahead : cursor.ahead = char :: rest)
    (broken : isBreak char = true) :
    cursor.step = ⟨rest, cursor.line + 1, 0, cursor.index + char.utf8Size⟩ := by
  unfold step
  rw [ahead]
  simp only [broken, if_true]

theorem step_of_unbroken {char : Char} (ahead : cursor.ahead = char :: rest)
    (unbroken : isBreak char = false) :
    cursor.step =
      ⟨rest, cursor.line, cursor.column + 1, cursor.index + char.utf8Size⟩ := by
  unfold step
  rw [ahead]
  simp only [unbroken, Bool.false_eq_true, if_false]

/-- Within a line each character takes one column. -/
theorem steps_of_unbroken (ahead : cursor.ahead = chars ++ rest)
    (unbroken : ∀ char ∈ chars, isBreak char = false) :
    cursor.steps chars.length =
      ⟨rest, cursor.line, cursor.column + chars.length, cursor.index + byteSize chars⟩ := by
  induction chars generalizing cursor with
  | nil =>
      cases cursor
      cases ahead
      rfl
  | cons char chars ih =>
      rw [List.forall_mem_cons] at unbroken
      rw [List.length_cons, steps, step_of_unbroken ahead unbroken.1, ih rfl unbroken.2,
        byteSize, Nat.add_assoc, Nat.add_assoc, Nat.add_comm 1]

end Cursor

/-! ## Pauses -/

/-- Where a reader of blanks, comments and line breaks stands. -/
structure Pause where
  /-- Whether a comment has begun in the line. -/
  comment : Bool := false
  /-- Whether a key may start here. -/
  fresh : Bool
  column : Nat
deriving DecidableEq

namespace Pause

/-- Go past one more character, if it is none of a token. -/
def step? (pause : Pause) (char : Char) : Option Pause :=
  if isBreak char then some ⟨false, true, 0⟩
  else if pause.comment || char = ' ' || (char = '\t' && !pause.fresh) then
    some { pause with column := pause.column + 1 }
  else if char = '#' then some { pause with comment := true, column := pause.column + 1 }
  else none

/-- Go past some characters. -/
def after? (pause : Pause) : List Char → Option Pause
  | [] => some pause
  | char :: chars => (pause.step? char).bind fun later => later.after? chars

variable {pause later last : Pause} {chars more : List Char}

theorem after?_append (pause : Pause) (chars more : List Char) :
    pause.after? (chars ++ more) = (pause.after? chars).bind (·.after? more) := by
  induction chars generalizing pause with
  | nil => rfl
  | cons char chars ih =>
      rw [List.cons_append, after?, after?]
      cases pause.step? char with
      | none => rfl
      | some later => exact ih later

/-- The start of a pause is a pause. -/
theorem exists_after? (paused : pause.after? (chars ++ more) = some last) :
    ∃ later, pause.after? chars = some later ∧ later.after? more = some last :=
  Option.bind_eq_some_iff.mp ((after?_append pause chars more).symm.trans paused)

theorem column_step {cursor : Cursor} {char : Char} (ahead : cursor.ahead = char :: more)
    (column : cursor.column = pause.column) (paused : pause.step? char = some later) :
    cursor.step.column = later.column := by
  unfold step? at paused
  split at paused
  · next broken =>
      cases paused
      rw [Cursor.step_of_break ahead broken]
  · next unbroken =>
      rw [Cursor.step_of_unbroken ahead (Bool.not_eq_true _ ▸ unbroken)]
      split at paused
      · cases paused
        exact congrArg (· + 1) column
      · split at paused
        · cases paused
          exact congrArg (· + 1) column
        · cases paused

/-- Pauses keep to the column of the cursor that goes past them. -/
theorem column_steps {cursor : Cursor} (ahead : cursor.ahead = chars ++ more)
    (column : cursor.column = pause.column) (paused : pause.after? chars = some later) :
    (cursor.steps chars.length).column = later.column := by
  induction chars generalizing cursor pause with
  | nil =>
      cases paused
      exact column
  | cons char chars ih =>
      obtain ⟨next, stepped, paused⟩ := Option.bind_eq_some_iff.mp paused
      refine ih ?_ (column_step ahead column stepped) paused
      rw [Cursor.ahead_step, ahead]
      rfl

end Pause

/-! ## Lexers in a pause -/

/-- Whether a text goes on with a token. -/
def startsToken : List Char → Bool
  | [] => false
  | char :: _ => !(isGap char || isBreak char || char = '#' || char = '\ufeff')

namespace Lexer

variable {lexer other : Lexer} {pause later : Pause} {chars rest : List Char} {fuel : Nat}

theorem skipFrom_of_end {comment : Bool} (ended : lexer.cursor.ahead = []) :
    skipFrom fuel comment lexer = lexer := by
  cases fuel with
  | zero => rfl
  | succ fuel =>
      rw [skipFrom, Cursor.next?, ended]
      rfl

theorem skipFrom_of_token (token : startsToken lexer.cursor.ahead = true) :
    skipFrom fuel false lexer = lexer := by
  cases fuel with
  | zero => rfl
  | succ fuel =>
      rw [skipFrom, Cursor.next?]
      match ahead : lexer.cursor.ahead with
      | [] => rfl
      | char :: rest =>
          rw [ahead, startsToken] at token
          simp only [isGap, Bool.not_eq_true', Bool.or_eq_false_iff, decide_eq_false_iff_not]
            at token
          simp [token]

theorem skipFrom_cons {char : Char} (outer : lexer.outerKeys = [])
    (ahead : lexer.cursor.ahead = char :: rest) (allowed : lexer.keysAllowed = pause.fresh)
    (paused : pause.step? char = some later) :
    skipFrom (fuel + 1) pause.comment lexer =
      skipFrom fuel later.comment ((lexer.advance 1).allow later.fresh) := by
  have same : (lexer.advance 1).allow pause.fresh = lexer.advance 1 := by
    rw [← allowed]
    rfl
  have next : lexer.cursor.next? = some char := by rw [Cursor.next?, ahead, List.head?_cons]
  have inFlow : lexer.inFlow = false := by rw [Lexer.inFlow, outer, List.isEmpty_nil, Bool.not_true]
  unfold Pause.step? at paused
  rw [skipFrom]
  simp only [next, inFlow, allowed, Bool.not_false, Bool.or_true, Bool.false_or]
  split at paused
  · next broken =>
      cases paused
      rw [if_pos broken]
  · next unbroken =>
      rw [if_neg unbroken]
      split at paused
      · next blank =>
          cases paused
          rw [if_pos (Bool.or_eq_true _ _ ▸ .inl blank), same]
      · next mark =>
          split at paused
          · next hash =>
              cases paused
              subst hash
              rw [if_neg (by simpa using mark), if_pos rfl, same]
          · cases paused

/-- A lexer goes past the characters of a pause. -/
theorem skipFrom_append (outer : lexer.outerKeys = []) (ahead : lexer.cursor.ahead = chars ++ rest)
    (allowed : lexer.keysAllowed = pause.fresh) (paused : pause.after? chars = some later) :
    skipFrom (chars.length + fuel) pause.comment lexer =
      skipFrom fuel later.comment ((lexer.advance chars.length).allow later.fresh) := by
  induction chars generalizing lexer pause with
  | nil =>
      cases paused
      rw [List.length_nil, Nat.zero_add, ← allowed]
      rfl
  | cons char chars ih =>
      obtain ⟨next, stepped, paused⟩ := Option.bind_eq_some_iff.mp paused
      have ahead_eq : ((lexer.advance 1).allow next.fresh).cursor.ahead = chars ++ rest := by
        change (lexer.cursor.steps 1).ahead = _
        rw [Cursor.ahead_steps, ahead]
        rfl
      have others : skipFrom (chars.length + fuel) next.comment
          ((lexer.advance 1).allow next.fresh) =
          skipFrom fuel later.comment ((lexer.advance (chars.length + 1)).allow later.fresh) :=
        ih outer ahead_eq rfl paused
      rw [List.length_cons, Nat.add_right_comm, skipFrom_cons outer ahead allowed stepped, others]

/-- Fuel for every character ahead is enough. -/
theorem skipFrom_succ {comment : Bool} (enough : lexer.cursor.ahead.length ≤ fuel) :
    skipFrom (fuel + 1) comment lexer = skipFrom fuel comment lexer := by
  induction fuel generalizing lexer comment with
  | zero =>
      have ended : lexer.cursor.ahead = [] := List.eq_nil_of_length_eq_zero (Nat.le_zero.mp enough)
      rw [skipFrom_of_end ended, skipFrom_of_end ended]
  | succ fuel ih =>
      have later (comment : Bool) (next : Lexer) (cursor_eq : next.cursor = lexer.cursor.step) :
          skipFrom (fuel + 1) comment next = skipFrom fuel comment next := by
        apply ih
        rw [cursor_eq, Cursor.ahead_step, List.length_tail]
        omega
      conv => lhs; unfold skipFrom
      conv => rhs; unfold skipFrom
      rw [later false ((lexer.advance 1).allow (lexer.keysAllowed || !lexer.inFlow)) rfl,
        later comment (lexer.advance 1) rfl, later true (lexer.advance 1) rfl]

theorem skipFrom_of_le {comment : Bool} {more : Nat} (enough : lexer.cursor.ahead.length ≤ fuel)
    (le : fuel ≤ more) : skipFrom more comment lexer = skipFrom fuel comment lexer := by
  induction le with
  | refl => rfl
  | step le ih => rw [skipFrom_succ (Nat.le_trans enough le), ih]

/-- Go past the pause that lies ahead. -/
def skip (lexer : Lexer) : Lexer :=
  skipFrom lexer.cursor.ahead.length false lexer

theorem skipFrom_eq_skip (enough : lexer.cursor.ahead.length ≤ fuel) :
    skipFrom fuel false lexer = lexer.skip :=
  skipFrom_of_le (Nat.le_refl _) enough

/-- What a pause leads to does not depend on how much of it a lexer has gone past. -/
theorem skip_append (outer : lexer.outerKeys = []) (ahead : lexer.cursor.ahead = chars ++ rest)
    (allowed : lexer.keysAllowed = pause.fresh) (begun : pause.comment = false)
    (paused : pause.after? chars = some later) (complete : later.comment = false ∨ rest = []) :
    lexer.skip = ((lexer.advance chars.length).allow later.fresh).skip := by
  have ahead_eq : ((lexer.advance chars.length).allow later.fresh).cursor.ahead = rest :=
    Cursor.ahead_steps_append ahead
  have skipped : skipFrom (chars.length + rest.length) pause.comment lexer =
      skipFrom rest.length later.comment ((lexer.advance chars.length).allow later.fresh) :=
    skipFrom_append outer ahead allowed paused
  rw [begun, ← List.length_append, ← ahead] at skipped
  rw [skip, skipped, skip, ahead_eq]
  obtain ended | rfl := complete
  · rw [ended]
  · rfl

/-! ## Runs -/

/-- What follows a pause is all that the run of a lexer depends on. -/
theorem run_of_skip_eq (same : lexer.skip = other.skip)
    (enough : lexer.cursor.ahead.length ≤ fuel) (enoughToo : other.cursor.ahead.length ≤ fuel) :
    run (fuel + 1) lexer = run (fuel + 1) other := by
  rw [run, run, skipFrom_eq_skip enough, skipFrom_eq_skip enoughToo, same]

theorem closeBlocks_of_le {column : Nat} (closed : lexer.columns.head?.all (· ≤ column) = true) :
    lexer.closeBlocks (some column) = lexer := by
  obtain ⟨cursor, found, columns, keysAllowed, key, outerKeys⟩ := lexer
  unfold closeBlocks
  split
  · rfl
  · cases columns with
    | nil => simp
    | cons head columns =>
        have le : ¬column < head := by simpa using closed
        simp [le]

/-- A token that stands at the column of the innermost collection or to the right of it. -/
theorem run_token (token : startsToken lexer.cursor.ahead = true)
    (closed : lexer.columns.head?.all (· ≤ lexer.cursor.column) = true) :
    run (fuel + 1) lexer = (lexer.readToken (fuel + 1)).bind (run fuel) := by
  have left : lexer.cursor.ahead.isEmpty = false := by
    match ahead : lexer.cursor.ahead with
    | [] =>
        rw [ahead] at token
        cases token
    | _ :: _ => rfl
  rw [run, skipFrom_of_token token]
  simp only [closeBlocks_of_le closed, left, Bool.false_eq_true, if_false]

/-- A token to the left of the innermost collection closes it. -/
theorem run_dedent {head : Nat} {columns : List Nat} (token : startsToken lexer.cursor.ahead = true)
    (outer : lexer.outerKeys = []) (columns_eq : lexer.columns = head :: columns)
    (left : lexer.cursor.column < head) :
    run (fuel + 1) lexer = run (fuel + 1) { lexer.emit .blockEnd with columns } := by
  have inFlow : lexer.inFlow = false := by rw [Lexer.inFlow, outer, List.isEmpty_nil, Bool.not_true]
  have same : lexer.closeBlocks (some lexer.cursor.column) =
      ({ lexer.emit .blockEnd with columns } : Lexer).closeBlocks (some lexer.cursor.column) := by
    have inFlowToo : ({ lexer.emit .blockEnd with columns } : Lexer).inFlow = false := inFlow
    unfold closeBlocks
    rw [inFlow, inFlowToo]
    simp [columns_eq, left, emit]
  have settled : skipFrom fuel false { lexer.emit .blockEnd with columns } =
      { lexer.emit .blockEnd with columns } := skipFrom_of_token token
  rw [run, run, skipFrom_of_token token, settled]
  simp only [same]
  rfl

theorem closeBlocks_none (outer : lexer.outerKeys = []) :
    lexer.closeBlocks none = { lexer with
      columns := []
      found := lexer.found ++ lexer.columns.map fun _ => Token.blockEnd } := by
  have every : lexer.columns.takeWhile (fun _ => true) = lexer.columns :=
    List.takeWhile_eq_self_iff.mpr fun _ _ => rfl
  have none_left : lexer.columns.dropWhile (fun _ => true) = [] :=
    List.dropWhile_eq_nil_iff.mpr fun _ _ => rfl
  unfold closeBlocks
  rw [Lexer.inFlow, outer]
  simp [every, none_left]

theorem closeBlocks_closeBlocks {column : Nat} (outer : lexer.outerKeys = []) :
    (lexer.closeBlocks (some column)).closeBlocks none = lexer.closeBlocks none := by
  have outerToo : (lexer.closeBlocks (some column)).outerKeys = [] := by
    unfold closeBlocks
    split <;> exact outer
  rw [closeBlocks_none outerToo, closeBlocks_none outer]
  unfold closeBlocks
  rw [Lexer.inFlow, outer]
  simp only [List.isEmpty_nil, Bool.not_true, Bool.false_eq_true, if_false]
  congr 1
  rw [← Array.toList_inj]
  simp only [Array.toList_appendList, List.append_assoc, ← List.map_append,
    List.takeWhile_append_dropWhile]

/-- At the end all collections are closed. -/
theorem run_end (ended : lexer.cursor.ahead = []) (outer : lexer.outerKeys = [])
    (optional : lexer.key.any (·.required) = false) :
    run (fuel + 1) lexer =
      some (lexer.found.toList ++ lexer.columns.map fun _ => Token.blockEnd).toArray := by
  have endedToo : (lexer.closeBlocks (some lexer.cursor.column)).cursor.ahead = [] := by
    unfold closeBlocks
    split <;> exact ended
  rw [run, skipFrom_of_end ended]
  simp only [endedToo, List.isEmpty_nil, if_true, separate, closeBlocks_closeBlocks outer,
    closeBlocks_none outer, dropKey, optional]
  simp [allow, ← Array.toList_inj]

end Lexer

end ImageGallery.Yaml
