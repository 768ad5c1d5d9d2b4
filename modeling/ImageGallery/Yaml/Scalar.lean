import ImageGallery.Text.Integer
import ImageGallery.Yaml.Cursor

/-!
# YAML scalars

The four ways to write a text: plain, in single or double quotes, and as a block. A text may go
over several lines. Except in literal blocks, a single line break counts as a blank, and of more
than one the first is dropped.
-/

namespace ImageGallery.Yaml

/-! ## Gaps inside a text -/

/-- What was read between two words of a text. -/
inductive Gap where
  | blanks (chars : List Char)
  /-- A first line break, and further ones; blanks around them do not count. -/
  | breaks (first : Char) (more : List Char)
  /-- A line break that was escaped, and further ones that were not. -/
  | escaped (more : List Char)
deriving DecidableEq, Inhabited

namespace Gap

/-- Whether the gap goes over a line break. -/
def isBroken : Gap → Bool
  | blanks _ => false
  | _ => true

/-- The gap of some blanks and line breaks. -/
def ofRun (run : List Char) : Gap :=
  match run.dropWhile isGap with
  | [] => blanks run
  | first :: more => breaks first (more.filter isBreak)

/-- What the gap stands for in the text. -/
def fold : Gap → List Char
  | blanks chars => chars
  | breaks '\n' [] => [' ']
  | breaks '\n' more => more
  | breaks first more => first :: more
  | escaped more => more

end Gap

/-- Read the blanks and line breaks that lie ahead. -/
def readRun (cursor : Cursor) : List Char × Cursor :=
  cursor.takeWhile fun char => isGap char || isBreak char

/-! ## Plain scalars -/

/-- Read a word of a plain scalar. It ends at a colon in front of a blank and, in a flow collection,
at the marks of the collection. -/
def readWord (flow : Bool) : List Char → Option (List Char × List Char)
  | [] => some ([], [])
  | char :: ahead =>
    if isGap char || isBreak char then some ([], char :: ahead)
    else if char = ':' && endsWord ahead then some ([], char :: ahead)
    else if flow && char = ':' && ahead.head?.any (fun char => isFlowMark char || char = '?') then
      none
    else if flow && isFlowMark char then some ([], char :: ahead)
    else (readWord flow ahead).map fun word => (char :: word.1, word.2)

/-- Whether a tab stands left of a column in one of the lines, which hold only blanks. `column` is
that of the first character. -/
def hasEarlyTab (indent : Nat) : (column : Nat) → List Char → Bool
  | _, [] => false
  | column, char :: chars =>
    if isBreak char then hasEarlyTab indent 0 chars
    else (char = '\t' && column < indent) || hasEarlyTab indent (column + 1) chars

/-- Read the gap after a word. A tab may not stand where a line has to be indented. -/
def readPlainGap (indent : Nat) (cursor : Cursor) : Option (Gap × Cursor) :=
  let (run, rest) := readRun cursor
  if hasEarlyTab indent 0 (run.dropWhile isGap) then none else some (.ofRun run, rest)

/-- What was read as a plain scalar. -/
structure PlainText where
  chars : List Char
  /-- Whether the reading went past a line break at the end. -/
  isBroken : Bool
deriving DecidableEq, Inhabited

/-- Read the words of a plain scalar whose lines are indented by at least the given number. -/
def readWords (flow : Bool) (indent : Nat) : (fuel : Nat) → Gap → Cursor →
    Option (PlainText × Cursor)
  | 0, _, _ => none
  | fuel + 1, gap, cursor =>
    let finished := some (⟨[], gap.isBroken⟩, cursor)
    if cursor.atSeparator || cursor.next? = some '#' then finished
    else do
      let (word, _) ← readWord flow cursor.ahead
      if word = [] then finished
      else
        let (between, following) ← readPlainGap indent (cursor.steps word.length)
        if between = .blanks [] ∨ (!flow ∧ following.column < indent) then
          return (⟨gap.fold ++ word, between.isBroken⟩, following)
        let (words, rest) ← readWords flow indent fuel between following
        return (⟨gap.fold ++ word ++ words.chars, words.isBroken⟩, rest)

/-- Whether a plain scalar may start with what lies ahead. -/
def startsPlain (flow : Bool) : List Char → Bool
  | [] => false
  | char :: ahead =>
    if isGap char || isBreak char then false
    else if char = '-' then !ahead.head?.any isGap
    else if char = '?' || char = ':' then !flow && !endsWord ahead
    else
      !isFlowMark char &&
        !(['#', '&', '*', '!', '|', '>', '\x27', '"', '%', '@', '\x60'].contains char)

/-- Read a plain scalar. The fuel is more than the number of characters ahead. -/
def readPlain (flow : Bool) (indent fuel : Nat) (cursor : Cursor) : Option (PlainText × Cursor) :=
  if startsPlain flow cursor.ahead then readWords flow indent fuel (.blanks []) cursor else none

/-! ## Quoted scalars -/

/-- Read the rest of a text in single quotes, where two quotes stand for one. -/
def readSingleQuoted : (fuel : Nat) → Cursor → Option (List Char × Cursor)
  | 0, _ => none
  | fuel + 1, cursor =>
    if cursor.atSeparator then none
    else
      match cursor.ahead with
      | [] => none
      | '\x27' :: '\x27' :: _ =>
        (readSingleQuoted fuel cursor.step.step).map fun text => ('\x27' :: text.1, text.2)
      | '\x27' :: _ => some ([], cursor.step)
      | char :: _ =>
        if isGap char || isBreak char then
          let (run, rest) := readRun cursor
          (readSingleQuoted fuel rest).map fun text => ((Gap.ofRun run).fold ++ text.1, text.2)
        else (readSingleQuoted fuel cursor.step).map fun text => (char :: text.1, text.2)

/-- The character that an escape of one letter stands for. -/
def escapedChar? : Char → Option Char
  | '0' => some '\x00'
  | 'a' => some '\x07'
  | 'b' => some '\x08'
  | 't' => some '\t'
  | '\t' => some '\t'
  | 'n' => some '\n'
  | 'v' => some '\x0b'
  | 'f' => some '\x0c'
  | 'r' => some '\r'
  | 'e' => some '\x1b'
  | ' ' => some ' '
  | '"' => some '"'
  | '/' => some '/'
  | '\\' => some '\\'
  | 'N' => some '\u0085'
  | '_' => some '\u00a0'
  | 'L' => some '\u2028'
  | 'P' => some '\u2029'
  | _ => none

/-- The number of digits after the letter of an escape by number. -/
def escapeWidth? : Char → Option Nat
  | 'x' => some 2
  | 'u' => some 4
  | 'U' => some 8
  | _ => none

/-- The character with the number that digits to the base 16 denote. -/
def charOfDigits? (width : Nat) (chars : List Char) : Option Char := do
  let digits ← (chars.take width).mapM Text.hexValue?
  let value := digits.foldl (fun value digit => 16 * value + digit) 0
  if digits.length = width ∧ value.isValidChar then
    return Char.ofNat value
  else
    none

/-- Read the rest of a text in double quotes. -/
def readDoubleQuoted : (fuel : Nat) → Cursor → Option (List Char × Cursor)
  | 0, _ => none
  | fuel + 1, cursor =>
    if cursor.atSeparator then none
    else
      match cursor.ahead with
      | [] => none
      | '"' :: _ => some ([], cursor.step)
      | '\\' :: letter :: ahead =>
        if isBreak letter then
          let (run, rest) := readRun cursor.step.step
          let gap := Gap.escaped (run.filter isBreak)
          (readDoubleQuoted fuel rest).map fun text => (gap.fold ++ text.1, text.2)
        else
          match escapedChar? letter, escapeWidth? letter with
          | some char, _ =>
            (readDoubleQuoted fuel cursor.step.step).map fun text => (char :: text.1, text.2)
          | none, some width => do
            let char ← charOfDigits? width ahead
            let (text, rest) ← readDoubleQuoted fuel (cursor.steps (width + 2))
            return (char :: text, rest)
          | none, none => none
      | char :: _ =>
        if char = '\\' then none
        else if isGap char || isBreak char then
          let (run, rest) := readRun cursor
          (readDoubleQuoted fuel rest).map fun text => ((Gap.ofRun run).fold ++ text.1, text.2)
        else (readDoubleQuoted fuel cursor.step).map fun text => (char :: text.1, text.2)

/-! ## Blocks -/

/-- What becomes of the line breaks at the end of a block. -/
inductive Chomping where
  /-- All are dropped. -/
  | strip
  /-- The first stays. -/
  | clip
  /-- All stay. -/
  | keep
deriving DecidableEq, Inhabited

/-- The head of a block. -/
structure BlockHead where
  /-- Whether line breaks stay as they are. -/
  literal : Bool
  chomping : Chomping := .clip
  /-- By how much the block is indented, if its head says so. -/
  increment : Option Nat := none
deriving DecidableEq, Inhabited

/-- The chomping that a mark asks for. -/
def chomping? : Char → Option Chomping
  | '-' => some .strip
  | '+' => some .keep
  | _ => none

/-- The increment that a digit asks for. -/
def increment? (char : Char) : Option Nat :=
  if '1' ≤ char ∧ char ≤ '9' then some (char.toNat - '0'.toNat) else none

/-- Read the marks in the head of a block: a chomping mark and a digit, in either order. -/
def readMarks (head : BlockHead) (cursor : Cursor) : BlockHead × Cursor :=
  match cursor.ahead with
  | first :: second :: _ =>
    match chomping? first, increment? second, increment? first, chomping? second with
    | some chomping, some increment, _, _
    | _, _, some increment, some chomping =>
      ({ head with chomping, increment := some increment }, cursor.step.step)
    | some chomping, none, _, _ => ({ head with chomping }, cursor.step)
    | _, _, some increment, none => ({ head with increment := some increment }, cursor.step)
    | _, _, _, _ => (head, cursor)
  | [only] =>
    match chomping? only, increment? only with
    | some chomping, _ => ({ head with chomping }, cursor.step)
    | _, some increment => ({ head with increment := some increment }, cursor.step)
    | _, _ => (head, cursor)
  | [] => (head, cursor)

/-- Read empty lines in a block, and the indentation of the line after them. Without a known
indentation all leading blanks count, and the widest line is answered with. A tab may not stand in
the indentation. -/
def readEmptyLines (indent : Option Nat) : (fuel : Nat) → (widest : Nat) → Cursor →
    Option (List Char × Nat × Cursor)
  | 0, widest, cursor => some ([], widest, cursor)
  | fuel + 1, widest, cursor =>
    let blanks := (cursor.ahead.takeWhile (· = ' ')).length
    let wanted := match indent with
      | some indent => min blanks (indent - cursor.column)
      | none => blanks
    let cursor := cursor.steps wanted
    let widest := max widest cursor.column
    let inside := match indent with
      | some indent => decide (cursor.column < indent)
      | none => true
    match cursor.next? with
    | none => some ([], widest, cursor)
    | some char =>
      if inside && char = '\t' then none
      else if isBreak char then
        (readEmptyLines indent fuel widest cursor.step).map fun read => (char :: read.1, read.2)
      else some ([], widest, cursor)

/-- The line breaks at the end of a block's text. -/
def chomp (chomping : Chomping) (first more : List Char) : List Char :=
  match chomping with
  | .strip => []
  | .clip => first
  | .keep => first ++ more

/-- The line breaks in front of a line of a block: the one after the line before, and those of the
empty lines between. A folded block drops the first between two lines that do not start with a
blank. -/
def blockGap (literal blankBefore blankHere : Bool) (first more : List Char) : List Char :=
  if !literal && first = ['\n'] && !blankBefore && !blankHere then
    if more = [] then [' '] else more
  else first ++ more

/-- Read the lines of a block. `first` is the line break after the line before, `more` are those
of the empty lines since. -/
def readLines (head : BlockHead) (indent : Nat) : (fuel : Nat) → (blankBefore : Bool) →
    (first more : List Char) → Cursor → Option (List Char × Cursor)
  | 0, _, _, _, _ => none
  | fuel + 1, blankBefore, first, more, cursor =>
    if cursor.column ≠ indent ∨ cursor.ahead = [] then
      some (chomp head.chomping first more, cursor)
    else do
      let blankHere := cursor.next?.any isGap
      let line := cursor.ahead.takeWhile (!isBreak ·)
      let lineEnd := cursor.steps line.length
      let (empty, _, following) ←
        readEmptyLines (some indent) fuel 0 lineEnd.step
      let (lines, rest) ←
        readLines head indent fuel blankHere lineEnd.next?.toList empty following
      return (blockGap head.literal blankBefore blankHere first more ++ line ++ lines, rest)

/-- Read a block after its mark. `column` is that of the collection around it, if there is one: a
digit in the head counts from there, and without a digit the block stands to the right of it. The
fuel is more than the number of characters ahead. -/
def readBlock (literal : Bool) (column : Option Nat) (fuel : Nat) (cursor : Cursor) :
    Option (List Char × Cursor) := do
  let (head, cursor) := readMarks { literal } cursor
  let cursor ← cursor.finishLine
  let given := head.increment.map (column.getD 0 + ·)
  let (empty, widest, cursor) ← readEmptyLines given fuel 0 cursor
  let indent := given.getD (max widest (column.elim 1 (· + 1)))
  readLines head indent fuel false [] empty cursor

end ImageGallery.Yaml
