/-!
# Reading positions

Where a reader stands in a YAML text: what lies ahead, and at which line and column. Line breaks
of all kinds have become line feeds before, except the two separators of Unicode, which break
lines too but stay what they are.
-/

namespace ImageGallery.Yaml

/-! ## Characters -/

/-- Blank and tab. -/
def isGap (char : Char) : Bool :=
  char = ' ' || char = '\t'

/-- The characters that end a line. -/
def isBreak (char : Char) : Bool :=
  char = '\n' || char = '\u2028' || char = '\u2029'

/-- Whether a text is at its end, or a blank or a line break is next. -/
def endsWord : List Char → Bool
  | [] => true
  | char :: _ => isGap char || isBreak char

/-- The characters that set the parts of a flow collection apart. -/
def isFlowMark (char : Char) : Bool :=
  char = ',' || char = '[' || char = ']' || char = '\x7b' || char = '\x7d'

/-- The characters that names of anchors, tag handles and directives are made of. -/
def isNameChar (char : Char) : Bool :=
  char.isAlphanum || char = '-' || char = '_'

/-- The characters that a text may have. -/
def isAllowed (char : Char) : Bool :=
  let code := char.toNat
  code = 0x09 || code = 0x0A || code = 0x0D || (0x20 ≤ code && code ≤ 0x7E) || code = 0x85
    || (0xA0 ≤ code && code ≤ 0xFFFD) || 0x10000 ≤ code

/-- Write every line break as a line feed, but for the two separators of Unicode. -/
def unifyBreaks : List Char → List Char
  | [] => []
  | '\r' :: '\n' :: chars => '\n' :: unifyBreaks chars
  | '\r' :: chars => '\n' :: unifyBreaks chars
  | '\u0085' :: chars => '\n' :: unifyBreaks chars
  | char :: chars => char :: unifyBreaks chars

/-! ## Positions -/

/-- A reading position. -/
structure Cursor where
  /-- The characters that lie ahead. -/
  ahead : List Char
  line : Nat := 0
  column : Nat := 0
  /-- The number of bytes that lie behind. -/
  index : Nat := 0
deriving DecidableEq, Inhabited

namespace Cursor

/-- The next character. -/
def next? (cursor : Cursor) : Option Char :=
  cursor.ahead.head?

/-- Go past the next character. -/
def step (cursor : Cursor) : Cursor :=
  match cursor.ahead with
  | [] => cursor
  | char :: ahead =>
    if isBreak char then
      { ahead, line := cursor.line + 1, column := 0, index := cursor.index + char.utf8Size }
    else
      { cursor with ahead, column := cursor.column + 1, index := cursor.index + char.utf8Size }

/-- Go past some characters. -/
def steps : (count : Nat) → Cursor → Cursor
  | 0, cursor => cursor
  | count + 1, cursor => steps count cursor.step

/-- Read the characters of a class. -/
def takeWhile (cursor : Cursor) (isPart : Char → Bool) : List Char × Cursor :=
  let chars := cursor.ahead.takeWhile isPart
  (chars, cursor.steps chars.length)

/-- Go past the characters of a class. -/
def dropWhile (cursor : Cursor) (isPart : Char → Bool) : Cursor :=
  (cursor.takeWhile isPart).2

/-- Go past one character, which has to be the given one. -/
def expect (cursor : Cursor) (char : Char) : Option Cursor :=
  if cursor.next? = some char then some cursor.step else none

/-- Whether a word stands at the start of the line here. -/
def startsLine (cursor : Cursor) (word : List Char) : Bool :=
  cursor.column = 0 && word.isPrefixOf cursor.ahead && endsWord (cursor.ahead.drop word.length)

/-- Whether a document starts here by a line of its own. -/
def atDocumentStart (cursor : Cursor) : Bool :=
  cursor.startsLine ['-', '-', '-']

/-- Whether a document ends here by a line of its own. -/
def atDocumentEnd (cursor : Cursor) : Bool :=
  cursor.startsLine ['.', '.', '.']

/-- Whether a document starts or ends here by a line of its own. -/
def atSeparator (cursor : Cursor) : Bool :=
  cursor.atDocumentStart || cursor.atDocumentEnd

/-- Go to the end of a line where only a comment may stand. -/
def finishLine (cursor : Cursor) : Option Cursor :=
  let cursor := cursor.dropWhile isGap
  let cursor := if cursor.next? = some '#' then cursor.dropWhile (!isBreak ·) else cursor
  match cursor.next? with
  | none => some cursor
  | some char => if isBreak char then some cursor.step else none

end Cursor

end ImageGallery.Yaml
