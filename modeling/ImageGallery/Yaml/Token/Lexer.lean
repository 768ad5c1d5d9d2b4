import ImageGallery.Yaml.Token

/-!
# From characters to tokens

A key needs no mark in front of it: that a scalar, or even a flow collection, is a key shows only
where its colon is read. So wherever a key may start the place is kept, and when the colon comes the
mark of the key is put in there, and in front of it the start of a mapping if none is open at that
column. A key has to stand on one line with its colon, at most 1024 bytes in front of it. In block
style a text at the column of the innermost collection can be nothing but a key.

The main function is `Token.scan?`: the tokens of a text, or nothing if the text cannot be cut into
tokens.
-/

namespace ImageGallery.Yaml

/-- A place where a key without a mark may have started. -/
structure PossibleKey where
  /-- Whether nothing but a key may start there. -/
  required : Bool
  /-- The number of tokens in front of it. -/
  number : Nat
  /-- Where it starts. -/
  start : Cursor
deriving DecidableEq, Inhabited

namespace PossibleKey

/-- Whether the colon of a key would come too late at a position. -/
def isStale (key : PossibleKey) (cursor : Cursor) : Bool :=
  key.start.line < cursor.line || key.start.index + 1024 < cursor.index

end PossibleKey

/-- The state between two tokens. -/
structure Lexer where
  cursor : Cursor
  /-- The tokens so far. -/
  found : Array Token := #[]
  /-- The columns of the open collections in block style, the innermost first. -/
  columns : List Nat := []
  /-- Whether a key without a mark may start here; in block style also whether a collection may. -/
  keysAllowed : Bool := true
  /-- The possible key in the innermost flow collection. -/
  key : Option PossibleKey := none
  /-- The possible keys around each open flow collection, the innermost first. -/
  outerKeys : List (Option PossibleKey) := []
deriving Inhabited

namespace Lexer

/-! ## Parts of a state -/

/-- Whether a flow collection is open. -/
def inFlow (lexer : Lexer) : Bool :=
  !lexer.outerKeys.isEmpty

/-- The number of columns that the lines of a plain scalar are indented by at least. -/
def margin (lexer : Lexer) : Nat :=
  lexer.columns.head?.elim 0 (· + 1)

/-- Add a token. -/
def emit (lexer : Lexer) (token : Token) : Lexer :=
  { lexer with found := lexer.found.push token }

/-- Say whether keys may start. -/
def allow (lexer : Lexer) (keysAllowed : Bool) : Lexer :=
  { lexer with keysAllowed }

/-- Go past some characters. -/
def advance (lexer : Lexer) (count : Nat) : Lexer :=
  { lexer with cursor := lexer.cursor.steps count }

/-- Close the collections in block style that stand further to the right than a column, or all. -/
def closeBlocks (lexer : Lexer) (column : Option Nat) : Lexer :=
  if lexer.inFlow then lexer
  else
    let isClosed (open_ : Nat) : Bool := column.all (· < open_)
    { lexer with
      columns := lexer.columns.dropWhile isClosed
      found := lexer.found ++ (lexer.columns.takeWhile isClosed).map fun _ => Token.blockEnd }

/-- Open a collection in block style unless one is open at its column. Its token gets the given
number. -/
def openBlock (lexer : Lexer) (column number : Nat) (token : Token) : Lexer :=
  if lexer.inFlow || !lexer.columns.head?.all (· < column) then lexer
  else
    { lexer with
      columns := column :: lexer.columns
      found := lexer.found.insertIdxIfInBounds number token }

/-! ## Possible keys -/

/-- Forget the possible key, which may not be required. -/
def dropKey (lexer : Lexer) : Option Lexer :=
  if lexer.key.any (·.required) then none else some { lexer with key := none }

/-- Keep in mind that a key may start here, if keys are allowed. -/
def saveKey (lexer : Lexer) : Option Lexer :=
  if lexer.keysAllowed then do
    let column := lexer.cursor.column
    let required := !lexer.inFlow && lexer.columns.head? = some column
    return { ← lexer.dropKey with key := some ⟨required, lexer.found.size, lexer.cursor⟩ }
  else some lexer

/-! ## Gaps -/

/-- Go past blanks, comments and line breaks. `comment` says that a comment has begun. A byte order
mark may start a line. Tabs may stand inside flow collections, and where no key may start. In block
style keys may start in every new line. -/
def skipFrom : (fuel : Nat) → (comment : Bool) → Lexer → Lexer
  | 0, _, lexer => lexer
  | fuel + 1, comment, lexer =>
    match lexer.cursor.next? with
    | none => lexer
    | some char =>
      if isBreak char then
        skipFrom fuel false ((lexer.advance 1).allow (lexer.keysAllowed || !lexer.inFlow))
      else if comment || char = ' ' || (char = '\t' && (lexer.inFlow || !lexer.keysAllowed))
          || (char = '\ufeff' && lexer.cursor.column = 0) then
        skipFrom fuel comment (lexer.advance 1)
      else if char = '#' then skipFrom fuel true (lexer.advance 1)
      else lexer

/-! ## Marks -/

/-- Close all collections in block style in front of what separates documents. -/
def separate (lexer : Lexer) : Option Lexer := do
  return (← (lexer.closeBlocks none).dropKey).allow false

/-- Read a directive. -/
def readDirective (lexer : Lexer) : Option Lexer := do
  let lexer ← lexer.separate
  let (directive, cursor) ← Directive.read lexer.cursor
  return { lexer.emit (.directive directive) with cursor }

/-- Read the line that starts or ends a document. -/
def readSeparator (lexer : Lexer) (token : Token) : Option Lexer := do
  return ((← lexer.separate).emit token).advance 3

/-- Read the bracket that opens a flow collection, which may be a key as a whole. -/
def openFlow (lexer : Lexer) (token : Token) : Option Lexer := do
  let lexer ← lexer.saveKey
  return { ((lexer.emit token).advance 1).allow true with
    key := none, outerKeys := lexer.key :: lexer.outerKeys }

/-- Read the bracket that closes a flow collection. -/
def closeFlow (lexer : Lexer) (token : Token) : Option Lexer := do
  let lexer := (((← lexer.dropKey).emit token).advance 1).allow false
  match lexer.outerKeys with
  | [] => return lexer
  | key :: outerKeys => return { lexer with key, outerKeys }

/-- Read the comma between two entries. -/
def readComma (lexer : Lexer) : Option Lexer := do
  return (((← lexer.dropKey).emit .flowEntry).advance 1).allow true

/-- Open a collection in block style where its first mark stands. That has to be a place where keys
may start. -/
def openAtMark (lexer : Lexer) (token : Token) : Option Lexer :=
  if lexer.inFlow then some lexer
  else if lexer.keysAllowed then
    some (lexer.openBlock lexer.cursor.column lexer.found.size token)
  else none

/-- Read the dash in front of an item. -/
def readDash (lexer : Lexer) : Option Lexer := do
  let lexer ← (← lexer.openAtMark .blockSequence).dropKey
  return ((lexer.emit .blockEntry).advance 1).allow true

/-- Read the mark in front of a key. -/
def readKeyMark (lexer : Lexer) : Option Lexer := do
  let lexer ← (← lexer.openAtMark .blockMapping).dropKey
  return ((lexer.emit .key).advance 1).allow !lexer.inFlow

/-- Read a colon in front of a value that has no key without a mark. -/
def readLoneColon (lexer : Lexer) : Option Lexer := do
  let opened ← lexer.openAtMark .blockMapping
  return ((opened.emit .value).advance 1).allow !lexer.inFlow

/-- Read the colon in front of a value. If there is a possible key, and it does not stand too far in
front of the colon, then it is one. A required key may not stand too far in front. -/
def readColon (lexer : Lexer) : Option Lexer :=
  match lexer.key with
  | none => lexer.readLoneColon
  | some key =>
    if key.isStale lexer.cursor then
      if key.required then none else { lexer with key := none }.readLoneColon
    else
      let marked := { lexer with
        found := lexer.found.insertIdxIfInBounds key.number .key
        key := none }
      let opened := marked.openBlock key.start.column key.number .blockMapping
      some (((opened.emit .value).advance 1).allow false)

/-! ## Nodes -/

/-- Read a token that may start a key. -/
def readKeyable (lexer : Lexer) (read : Cursor → Option (Token × Cursor)) : Option Lexer := do
  let lexer ← lexer.saveKey
  let (token, cursor) ← read lexer.cursor
  return { (lexer.emit token).allow false with cursor }

/-- Read a tag. -/
def readTagToken (inFlow : Bool) (cursor : Cursor) : Option (Token × Cursor) := do
  let (text, rest) ← readTag cursor
  if endsWord rest.ahead || (inFlow && rest.next? = some ',') then
    return (.tag text, rest)
  else
    none

/-- Read a scalar in quotes with the reader of what follows the first quote. -/
def readQuotedToken (read : Cursor → Option (List Char × Cursor)) (cursor : Cursor) :
    Option (Token × Cursor) :=
  (read cursor.step).map fun text => (.scalar .quoted (String.ofList text.1), text.2)

/-- Read a plain scalar. Keys may start after it if it goes over the end of a line. -/
def readPlainToken (fuel : Nat) (lexer : Lexer) : Option Lexer := do
  let lexer ← lexer.saveKey
  let (text, cursor) ← readPlain lexer.inFlow lexer.margin fuel lexer.cursor
  let token := Token.scalar .plain (String.ofList text.chars)
  return { (lexer.emit token).allow text.isBroken with cursor }

/-- Read a block. -/
def readBlockToken (fuel : Nat) (style : Style) (lexer : Lexer) : Option Lexer := do
  let lexer ← lexer.dropKey
  let (text, cursor) ←
    readBlock (style = .literal) lexer.columns.head? fuel lexer.cursor.step
  return { (lexer.emit (.scalar style (String.ofList text))).allow true with cursor }

/-! ## Texts -/

/-- Read the token that starts here. The fuel is more than the number of characters ahead. -/
def readToken (fuel : Nat) (lexer : Lexer) : Option Lexer :=
  if lexer.cursor.column = 0 && lexer.cursor.next? = some '%' then lexer.readDirective
  else if lexer.cursor.atDocumentStart then lexer.readSeparator .documentStart
  else if lexer.cursor.atDocumentEnd then lexer.readSeparator .documentEnd
  else
    match lexer.cursor.ahead with
    | [] => none
    | char :: ahead =>
      let isMark := lexer.inFlow || endsWord ahead
      match char with
      | '[' => lexer.openFlow .flowSequence
      | '\x7b' => lexer.openFlow .flowMapping
      | ']' => lexer.closeFlow .flowSequenceEnd
      | '\x7d' => lexer.closeFlow .flowMappingEnd
      | ',' => lexer.readComma
      | '-' => if endsWord ahead then lexer.readDash else lexer.readPlainToken fuel
      | '?' => if isMark then lexer.readKeyMark else lexer.readPlainToken fuel
      | ':' => if isMark then lexer.readColon else lexer.readPlainToken fuel
      | '*' => lexer.readKeyable fun cursor =>
          (readName cursor.step).map fun name => (.reference name.1, name.2)
      | '&' => lexer.readKeyable fun cursor =>
          (readName cursor.step).map fun name => (.anchor name.1, name.2)
      | '!' => lexer.readKeyable (readTagToken lexer.inFlow)
      | '|' => if lexer.inFlow then none else lexer.readBlockToken fuel .literal
      | '>' => if lexer.inFlow then none else lexer.readBlockToken fuel .folded
      | '\x27' => lexer.readKeyable (readQuotedToken (readSingleQuoted fuel))
      | '"' => lexer.readKeyable (readQuotedToken (readDoubleQuoted fuel))
      | _ => lexer.readPlainToken fuel

/-- Read all tokens. The fuel is more than the number of characters ahead. -/
def run : (fuel : Nat) → Lexer → Option (Array Token)
  | 0, _ => none
  | fuel + 1, lexer =>
    let lexer := skipFrom fuel false lexer
    let lexer := lexer.closeBlocks (some lexer.cursor.column)
    if lexer.cursor.ahead.isEmpty then lexer.separate.map (·.found)
    else (lexer.readToken (fuel + 1)).bind (run fuel)

end Lexer

/-- The tokens of a text. Every token but those that come from the indentation takes a character, so
the fuel suffices. -/
def Token.scan? (chars : List Char) : Option (List Token) :=
  (Lexer.run (chars.length + 1) { cursor := { ahead := chars } }).map Array.toList

end ImageGallery.Yaml
