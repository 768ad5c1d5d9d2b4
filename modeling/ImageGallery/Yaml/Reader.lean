import ImageGallery.Yaml.Node
import ImageGallery.Yaml.Token.Lexer

/-!
# Reading YAML

From tokens to a document, which is one node. Where the tokens leave a place for a node empty an
empty scalar stands there. An entry of a sequence in flow style that has a key is a mapping of its
own. Directives may stand in front of the document, and lines that end it after it.

An anchor gets as its number how many different names of anchors stand in front of it, and a name
refers to the number of the last anchor with that name. So when a name is used again, later anchors
share numbers with it.
-/

namespace ImageGallery.Yaml

/-! ## Reading positions -/

/-- Where a reader stands between tokens. -/
structure Reading where
  /-- The tokens that lie ahead. -/
  tokens : List Token
  /-- The numbers of the names of anchors so far. -/
  anchors : List (String × Nat) := []
deriving Inhabited

namespace Reading

/-- The next token. -/
def next? (reading : Reading) : Option Token :=
  reading.tokens.head?

/-- Go past the next token. -/
def step (reading : Reading) : Reading :=
  { reading with tokens := reading.tokens.tail }

/-- Note an anchor. -/
def anchor (reading : Reading) (name : String) : Reading :=
  { reading with
    anchors := (name, reading.anchors.length) :: reading.anchors.filter (·.1 ≠ name) }

end Reading

/-! ## Properties -/

/-- What stands in front of a node's content. -/
structure Properties where
  number : Option Nat := none
  tag : Option TagText := none
deriving DecidableEq, Inhabited

namespace Properties

/-- Whether there are no properties. -/
def isEmpty (properties : Properties) : Bool :=
  properties.number.isNone && properties.tag.isNone

/-- The tag of a scalar. The mark alone is none. -/
def scalarTag? (handles : Handles) (properties : Properties) : Option (Option Tag) :=
  match properties.tag with
  | none => some none
  | some text => (handles.resolve? text).map fun tag =>
      if tag = .ofString "!" then none else some tag

end Properties

/-- Read an anchor. -/
def readAnchor (reading : Reading) : Option Nat × Reading :=
  match reading.next? with
  | some (.anchor name) => (some reading.anchors.length, reading.step.anchor name)
  | _ => (none, reading)

/-- Read a tag. -/
def readTagText (reading : Reading) : Option TagText × Reading :=
  match reading.next? with
  | some (.tag text) => (some text, reading.step)
  | _ => (none, reading)

/-- Read an anchor and a tag, in either order. -/
def readProperties (reading : Reading) : Properties × Reading :=
  match reading.next? with
  | some (.tag _) =>
    let (tag, reading) := readTagText reading
    let (number, reading) := readAnchor reading
    ({ number, tag }, reading)
  | _ =>
    let (number, reading) := readAnchor reading
    let (tag, reading) := readTagText reading
    ({ number, tag }, reading)

/-! ## Nodes -/

/-- Where a node may stand. -/
inductive Place where
  /-- Inside a flow collection. -/
  | flow
  /-- In block style. -/
  | block
  /-- In an entry of a mapping in block style, at whose column a sequence may stand. -/
  | blockPair
deriving DecidableEq, Inhabited

/-- Whether an item of a sequence in block style is empty when a token is next. -/
def endsItem (level : Bool) : Token → Bool
  | .blockEntry | .blockEnd => true
  | .key | .value => level
  | _ => false

/-- Whether a part of an entry of a mapping in block style is empty when a token is next. -/
def endsPart : Token → Bool
  | .key | .value | .blockEnd => true
  | _ => false

/-- Whether a value in a flow collection is empty when a token is next. -/
def endsFlowValue (close token : Token) : Bool :=
  token = .flowEntry || token = close

/-- Whether a key in a flow collection is empty when a token is next. -/
def endsFlowKey (close token : Token) : Bool :=
  token = .value || endsFlowValue close token

/-- The empty scalar after properties. -/
def readNothing (properties : Properties) (tag : Option Tag) (reading : Reading) :
    Option (Node × Reading) :=
  if properties.isEmpty then none else some (.scalar { tag }, reading)

mutual

/-- Read a node. -/
def readNode (handles : Handles) : (fuel : Nat) → Place → Reading → Option (Node × Reading)
  | 0, _, _ => none
  | fuel + 1, place, reading =>
    match reading.next? with
    | some (.reference name) =>
      (reading.anchors.lookup name).map fun number => (.reference number, reading.step)
    | _ => do
      let (properties, reading) := readProperties reading
      let tag ← properties.scalarTag? handles
      let (node, rest) ←
        match reading.next?, place with
        | some (.scalar style text), _ => some (.scalar { style, tag, text }, reading.step)
        | some .flowSequence, _ =>
          (readFlowItems handles fuel reading.step).map fun read => (.sequence read.1, read.2)
        | some .flowMapping, _ =>
          (readFlowPairs handles fuel reading.step).map fun read => (.mapping read.1, read.2)
        | some .blockSequence, .block | some .blockSequence, .blockPair =>
          (readItems handles fuel false reading.step).map fun read => (.sequence read.1, read.2)
        | some .blockEntry, .blockPair =>
          (readItems handles fuel true reading).map fun read => (.sequence read.1, read.2)
        | some .blockMapping, .block | some .blockMapping, .blockPair =>
          (readPairs handles fuel reading.step).map fun read => (.mapping read.1, read.2)
        | _, _ => readNothing properties tag reading
      return (.withNumber properties.number node, rest)

/-- Read a node that is empty when one of some tokens is next. -/
def readUnless (handles : Handles) : (fuel : Nat) → (ends : Token → Bool) → Place → Reading →
    Option (Node × Reading)
  | 0, _, _, _ => none
  | fuel + 1, ends, place, reading =>
    if reading.next?.any ends then some (.empty, reading) else readNode handles fuel place reading

/-- Read the value after a key, if there is one. -/
def readValue (handles : Handles) : (fuel : Nat) → (ends : Token → Bool) → Place → Reading →
    Option (Node × Reading)
  | 0, _, _, _ => none
  | fuel + 1, ends, place, reading =>
    if reading.next? = some .value then readUnless handles fuel ends place reading.step
    else some (.empty, reading)

/-- Read the items of a sequence in block style. With `level` it stands at the column of a mapping,
and no token ends it. -/
def readItems (handles : Handles) : (fuel : Nat) → (level : Bool) → Reading →
    Option (List Node × Reading)
  | 0, _, _ => none
  | fuel + 1, level, reading =>
    if reading.next? = some .blockEntry then do
      let (item, rest) ← readUnless handles fuel (endsItem level) .block reading.step
      let (items, rest) ← readItems handles fuel level rest
      return (item :: items, rest)
    else if level then some ([], reading)
    else if reading.next? = some .blockEnd then some ([], reading.step)
    else none

/-- Read the entries of a mapping in block style. -/
def readPairs (handles : Handles) : (fuel : Nat) → Reading →
    Option (List (Node × Node) × Reading)
  | 0, _ => none
  | fuel + 1, reading =>
    if reading.next? = some .key then do
      let (key, rest) ← readUnless handles fuel endsPart .blockPair reading.step
      let (value, rest) ← readValue handles fuel endsPart .blockPair rest
      let (pairs, rest) ← readPairs handles fuel rest
      return ((key, value) :: pairs, rest)
    else if reading.next? = some .blockEnd then some ([], reading.step)
    else none

/-- Read an item of a sequence in flow style. With the mark of a key it is a mapping of one entry.
A token that says that the key is empty belongs to the key. -/
def readFlowItem (handles : Handles) : (fuel : Nat) → Reading → Option (Node × Reading)
  | 0, _ => none
  | fuel + 1, reading =>
    if reading.next? = some .key then do
      let isEmpty := reading.step.next?.any (endsFlowKey .flowSequenceEnd)
      let (key, rest) ←
        if isEmpty then some (.empty, reading.step.step)
        else readNode handles fuel .flow reading.step
      let (value, rest) ← readValue handles fuel (endsFlowValue .flowSequenceEnd) .flow rest
      return (.mapping [(key, value)], rest)
    else readNode handles fuel .flow reading

/-- Read the items of a sequence in flow style. A comma may follow the last one. -/
def readFlowItems (handles : Handles) : (fuel : Nat) → Reading → Option (List Node × Reading)
  | 0, _ => none
  | fuel + 1, reading =>
    if reading.next? = some .flowSequenceEnd then some ([], reading.step)
    else do
      let (item, rest) ← readFlowItem handles fuel reading
      if rest.next? = some .flowSequenceEnd then return ([item], rest.step)
      else if rest.next? = some .flowEntry then
        let (items, rest) ← readFlowItems handles fuel rest.step
        return (item :: items, rest)
      else none

/-- Read an entry of a mapping in flow style. Without the mark of a key it has no value. -/
def readFlowPair (handles : Handles) : (fuel : Nat) → Reading → Option ((Node × Node) × Reading)
  | 0, _ => none
  | fuel + 1, reading =>
    if reading.next? = some .key then do
      let (key, rest) ← readUnless handles fuel (endsFlowKey .flowMappingEnd) .flow reading.step
      let (value, rest) ← readValue handles fuel (endsFlowValue .flowMappingEnd) .flow rest
      return ((key, value), rest)
    else
      (readNode handles fuel .flow reading).map fun read => ((read.1, .empty), read.2)

/-- Read the entries of a mapping in flow style. A comma may follow the last one. -/
def readFlowPairs (handles : Handles) : (fuel : Nat) → Reading →
    Option (List (Node × Node) × Reading)
  | 0, _ => none
  | fuel + 1, reading =>
    if reading.next? = some .flowMappingEnd then some ([], reading.step)
    else do
      let (pair, rest) ← readFlowPair handles fuel reading
      if rest.next? = some .flowMappingEnd then return ([pair], rest.step)
      else if rest.next? = some .flowEntry then
        let (pairs, rest) ← readFlowPairs handles fuel rest.step
        return (pair :: pairs, rest)
      else none

end

/-! ## Documents -/

/-- The directives in front of a document, and the tokens after them. -/
def takeDirectives : List Token → List Directive × List Token
  | .directive directive :: tokens =>
    let (directives, rest) := takeDirectives tokens
    (directive :: directives, rest)
  | tokens => ([], tokens)

/-- Whether a document has no content when a token is next. -/
def endsDocument : Token → Bool
  | .directive _ | .documentStart | .documentEnd => true
  | _ => false

/-- Read the node of a document that starts with a line of its own. -/
def readContent (handles : Handles) (fuel : Nat) (tokens : List Token) :
    Option (Node × Reading) :=
  if tokens.head?.all endsDocument then some (.empty, { tokens })
  else readNode handles fuel .block { tokens }

/-- The document that tokens make up. Without directives the line that starts the document may be
missing, and then there is no document where there are no tokens. No reader goes through more than
three others before it takes a token, so the fuel suffices. -/
def Document.ofTokens? (tokens : List Token) : Option Document := do
  let fuel := 4 * tokens.length + 4
  let (directives, content) := takeDirectives tokens
  let handles ← Handles.ofDirectives? directives
  let (root, rest) ←
    match content with
    | .documentStart :: content => readContent handles fuel content
    | content =>
      if directives ≠ [] then none
      else if content = [] then some (.empty, { tokens := content })
      else readNode handles fuel .block { tokens := content }
  if rest.tokens.all (· = .documentEnd) then
    return { root }
  else
    none

/-- The document that a text denotes. -/
def parse? (text : String) : Option Document :=
  if text.toList.all isAllowed then
    (Token.scan? (unifyBreaks text.toList)).bind Document.ofTokens?
  else none

end ImageGallery.Yaml
