import ImageGallery.Yaml.Scalar
import ImageGallery.Yaml.Tag

/-!
# Tokens

What a YAML text consists of. Collections in block style have no marks of their own for where they
start and end; their tokens come from the indentation.
-/

namespace ImageGallery.Yaml

/-- How a scalar is written. -/
inductive Style where
  | plain
  | quoted
  /-- A block whose line breaks stay. -/
  | literal
  /-- A block whose line breaks are folded. -/
  | folded
deriving DecidableEq, Inhabited

/-- A token. -/
inductive Token where
  | directive (directive : Directive)
  | documentStart
  | documentEnd
  /-- The start of a sequence in block style. -/
  | blockSequence
  /-- The start of a mapping in block style. -/
  | blockMapping
  | blockEnd
  /-- A bracket that opens a sequence. -/
  | flowSequence
  | flowSequenceEnd
  /-- A brace that opens a mapping. -/
  | flowMapping
  | flowMappingEnd
  /-- The dash in front of an item. -/
  | blockEntry
  /-- The comma between two entries. -/
  | flowEntry
  | key
  | value
  | anchor (name : String)
  /-- The name of an anchor in the place of a node. -/
  | reference (name : String)
  | tag (text : TagText)
  | scalar (style : Style) (text : String)
deriving DecidableEq, Inhabited

end ImageGallery.Yaml
