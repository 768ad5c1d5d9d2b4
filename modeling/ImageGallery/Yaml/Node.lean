import ImageGallery.Yaml.Token

/-!
# YAML nodes

What a YAML document denotes: scalars, sequences and mappings. A node may carry a number, by which
references in its document lead to it; the last node of a number is the one that counts.
-/

namespace ImageGallery.Yaml

/-- A text. -/
structure Scalar where
  style : Style := .plain
  /-- The name of its type, if one is written. -/
  tag : Option Tag := none
  text : String := ""
deriving DecidableEq, Inhabited

namespace Scalar

/-- Whether nothing is written. -/
def isEmpty (scalar : Scalar) : Bool :=
  scalar.style = .plain && scalar.text = ""

/-- The text, if its type is open: of a plain scalar, or of a literal block with a tag. -/
def textAs? (type : Tag) (scalar : Scalar) : Option String :=
  if scalar.style = .plain ∨ (scalar.style = .literal ∧ scalar.tag = some type) then
    some scalar.text
  else
    none

end Scalar

/-- A node of a document. -/
inductive Node where
  | scalar (scalar : Scalar)
  | sequence (items : List Node)
  | mapping (entries : List (Node × Node))
  /-- A node with a number. -/
  | numbered (number : Nat) (node : Node)
  /-- The last node with a number. -/
  | reference (number : Nat)
deriving Inhabited

namespace Node

/-- The node where nothing is written. -/
def empty : Node :=
  scalar {}

/-- A node with the number it carries, if it carries one. -/
def withNumber (number : Option Nat) (node : Node) : Node :=
  match number with
  | some number => numbered number node
  | none => node

/-- A node without the numbers it carries. -/
def content : Node → Node
  | numbered _ node => node.content
  | node => node

mutual

/-- The nodes with a number in a node, in the order in which they start. -/
def allWith (number : Nat) : Node → List Node
  | scalar _ => []
  | sequence items => allWithIn number items
  | mapping entries => allWithBetween number entries
  | numbered own node => if own = number then node :: node.allWith number else node.allWith number
  | reference _ => []

/-- The nodes with a number in the items of a sequence. -/
def allWithIn (number : Nat) : List Node → List Node
  | [] => []
  | item :: items => item.allWith number ++ allWithIn number items

/-- The nodes with a number in the entries of a mapping. -/
def allWithBetween (number : Nat) : List (Node × Node) → List Node
  | [] => []
  | (key, value) :: entries =>
    key.allWith number ++ value.allWith number ++ allWithBetween number entries

end

end Node

/-- A document. -/
structure Document where
  root : Node
deriving Inhabited

namespace Document

/-- The content of a node of a document, which is that of another node if it is a reference. -/
def follow (document : Document) (node : Node) : Node :=
  match node.content with
  | .reference number => ((document.root.allWith number).getLast?.getD .empty).content
  | content => content

/-- The scalar that a node of a document stands for. -/
def scalar? (document : Document) (node : Node) : Option Scalar :=
  match document.follow node with
  | .scalar scalar => some scalar
  | _ => none

end Document

end ImageGallery.Yaml
