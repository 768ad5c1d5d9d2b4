import ImageGallery.Json.Value
import ImageGallery.Text.Integer

/-!
# Printing JSON

A value is printed on one line, or with each item and member on a line of its own, indented by two
blanks a level. Strings escape the quote, the backslash and the control characters below a blank.
-/

namespace ImageGallery.Json

/-- The letter of a control character's short escape. -/
def escapeLetter? : Char → Option Char
  | '"' => some '"'
  | '\\' => some '\\'
  | '\x08' => some 'b'
  | '\x0c' => some 'f'
  | '\n' => some 'n'
  | '\r' => some 'r'
  | '\t' => some 't'
  | _ => none

/-- A character as it stands inside a string. -/
def escape (char : Char) : List Char :=
  match escapeLetter? char with
  | some letter => ['\\', letter]
  | none => if char.toNat < 0x20 then '\\' :: 'u' :: Text.hexText 4 char.toNat else [char]

/-- A string between quotes. -/
def printString (contents : String) : List Char :=
  '"' :: contents.toList.flatMap escape ++ ['"']

/-- A numeral; a decimal one as its digits and an exponent. -/
def printNumeral : Numeral → List Char
  | .integer negative digits => (if negative then ['-'] else []) ++ Text.naturalText digits
  | .decimal negative digits exponent =>
    (if negative then ['-'] else []) ++ Text.naturalText digits ++ 'e' :: Text.integerText exponent

/-- How the parts of a list or an object are set apart. -/
inductive Layout where
  /-- Everything on one line without blanks. -/
  | compact
  /-- A line for each part, at the given level of indentation. -/
  | indented (level : Nat)

namespace Layout

/-- The layout of the parts inside a list or an object. -/
def inner : Layout → Layout
  | compact => compact
  | indented level => indented (level + 1)

/-- What stands in front of a part or a closing bracket. -/
def lead : Layout → List Char
  | compact => []
  | indented level => '\n' :: List.replicate (2 * level) ' '

/-- What stands between a key and its value. -/
def colon : Layout → List Char
  | compact => [':']
  | indented _ => [':', ' ']

end Layout

mutual

/-- Print a value. -/
def print (layout : Layout) : Value → List Char
  | .null => ['n', 'u', 'l', 'l']
  | .boolean true => ['t', 'r', 'u', 'e']
  | .boolean false => ['f', 'a', 'l', 's', 'e']
  | .number numeral => printNumeral numeral
  | .text contents => printString contents
  | .list [] => ['[', ']']
  | .list (item :: items) =>
    '[' :: layout.inner.lead ++ print layout.inner item ++ printItems layout.inner items
      ++ layout.lead ++ [']']
  | .object [] => ['{', '}']
  | .object ((key, value) :: members) =>
    '{' :: layout.inner.lead ++ printString key ++ layout.colon ++ print layout.inner value
      ++ printMembers layout.inner members ++ layout.lead ++ ['}']

/-- Print the items after the first one of a list. -/
def printItems (layout : Layout) : List Value → List Char
  | [] => []
  | item :: items => ',' :: layout.lead ++ print layout item ++ printItems layout items

/-- Print the members after the first one of an object. -/
def printMembers (layout : Layout) : List (String × Value) → List Char
  | [] => []
  | (key, value) :: members =>
    ',' :: layout.lead ++ printString key ++ layout.colon ++ print layout value
      ++ printMembers layout members

end

/-- A value on one line. -/
def Value.compact (value : Value) : String :=
  String.ofList (print .compact value)

/-- A value on indented lines. -/
def Value.pretty (value : Value) : String :=
  String.ofList (print (.indented 0) value)

end ImageGallery.Json
