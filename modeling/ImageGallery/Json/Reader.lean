import ImageGallery.Json.Value

/-!
# Reading JSON

A reader takes a value from the front of a text and returns it with the text that follows. Two
kinds of faults are told apart: text that is no JSON, and JSON of a shape that the caller did not
ask for. The first fault in reading order is the one that is reported, so readers of particular
shapes work on the text and not on a finished value.

Values that are kept have at most 127 levels of lists and objects, numbers that stay below
`2 ^ 1024` when they are rounded, and paired surrogates. A value that is only skipped needs none of
this.
-/

namespace ImageGallery.Json

/-- Why a text was refused. -/
inductive Fault where
  /-- The text is not JSON, or outside the limits on depth and numbers. -/
  | malformed
  /-- The text is JSON so far, but not of the wanted shape. -/
  | mismatch
deriving DecidableEq, Inhabited

/-- A reader's answer: what was read together with the text after it, or a fault. -/
abbrev Reading := Except Fault

/-- Whether a value is kept or only skipped. -/
inductive Care where
  | kept
  | skipped
deriving DecidableEq

/-- The number of nested lists and objects that a text may open. -/
def depthLimit : Nat := 127

/-- The four characters that may stand between tokens. -/
def isGap (char : Char) : Bool :=
  char = ' ' || char = '\n' || char = '\t' || char = '\r'

/-- Drop the characters between tokens. -/
def skipGap (chars : List Char) : List Char :=
  chars.dropWhile isGap

/-- Take a fixed word from the front of a text. -/
def expect : (word : List Char) → List Char → Reading (List Char)
  | [], chars => .ok chars
  | _ :: _, [] => .error .malformed
  | wanted :: word, char :: chars => if wanted = char then expect word chars else .error .malformed

/-! ## Strings -/

/-- The code unit of the four digits of a `\u` escape. -/
def codeUnit? (a b c d : Char) : Option Nat :=
  match Text.hexValue? a, Text.hexValue? b, Text.hexValue? c, Text.hexValue? d with
  | some a, some b, some c, some d => some (((a * 16 + b) * 16 + c) * 16 + d)
  | _, _, _, _ => none

/-- The first unit of a surrogate pair. -/
def isLeading (unit : Nat) : Bool :=
  0xD800 ≤ unit && unit < 0xDC00

/-- The second unit of a surrogate pair. -/
def isTrailing (unit : Nat) : Bool :=
  0xDC00 ≤ unit && unit < 0xE000

/-- The character that a one-letter escape stands for. -/
def shortEscape? : Char → Option Char
  | '"' => some '"'
  | '\\' => some '\\'
  | '/' => some '/'
  | 'b' => some '\x08'
  | 'f' => some '\x0c'
  | 'n' => some '\n'
  | 'r' => some '\r'
  | 't' => some '\t'
  | _ => none

/-- Put a character in front of what was read after it. -/
def prepend (char : Char) : Reading (List Char × List Char) → Reading (List Char × List Char)
  | .ok (chars, rest) => .ok (char :: chars, rest)
  | .error fault => .error fault

/-- Read the rest of a string after its opening quote. -/
def readCharacters (care : Care) : List Char → Reading (List Char × List Char)
  | [] => .error .malformed
  | '"' :: rest => .ok ([], rest)
  | '\\' :: 'u' :: a :: b :: c :: d :: rest =>
    match codeUnit? a b c d with
    | none => .error .malformed
    | some unit =>
      if care = .skipped then readCharacters care rest
      else if isLeading unit then
        match rest with
        | '\\' :: 'u' :: a :: b :: c :: d :: rest =>
          match codeUnit? a b c d with
          | none => .error .malformed
          | some second =>
            if isTrailing second then
              prepend (Char.ofNat (0x10000 + (unit - 0xD800) * 0x400 + (second - 0xDC00)))
                (readCharacters care rest)
            else .error .malformed
        | _ => .error .malformed
      else if isTrailing unit then .error .malformed
      else prepend (Char.ofNat unit) (readCharacters care rest)
  | '\\' :: letter :: rest =>
    match shortEscape? letter with
    | some char => prepend char (readCharacters care rest)
    | none => .error .malformed
  | char :: rest =>
    if char = '\\' ∨ char.toNat < 0x20 then .error .malformed
    else prepend char (readCharacters care rest)
termination_by chars => chars.length

/-! ## Numbers -/

/-- Split a text after its leading digits. -/
def splitDigits (chars : List Char) : List Char × List Char :=
  (chars.takeWhile Char.isDigit, chars.dropWhile Char.isDigit)

/-- The digits of an integer part: at least one, and no zero in front of another. -/
def readWhole (chars : List Char) : Reading (List Char × List Char) :=
  match splitDigits chars with
  | ([], _) => .error .malformed
  | ('0' :: _ :: _, _) => .error .malformed
  | split => .ok split

/-- The digits of a fraction, or none if there is no point. -/
def readFraction : List Char → Reading (List Char × List Char)
  | '.' :: chars =>
    match splitDigits chars with
    | ([], _) => .error .malformed
    | split => .ok split
  | chars => .ok ([], chars)

/-- Read the digits of an exponent after its sign. -/
def readPower (negative : Bool) (chars : List Char) : Reading (Option Int × List Char) :=
  match splitDigits chars with
  | ([], _) => .error .malformed
  | (digits, rest) =>
    let power : Int := Text.appendDigits 0 digits
    .ok (some (if negative then -power else power), rest)

/-- The exponent, or none if there is no `e`. -/
def readExponent : List Char → Reading (Option Int × List Char)
  | marker :: chars =>
    if marker = 'e' ∨ marker = 'E' then
      match chars with
      | '+' :: rest => readPower false rest
      | '-' :: rest => readPower true rest
      | rest => readPower false rest
    else .ok (none, marker :: chars)
  | [] => .ok (none, [])

/-- Read a numeral after its sign. A numeral beyond the binary range is refused where it is kept. -/
def readUnsigned (care : Care) (negative : Bool) (chars : List Char) :
    Reading (Numeral × List Char) := do
  let (whole, rest) ← readWhole chars
  let (fraction, rest) ← readFraction rest
  let (power, rest) ← readExponent rest
  let numeral := Numeral.ofParts negative whole fraction power
  if care = .skipped ∨ numeral.toBinary64?.isSome then
    return (numeral, rest)
  else
    throw .malformed

/-- Read a numeral. -/
def readNumeral (care : Care) : List Char → Reading (Numeral × List Char)
  | '-' :: chars => readUnsigned care true chars
  | chars => readUnsigned care false chars

/-! ## Values -/

/-- The depth that is left inside one more list or object, if that may be opened. -/
def deeper? (care : Care) : Nat → Option Nat
  | 0 => if care = .skipped then some 0 else none
  | depth + 1 => some depth

/-- Read a string from its opening quote. -/
def readString (care : Care) : List Char → Reading (String × List Char)
  | '"' :: chars => do
    let (contents, rest) ← readCharacters care chars
    return (String.ofList contents, rest)
  | _ => .error .malformed

/-- What follows an element inside brackets: the closing bracket, or a comma and another element. -/
def readSeparator (close : Char) (chars : List Char) : Reading (Bool × List Char) :=
  match skipGap chars with
  | char :: rest =>
    if char = close then .ok (false, rest)
    else if char = ',' then .ok (true, rest)
    else .error .malformed
  | [] => .error .malformed

/-- Read a member's key and the colon after it. -/
def readKey (care : Care) (chars : List Char) : Reading (String × List Char) := do
  let (key, rest) ← readString care (skipGap chars)
  let rest ← expect [':'] (skipGap rest)
  return (key, rest)

mutual

/-- Read a value. Each step takes one from the fuel, which the length of the text bounds. -/
def readValueWith (care : Care) (fuel depth : Nat) (chars : List Char) :
    Reading (Value × List Char) :=
  match fuel with
  | 0 => .error .malformed
  | fuel + 1 =>
    match skipGap chars with
    | 'n' :: rest => do return (.null, ← expect ['u', 'l', 'l'] rest)
    | 't' :: rest => do return (.boolean true, ← expect ['r', 'u', 'e'] rest)
    | 'f' :: rest => do return (.boolean false, ← expect ['a', 'l', 's', 'e'] rest)
    | '"' :: rest => do
      let (contents, rest) ← readString care ('"' :: rest)
      return (.text contents, rest)
    | '[' :: rest =>
      match deeper? care depth with
      | none => .error .malformed
      | some depth =>
        match skipGap rest with
        | ']' :: rest => .ok (.list [], rest)
        | rest => do
          let (items, rest) ← readItemsWith care fuel depth rest
          return (.list items, rest)
    | '{' :: rest =>
      match deeper? care depth with
      | none => .error .malformed
      | some depth =>
        match skipGap rest with
        | '}' :: rest => .ok (.object [], rest)
        | rest => do
          let (members, rest) ← readMembersWith care fuel depth rest
          return (.object members, rest)
    | rest => do
      let (numeral, rest) ← readNumeral care rest
      return (.number numeral, rest)

/-- Read one or more values up to the bracket that closes their list. -/
def readItemsWith (care : Care) (fuel depth : Nat) (chars : List Char) :
    Reading (List Value × List Char) :=
  match fuel with
  | 0 => .error .malformed
  | fuel + 1 => do
    let (item, rest) ← readValueWith care fuel depth chars
    let (more, rest) ← readSeparator ']' rest
    if more then
      let (items, rest) ← readItemsWith care fuel depth rest
      return (item :: items, rest)
    else
      return ([item], rest)

/-- Read one or more members up to the brace that closes their object. -/
def readMembersWith (care : Care) (fuel depth : Nat) (chars : List Char) :
    Reading (List (String × Value) × List Char) :=
  match fuel with
  | 0 => .error .malformed
  | fuel + 1 => do
    let (key, rest) ← readKey care chars
    let (value, rest) ← readValueWith care fuel depth rest
    let (more, rest) ← readSeparator '}' rest
    if more then
      let (members, rest) ← readMembersWith care fuel depth rest
      return ((key, value) :: members, rest)
    else
      return ([(key, value)], rest)

end

/-- Enough fuel for any value at the front of a text: every two steps take a character. -/
def fuelFor (chars : List Char) : Nat :=
  2 * chars.length + 2

/-- Read a value that is kept, below the given number of further levels. -/
def readValue : (fuel depth : Nat) → List Char → Reading (Value × List Char) :=
  readValueWith .kept

/-- Skip a value. -/
def skipValue (fuel : Nat) (chars : List Char) : Reading (List Char) :=
  (readValueWith .skipped fuel 0 chars).map (·.2)

/-- Refuse text after the value that was read. -/
def finish {α : Type} : Reading (α × List Char) → Reading α
  | .ok (value, rest) => if skipGap rest = [] then .ok value else .error .malformed
  | .error fault => .error fault

/-- Read a whole text, which bounds the fuel of all that is read from it. -/
def readText {α : Type} (read : (fuel depth : Nat) → List Char → Reading (α × List Char))
    (chars : List Char) : Reading α :=
  finish (read (fuelFor chars) depthLimit chars)

/-- The value of a whole text. -/
def parse : List Char → Reading Value :=
  readText readValue

end ImageGallery.Json
