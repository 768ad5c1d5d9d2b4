import ImageGallery.Json.Reader

/-!
# Reading JSON of a given shape

A record is read from an object with its fields as members, or from a list with its fields in
order. Members of other keys are skipped and absent fields keep the value they start with, but a
field must not be given twice. A list of records is read item by item, so the first fault in the
text decides whether it counts as malformed or as a mismatch.
-/

namespace ImageGallery.Json

/-- The fault of a text at whose front a list or an object was wanted but does not start. A scalar
is read first, since a malformed one is no value of another shape. -/
def refusal (fuel : Nat) (chars : List Char) : Fault :=
  match skipGap chars with
  | '[' :: _ => .mismatch
  | '{' :: _ => .mismatch
  | rest =>
    match readValue fuel 0 rest with
    | .ok _ => .mismatch
    | .error fault => fault

/-! ## Lists -/

/-- Read one or more elements up to the bracket that closes their list. -/
def readElements {α : Type} (element : (fuel depth : Nat) → List Char → Reading (α × List Char)) :
    (fuel depth : Nat) → List Char → Reading (List α × List Char)
  | 0, _, _ => .error .malformed
  | fuel + 1, depth, chars => do
    let (item, rest) ← element fuel depth chars
    let (more, rest) ← readSeparator ']' rest
    if more then
      let (items, rest) ← readElements element fuel depth rest
      return (item :: items, rest)
    else
      return ([item], rest)

/-- Read a list of elements. -/
def readList {α : Type} (element : (fuel depth : Nat) → List Char → Reading (α × List Char))
    (fuel depth : Nat) (chars : List Char) : Reading (List α × List Char) :=
  match skipGap chars with
  | '[' :: rest =>
    match depth with
    | 0 => .error .malformed
    | depth + 1 =>
      match skipGap rest with
      | ']' :: rest => .ok ([], rest)
      | rest => readElements element fuel depth rest
  | rest => .error (refusal fuel rest)

/-! ## Records -/

/-- A field of a record: its key, and how its value changes the record read so far. -/
structure Field (σ : Type) where
  key : String
  read : (fuel depth : Nat) → σ → List Char → Reading (σ × List Char)

/-- Read one or more members up to the closing brace. `seen` holds the keys of the fields that
were given already. -/
def readMembers {σ : Type} (fields : List (Field σ)) :
    (fuel depth : Nat) → (seen : List String) → σ → List Char → Reading (σ × List Char)
  | 0, _, _, _, _ => .error .malformed
  | fuel + 1, depth, seen, record, chars => do
    let (key, rest) ← readString .kept (skipGap chars)
    let field? := fields.find? (·.key = key)
    if field?.isSome ∧ key ∈ seen then
      throw .mismatch
    let rest ← expect [':'] (skipGap rest)
    let (record, rest) ←
      match field? with
      | some field => field.read fuel depth record rest
      | none => do
        let rest ← skipValue fuel rest
        pure (record, rest)
    let (more, rest) ← readSeparator '}' rest
    if more then
      readMembers fields fuel depth (key :: seen) record rest
    else
      return (record, rest)

/-- Read the fields of a record in order up to the closing bracket. -/
def readPositions {σ : Type} (fuel depth : Nat) :
    List (Field σ) → σ → List Char → Reading (σ × List Char)
  | [], _, _ => .error .malformed
  | field :: fields, record, chars => do
    let (record, rest) ← field.read fuel depth record chars
    let (more, rest) ← readSeparator ']' rest
    if more then
      readPositions fuel depth fields record rest
    else
      return (record, rest)

/-- Read a record, starting from the given one. -/
def readRecord {σ : Type} (fields : List (Field σ)) (start : σ) (fuel depth : Nat)
    (chars : List Char) : Reading (σ × List Char) :=
  match skipGap chars with
  | '{' :: rest =>
    match depth with
    | 0 => .error .malformed
    | depth + 1 =>
      match skipGap rest with
      | '}' :: rest => .ok (start, rest)
      | rest => readMembers fields fuel depth [] start rest
  | '[' :: rest =>
    match depth with
    | 0 => .error .malformed
    | depth + 1 =>
      match skipGap rest with
      | ']' :: rest => .ok (start, rest)
      | rest => readPositions fuel depth fields start rest
  | rest => .error (refusal fuel rest)

end ImageGallery.Json
