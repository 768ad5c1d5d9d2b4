import ImageGallery.Proofs.YamlSpellings

/-!
# Mappings in block style

A mapping in block style as it is written: its keys with their values, each a scalar, an empty
mapping, nothing, or a mapping that is indented further, and the pauses between them. A lexer finds
the tokens of what is written, and none of the pauses.
-/

namespace ImageGallery.Yaml

/-! ## Mappings as they are written -/

/-- Whether characters are a pause in front of a value. A value in a new line stands further to the
right than its key, which stands at the given column. -/
def isLead (column : Nat) (lead : List Char) : Bool :=
  lead ≠ [] && endsWord lead && (Pause.after? ⟨false, false, 0⟩ lead).any fun later =>
    !later.comment && (!later.fresh || column < later.column)

/-- Whether characters are a pause behind a value. It leads to the column of the next key, in a new
line, or to the end of the text. -/
def isEnding (next : Option Nat) (ending : List Char) : Bool :=
  endsWord ending && (Pause.after? ⟨false, false, 0⟩ ending).any fun later =>
    next.all fun column => later = ⟨false, true, column⟩

/-- A key, with the gap in front of its colon. -/
structure Key where
  spelling : Spelling
  gap : List Char := []
deriving DecidableEq

namespace Key

def text (key : Key) : List Char :=
  key.spelling.text ++ key.gap ++ [':']

/-- The tokens of the key and its colon. -/
def tokens (key : Key) : List Token :=
  [.key, key.spelling.token, .value]

/-- Whether a key can stand at the start of a line. It does not start with what separates documents,
and its colon comes soon enough. -/
def isProper (key : Key) : Bool :=
  key.spelling.isProper && !(['-', '-', '-'].isPrefixOf key.spelling.text) &&
    !(['.', '.', '.'].isPrefixOf key.spelling.text) && key.gap.all isGap &&
    byteSize (key.spelling.text ++ key.gap) ≤ 1024

end Key

/-- What stands behind a key that has no mapping in block style. -/
inductive Content where
  | nothing
  /-- A mapping without entries. -/
  | braces (lead : List Char)
  | scalar (lead : List Char) (spelling : Spelling)
deriving DecidableEq

namespace Content

def text : Content → List Char
  | nothing => []
  | braces lead => lead ++ ['\x7b', '\x7d']
  | scalar lead spelling => lead ++ spelling.text

def tokens : Content → List Token
  | nothing => []
  | braces _ => [.flowMapping, .flowMappingEnd]
  | scalar _ spelling => [spelling.token]

/-- Whether the content can stand behind a key at a column. -/
def isProper (column : Nat) : Content → Bool
  | nothing => true
  | braces lead => isLead column lead
  | scalar lead spelling => isLead column lead && spelling.isProper

end Content

/-- A mapping in block style. -/
inductive Block where
  | nil
  /-- A key and what stands behind it on its line, the pause that follows, and the other keys. -/
  | entry (key : Key) (content : Content) (ending : List Char) (others : Block)
  /-- A key, the pause that leads to a mapping at a column further to the right, and the other
  keys. -/
  | nested (key : Key) (ending : List Char) (column : Nat) (inner others : Block)
deriving DecidableEq

namespace Block

def text : Block → List Char
  | nil => []
  | entry key content ending others => key.text ++ (content.text ++ (ending ++ others.text))
  | nested key ending _ inner others => key.text ++ (ending ++ (inner.text ++ others.text))

/-- The tokens of the keys and values, without those of the start and the end. -/
def tokens : Block → List Token
  | nil => []
  | entry key content _ others => key.tokens ++ (content.tokens ++ others.tokens)
  | nested key _ _ inner others =>
    key.tokens ++ (.blockMapping :: (inner.tokens ++ .blockEnd :: others.tokens))

/-- The column of the first key of a mapping and what follows it, where the mapping stands at the
given column. -/
def start (column : Nat) (next : Option Nat) : Block → Option Nat
  | nil => next
  | entry _ _ _ _ | nested _ _ _ _ _ => some column

/-- Whether a mapping can stand at a column. `next` is the column of the next key behind it, if
there is one. -/
def isProper : (column : Nat) → (next : Option Nat) → Block → Bool
  | _, _, nil => true
  | column, next, entry key content ending others =>
    key.isProper && content.isProper column && isEnding (others.start column next) ending &&
      others.isProper column next
  | column, next, nested key ending inside inner others =>
    key.isProper && column < inside && inner ≠ nil && isEnding (some inside) ending &&
      inner.isProper inside (others.start column next) && others.isProper column next

end Block

/-- A text that is a mapping. -/
inductive Page where
  /-- A mapping in block style at a column, behind a pause. Without keys there is only the pause. -/
  | block (lead : List Char) (column : Nat) (keys : Block)
  /-- A mapping without entries between two pauses. -/
  | braces (lead ending : List Char)
deriving DecidableEq

namespace Page

def text : Page → List Char
  | block lead _ keys => lead ++ keys.text
  | braces lead ending => lead ++ (['\x7b', '\x7d'] ++ ending)

def tokens : Page → List Token
  | block _ _ .nil => []
  | block _ _ keys => .blockMapping :: (keys.tokens ++ [.blockEnd])
  | braces _ _ => [.flowMapping, .flowMappingEnd]

def isProper : Page → Bool
  | block lead column keys =>
    ((Pause.after? ⟨false, true, 0⟩ lead).any fun later =>
      (keys.start column none).all fun column => later = ⟨false, true, column⟩) &&
      keys.isProper column none
  | braces lead ending =>
    ((Pause.after? ⟨false, true, 0⟩ lead).any fun later => !later.comment) && isEnding none ending

end Page

/-! ## Pauses at any column -/

section Pauses

variable {pause later : Pause} {chars lead ending rest : List Char} {column : Nat}
  {next : Option Nat}

theorem Pause.fresh_of_after? (paused : pause.after? chars = some later)
    (fresh : pause.fresh = true) : later.fresh = true := by
  induction chars generalizing pause with
  | nil =>
      cases paused
      exact fresh
  | cons char chars ih =>
      obtain ⟨next, stepped, paused⟩ := Option.bind_eq_some_iff.mp paused
      refine ih paused ?_
      unfold Pause.step? at stepped
      split at stepped
      · cases stepped
        rfl
      · split at stepped
        · cases stepped
          exact fresh
        · split at stepped
          · cases stepped
            exact fresh
          · cases stepped

/-- A pause that ends its line does not depend on where it starts. -/
theorem Pause.after?_shift {comment fresh : Bool} {start : Nat}
    (paused : Pause.after? ⟨comment, fresh, start⟩ chars = some later) (distance : Nat) :
    (Pause.after? ⟨comment, fresh, start + distance⟩ chars = some later ∧ later.fresh = true) ∨
      Pause.after? ⟨comment, fresh, start + distance⟩ chars =
        some { later with column := later.column + distance } ∧ later.fresh = fresh := by
  induction chars generalizing comment start with
  | nil =>
      cases paused
      exact .inr ⟨rfl, rfl⟩
  | cons char chars ih =>
      obtain ⟨next, stepped, paused⟩ := Option.bind_eq_some_iff.mp paused
      unfold Pause.step? at stepped
      rw [Pause.after?, Pause.step?]
      split at stepped
      · next broken =>
          cases stepped
          rw [if_pos broken]
          exact .inl ⟨paused, Pause.fresh_of_after? paused rfl⟩
      · next unbroken =>
          rw [if_neg unbroken]
          split at stepped
          · next blank =>
              cases stepped
              have shifted := ih paused
              rw [Nat.add_right_comm] at shifted
              rw [if_pos blank]
              exact shifted
          · next mark =>
              split at stepped
              · next hash =>
                  cases stepped
                  have shifted := ih paused
                  rw [Nat.add_right_comm] at shifted
                  rw [if_neg mark, if_pos hash]
                  exact shifted
              · cases stepped

theorem exists_after?_of_isLead (proper : isLead column lead = true) {start : Nat}
    (right : column < start) : ∃ later, Pause.after? ⟨false, false, start⟩ lead = some later ∧
      later.comment = false ∧ column < later.column := by
  unfold isLead at proper
  simp only [Bool.and_eq_true, Option.any_eq_true] at proper
  obtain ⟨-, later, paused, ended, below⟩ := proper
  rw [Bool.not_eq_true'] at ended
  have shifted := Pause.after?_shift paused start
  rw [Nat.zero_add] at shifted
  obtain ⟨same, fresh⟩ | ⟨shifted, -⟩ := shifted
  · refine ⟨later, same, ended, ?_⟩
    simpa [fresh] using below
  · exact ⟨_, shifted, ended, Nat.lt_of_lt_of_le right (Nat.le_add_left _ _)⟩

theorem exists_after?_of_isEnding (proper : isEnding next ending = true) (start : Nat) :
    ∃ later, Pause.after? ⟨false, false, start⟩ ending = some later ∧
      ∀ column, next = some column → later = ⟨false, true, column⟩ := by
  unfold isEnding at proper
  simp only [Bool.and_eq_true, Option.any_eq_true] at proper
  obtain ⟨-, later, paused, leads⟩ := proper
  have shifted := Pause.after?_shift paused start
  rw [Nat.zero_add] at shifted
  obtain ⟨same, -⟩ | ⟨shifted, unbroken⟩ := shifted
  · refine ⟨later, same, ?_⟩
    rintro column rfl
    simpa using leads
  · refine ⟨_, shifted, ?_⟩
    rintro column rfl
    obtain rfl : later = ⟨false, true, column⟩ := by simpa using leads
    cases unbroken

end Pauses

end ImageGallery.Yaml
