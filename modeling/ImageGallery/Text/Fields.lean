/-!
# Separated fields

Cutting a text at a separator. A text always has at least one field, adjacent separators enclose
an empty one, and joining the fields gives the text back.
-/

namespace ImageGallery.Text

/-- The fields of a text between the occurrences of a separator. -/
def fields (separator : Char) : List Char → List (List Char)
  | [] => [[]]
  | char :: rest =>
    if char = separator then
      [] :: fields separator rest
    else
      match fields separator rest with
      | [] => [[char]]
      | field :: others => (char :: field) :: others

/-- The text with the given fields. -/
def unfields (separator : Char) : List (List Char) → List Char
  | [] => []
  | [field] => field
  | field :: other :: others => field ++ separator :: unfields separator (other :: others)

@[simp]
theorem fields_nil (separator : Char) : fields separator [] = [[]] :=
  rfl

/-- Every text has a first field. -/
theorem fields_ne_nil (separator : Char) (chars : List Char) : fields separator chars ≠ [] := by
  cases chars with
  | nil => simp
  | cons char rest =>
    simp only [fields]
    split
    · simp
    · split <;> simp

/-- Joining the fields of a text gives the text. -/
@[simp]
theorem unfields_fields (separator : Char) (chars : List Char) :
    unfields separator (fields separator chars) = chars := by
  induction chars with
  | nil => rfl
  | cons char rest ih =>
    simp only [fields]
    split
    · rename_i isSeparator
      subst isSeparator
      cases remaining : fields char rest with
      | nil => exact absurd remaining (fields_ne_nil char rest)
      | cons field others => simp [unfields, ← remaining, ih]
    · cases remaining : fields separator rest with
      | nil => exact absurd remaining (fields_ne_nil separator rest)
      | cons field others =>
        rw [remaining] at ih
        cases others with
        | nil => simpa [unfields] using ih
        | cons other others => simpa [unfields] using ih

/-- What stands before the last occurrence of a separator, and what stands after it. -/
def cutLast? (separator : Char) (chars : List Char) : Option (List Char × List Char) :=
  let after := (chars.reverse.takeWhile (· ≠ separator)).reverse
  match chars.reverse.dropWhile (· ≠ separator) with
  | [] => none
  | _ :: before => some (before.reverse, after)

/-- What stands before the first occurrence of a separator, or the whole text without one. -/
def beforeFirst (separator : Char) (chars : List Char) : List Char :=
  chars.takeWhile (· ≠ separator)

end ImageGallery.Text
