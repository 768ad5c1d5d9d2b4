import ImageGallery.Error

/-!
# Storage path segments

Scope and parent ids name directories. An id is usable when it is one to 128 letters, digits,
points, hyphens and underscores of ASCII, and does not start with a point. So it is neither empty
nor hidden, contains no separator, and is not one of the names `.` and `..`.
-/

namespace ImageGallery.Segment

/-- The greatest length of a segment. -/
def maxLength : Nat := 128

/-- The characters of a segment. -/
def allows (char : Char) : Bool :=
  char.isAlphanum || char = '-' || char = '_' || char = '.'

/-- Whether a text can be used verbatim as one directory name. -/
def isValid (segment : String) : Bool :=
  let chars := segment.toList
  !chars.isEmpty && chars.length ≤ maxLength && chars.head? ≠ some '.' && chars.all allows

/-- Refuse an id that is no segment; `kind` says whose id it is. -/
def check (kind segment : String) : Except GalleryError Unit :=
  if isValid segment then .ok () else .error (.invalidInput (.segment kind segment))

/-- A check succeeds for the segments and for nothing else. -/
@[simp]
theorem check_eq_ok_iff {kind segment : String} :
    check kind segment = .ok () ↔ isValid segment = true := by
  unfold check
  split <;> simp_all

end ImageGallery.Segment
