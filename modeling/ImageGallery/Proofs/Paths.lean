import Mathlib.Data.List.TakeWhile
import ImageGallery.Http.Route
import ImageGallery.Proofs.StorageKey
import ImageGallery.Proofs.VisibleText
import ImageGallery.Text.PercentEncoding

/-!
# Segments in paths

An id that is a segment stands for itself in a path: no character in it ends the path, cuts it or
starts an escape. So the path of its gallery leads to its gallery.
-/

namespace ImageGallery

/-! ## Escapes -/

namespace Text.PercentEncoding

theorem decodeBytes_cons_of_ne {byte : UInt8} (unmarked : byte ≠ mark) (bytes : Bytes) :
    decodeBytes (byte :: bytes) = byte :: decodeBytes bytes := by
  match bytes with
  | [] | [_] => simp [decodeBytes]
  | high :: low :: rest => rw [decodeBytes, if_neg unmarked]

/-- Bytes without a mark stand for themselves. -/
theorem decodeBytes_of_not_mem {bytes : Bytes} (unmarked : mark ∉ bytes) :
    decodeBytes bytes = bytes := by
  induction bytes with
  | nil => simp [decodeBytes]
  | cons byte bytes ih =>
      rw [List.mem_cons, not_or] at unmarked
      rw [decodeBytes_cons_of_ne (Ne.symm unmarked.1), ih unmarked.2]

end Text.PercentEncoding

/-! ## Segments -/

namespace Segment

variable {segment : String}

theorem allows_of_isValid (valid : isValid segment) : ∀ char ∈ segment.toList, allows char := by
  unfold isValid at valid
  simp only [Bool.and_eq_true, List.all_eq_true] at valid
  exact valid.2

theorem not_mem_of_isValid (valid : isValid segment) {char : Char}
    (refused : allows char = false) : char ∉ segment.toList := by
  intro mem
  have allowed := allows_of_isValid valid char mem
  rw [refused] at allowed
  cases allowed

theorem ne_empty_of_isValid (valid : isValid segment) : segment ≠ "" := by
  rintro rfl
  revert valid
  decide

theorem isVisible_of_allows {char : Char} (allowed : allows char) :
    Http.ContentType.isVisible char := by
  unfold allows at allowed
  simp only [Bool.or_eq_true, decide_eq_true_eq] at allowed
  rcases allowed with ((alphanum | rfl) | rfl) | rfl
  · -- The letters and digits as ranges of code points.
    change (decide (65 ≤ char.val ∧ char.val ≤ 90) ||
      decide (97 ≤ char.val) && decide (char.val ≤ 122) ||
      decide (48 ≤ char.val) && decide (char.val ≤ 57)) = true at alphanum
    simp only [Bool.or_eq_true, Bool.and_eq_true, decide_eq_true_eq,
      UInt32.le_iff_toNat_le] at alphanum
    change ((65 ≤ char.toNat ∧ char.toNat ≤ 90) ∨ 97 ≤ char.toNat ∧ char.toNat ≤ 122) ∨
      48 ≤ char.toNat ∧ char.toNat ≤ 57 at alphanum
    rw [Text.isVisible_iff]
    omega
  · decide
  · decide
  · decide

theorem visible_of_isValid (valid : isValid segment) : Text.Visible segment :=
  fun char mem => isVisible_of_allows (allows_of_isValid valid char mem)

/-- A segment holds no escapes. -/
theorem decode?_of_isValid (valid : isValid segment) :
    Text.PercentEncoding.decode? segment = some segment := by
  have unmarked : Text.PercentEncoding.mark ∉ Text.encode segment := fun mem =>
    not_mem_of_isValid valid (by decide)
      ((Text.mem_encode_iff (visible_of_isValid valid) (by decide :
        Http.ContentType.isVisible '%')).mp mem)
  rw [Text.PercentEncoding.decode?, Text.PercentEncoding.decodeBytes_of_not_mem unmarked,
    Text.decode?_encode]

end Segment

/-! ## Paths -/

namespace Http

/-- A target that is a path and nothing more is the path of its request. -/
theorem Request.path_of_target {request : Request}
    (rooted : request.target.toList.head? = some '/') (unasked : '?' ∉ request.target.toList)
    (unmarked : '#' ∉ request.target.toList) : request.path = request.target := by
  have uncut : withoutQuery request.target.toList = request.target.toList := by
    rw [withoutQuery, List.takeWhile_eq_self_iff]
    intro char mem
    have notAsked : char ≠ '?' := ne_of_mem_of_not_mem mem unasked
    have notMarked : char ≠ '#' := ne_of_mem_of_not_mem mem unmarked
    simp [notAsked, notMarked]
  rw [path, pathOf, if_pos (.inl rooted), uncut, String.ofList_toList]

/-- The path of a parent's gallery. -/
def galleryPath (parent : String) : String :=
  "/parents/" ++ parent ++ "/images"

theorem toList_galleryPath (parent : String) : (galleryPath parent).toList =
    "/parents/".toList ++ (parent.toList ++ "/images".toList) := by
  rw [galleryPath, String.toList_append, String.toList_append, List.append_assoc]

section Gallery

variable {parent : String}

theorem not_mem_galleryPath (valid : Segment.isValid parent) {char : Char}
    (refused : Segment.allows char = false) (front : char ∉ "/parents/".toList)
    (back : char ∉ "/images".toList) : char ∉ (galleryPath parent).toList := by
  rw [toList_galleryPath, List.mem_append, List.mem_append, not_or, not_or]
  exact ⟨front, Segment.not_mem_of_isValid valid refused, back⟩

/-- The path of a parent's gallery leads to the gallery. -/
theorem ofPath?_galleryPath (valid : Segment.isValid parent) :
    Route.ofPath? (galleryPath parent) = some (.gallery parent) := by
  have chars : (galleryPath parent).toList =
      [] ++ '/' :: ("parents".toList ++ '/' :: (parent.toList ++ '/' :: "images".toList)) := by
    rw [toList_galleryPath]
    rfl
  have cut : Text.fields '/' (galleryPath parent).toList =
      [[], "parents".toList, parent.toList, "images".toList] := by
    rw [chars, Text.fields_append_cons List.not_mem_nil, Text.fields_append_cons (by decide),
      Text.fields_append_cons (EntryName.of_segment valid).whole,
      Text.fields_of_not_mem (by decide)]
  have named : Route.segments (galleryPath parent) = ["", "parents", parent, "images"] := by
    rw [Route.segments, cut]
    simp
  rw [Route.ofPath?, named]
  exact if_neg (Segment.ne_empty_of_isValid valid)

/-- A request for the path of a parent's gallery leads to the gallery. -/
theorem Request.ofPath?_of_target {request : Request} (valid : Segment.isValid parent)
    (target : request.target = galleryPath parent) :
    Route.ofPath? request.path = some (.gallery parent) := by
  have path : request.path = request.target := by
    apply Request.path_of_target
    · rw [target, toList_galleryPath]
      rfl
    · rw [target]
      exact not_mem_galleryPath valid (by decide) (by decide) (by decide)
    · rw [target]
      exact not_mem_galleryPath valid (by decide) (by decide) (by decide)
  rw [path, target, ofPath?_galleryPath valid]

end Gallery

end Http

end ImageGallery
