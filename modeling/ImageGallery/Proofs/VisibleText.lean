import Mathlib.Data.List.Infix
import Mathlib.Data.List.Basic
import ImageGallery.Http.ContentType
import ImageGallery.Text.Utf8

/-!
# Visible text as bytes

The bytes of a text are the text, as nothing is lost when they are read as one. Headers, names and
boundaries are made of the visible characters of ASCII, of which each is one byte; so what is asked
of such a text can be asked of its bytes.
-/

namespace ImageGallery.Text

open Http (ContentType)

/-! ## Bytes of a text -/

/-- The bytes of an array, from an index on. -/
theorem toList_loop_eq (bytes : ByteArray) (index : Nat) (behind : Bytes) :
    ByteArray.toList.loop bytes index behind = behind.reverse ++ bytes.data.toList.drop index := by
  fun_induction ByteArray.toList.loop bytes index behind with
  | case1 index behind inside ih =>
      have small : index < bytes.data.toList.length := by simpa using inside
      rw [ih, List.drop_eq_getElem_cons small]
      simp [ByteArray.get!, inside]
  | case2 index behind outside =>
      have long : bytes.data.toList.length ≤ index := by simpa using outside
      rw [List.drop_eq_nil_of_le long, List.append_nil]

theorem encode_eq_toList (text : String) : encode text = text.toByteArray.data.toList :=
  toList_loop_eq text.toByteArray 0 []

@[simp]
theorem encode_append (first second : String) :
    encode (first ++ second) = encode first ++ encode second := by
  simp only [encode_eq_toList, String.toByteArray_append, ByteArray.toList_data_append]

/-- The bytes of a text are read as the text. -/
theorem decode?_encode (text : String) : decode? (encode text) = some text := by
  have same : ByteArray.mk (encode text).toArray = text.toByteArray := by
    rw [encode_eq_toList]
  rw [decode?, same, String.fromUTF8?, dif_pos text.isValidUTF8]
  rfl

/-! ## Visible characters -/

/-- All characters of a text are visible characters of ASCII, or blanks. -/
def Visible (text : String) : Prop :=
  ∀ char ∈ text.toList, ContentType.isVisible char

instance (text : String) : Decidable (Visible text) :=
  decidable_of_iff (text.toList.all ContentType.isVisible) List.all_eq_true

theorem isVisible_iff {char : Char} :
    ContentType.isVisible char ↔ 32 ≤ char.toNat ∧ char.toNat ≤ 126 := by
  rw [ContentType.isVisible, Bool.and_eq_true, decide_eq_true_eq, decide_eq_true_eq]
  rfl

theorem toNat_toUInt8 {char : Char} (visible : ContentType.isVisible char) :
    char.toUInt8.toNat = char.toNat := by
  obtain ⟨-, small⟩ := isVisible_iff.mp visible
  simp only [Char.toUInt8, UInt32.toNat_toUInt8]
  exact Nat.mod_eq_of_lt (Nat.lt_of_le_of_lt small (by decide))

theorem ofNat_toUInt8 {char : Char} (visible : ContentType.isVisible char) :
    Char.ofNat char.toUInt8.toNat = char := by
  rw [toNat_toUInt8 visible, Char.ofNat_toNat]

theorem toUInt8_inj {first second : Char} (firstVisible : ContentType.isVisible first)
    (secondVisible : ContentType.isVisible second) :
    first.toUInt8 = second.toUInt8 ↔ first = second := by
  constructor
  · intro same
    rw [← ofNat_toUInt8 firstVisible, same, ofNat_toUInt8 secondVisible]
  · intro same
    rw [same]

theorem encode_of_visible {text : String} (visible : Visible text) :
    encode text = text.toList.map Char.toUInt8 := by
  rw [encode_eq_toList, ← String.utf8Encode_toList, List.utf8Encode, List.toList_data_toByteArray,
    List.map_eq_flatMap]
  apply List.flatMap_congr
  intro char mem
  apply String.utf8EncodeChar_eq_singleton
  rw [Char.utf8Size_eq_one_iff]
  obtain ⟨-, small⟩ := isVisible_iff.mp (visible char mem)
  exact UInt32.le_iff_toNat_le.mpr (Nat.le_trans small (by decide))

/-- A byte of a visible text is that of a character in it. -/
theorem mem_encode_iff {text : String} (visible : Visible text) {char : Char}
    (charVisible : ContentType.isVisible char) :
    char.toUInt8 ∈ encode text ↔ char ∈ text.toList := by
  rw [encode_of_visible visible, List.mem_map]
  constructor
  · rintro ⟨other, mem, same⟩
    rwa [← (toUInt8_inj (visible other mem) charVisible).mp same]
  · intro mem
    exact ⟨char, mem, rfl⟩

/-- Bytes that are no visible characters are not in a visible text. -/
theorem not_mem_encode {text : String} (visible : Visible text) {byte : UInt8}
    (hidden : byte.toNat < 32) : byte ∉ encode text := by
  rw [encode_of_visible visible, List.mem_map]
  rintro ⟨char, mem, rfl⟩
  obtain ⟨great, -⟩ := isVisible_iff.mp (visible char mem)
  rw [toNat_toUInt8 (visible char mem)] at hidden
  omega

theorem Visible.append {first second : String} (firstVisible : Visible first)
    (secondVisible : Visible second) : Visible (first ++ second) := by
  intro char mem
  rw [String.toList_append, List.mem_append] at mem
  rcases mem with mem | mem
  · exact firstVisible char mem
  · exact secondVisible char mem

end ImageGallery.Text
