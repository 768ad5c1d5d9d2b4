import Mathlib.Data.Rat.Cast.Order
import Mathlib.Tactic.FieldSimp
import Mathlib.Tactic.NormNum
import Mathlib.Tactic.Positivity
import ImageGallery.Proofs.Rearranging

/-!
# Numbers as ids and positions

A number that a client writes for an id or a position stands for an integer of 64 bits if it is one.
The bounds are compared as binary numbers, where the upper one is `2 ^ 63`: this number is let in,
and stands for the greatest integer instead of itself. All other numbers stand for themselves or for
nothing, so that a payload without it moves no image that it does not name, and none to a position
that it does not ask for.
-/

namespace ImageGallery

open Number

/-! ## Binary numbers as rational ones -/

namespace Number.Binary64

/-- The sign of a binary number as a factor. -/
def signum (number : Binary64) : ℚ :=
  if number.negative then -1 else 1

/-- The exact value of a binary number. -/
def toRat (number : Binary64) : ℚ :=
  number.signum * (number.mantissa * 2 ^ number.exponent)

/-- The absolute value of a binary number, if it is a natural number. -/
def magnitude? (number : Binary64) : Option Nat :=
  if 0 ≤ number.exponent then
    some (number.mantissa * Nat.pow 2 number.exponent.toNat)
  else
    let divisor := Nat.pow 2 (-number.exponent).toNat
    if number.mantissa % divisor = 0 then some (number.mantissa / divisor) else none

theorem toInteger?_eq_map (number : Binary64) :
    number.toInteger? = number.magnitude?.map fun value : Nat =>
      if number.negative then -(value : Int) else value := by
  change (number.magnitude?.bind fun value : Nat => some (value : Int)).map _ = _
  cases number.magnitude? <;> rfl

theorem magnitude?_eq_some_iff {number : Binary64} {value : Nat} :
    number.magnitude? = some value ↔ (number.mantissa * 2 ^ number.exponent : ℚ) = value := by
  unfold magnitude?
  split
  · rename_i whole
    obtain ⟨power, power_eq⟩ := Int.eq_ofNat_of_zero_le whole
    rw [power_eq, Int.toNat_natCast, zpow_natCast, Option.some.injEq]
    norm_cast
  · rename_i fraction
    obtain ⟨power, power_eq⟩ : ∃ power : Nat, number.exponent = -power :=
      ⟨(-number.exponent).toNat, by omega⟩
    have positive : 0 < 2 ^ power := Nat.two_pow_pos power
    have cleared : (number.mantissa * 2 ^ number.exponent : ℚ) = value ↔
        number.mantissa = value * 2 ^ power := by
      rw [power_eq, zpow_neg, zpow_natCast, ← div_eq_mul_inv, div_eq_iff (by positivity)]
      norm_cast
    rw [cleared, power_eq, neg_neg, Int.toNat_natCast]
    dsimp only [Nat.pow_eq]
    constructor
    · intro found
      split at found
      · rename_i divides
        cases found
        exact (Nat.div_mul_cancel (Nat.dvd_of_mod_eq_zero divides)).symm
      · cases found
    · intro same
      rw [same, if_pos (Nat.mul_mod_left value (2 ^ power)), Nat.mul_div_cancel value positive]

/-- A binary number has an integer of the same value if its value is an integer. -/
theorem toInteger?_eq_some_iff {number : Binary64} {value : Int} :
    number.toInteger? = some value ↔ number.toRat = value := by
  have nonneg : (0 : ℚ) ≤ number.mantissa * 2 ^ number.exponent := by positivity
  rw [toInteger?_eq_map, Option.map_eq_some_iff]
  simp only [magnitude?_eq_some_iff, toRat, signum]
  generalize (number.mantissa * 2 ^ number.exponent : ℚ) = size at nonneg
  cases number.negative with
  | false =>
      simp only [Bool.false_eq_true, if_false, one_mul]
      constructor
      · rintro ⟨natural, rfl, rfl⟩
        rfl
      · rintro rfl
        obtain ⟨natural, rfl⟩ := Int.eq_ofNat_of_zero_le (by exact_mod_cast nonneg : 0 ≤ value)
        exact ⟨natural, rfl, rfl⟩
  | true =>
      simp only [if_true, neg_one_mul]
      constructor
      · rintro ⟨natural, rfl, rfl⟩
        push_cast
        rfl
      · intro same
        have opposite : size = ((-value : Int) : ℚ) := by
          rw [← neg_eq_iff_eq_neg.mpr same.symm]
          push_cast
          rfl
        subst opposite
        obtain ⟨natural, natural_eq⟩ :=
          Int.eq_ofNat_of_zero_le (by exact_mod_cast nonneg : 0 ≤ -value)
        exact ⟨natural, by rw [natural_eq, Int.cast_natCast], by omega⟩

end Number.Binary64

/-! ## What a number stands for -/

namespace LooseInt

/-- The number that is let in above the greatest integer. -/
def overshoot : Int :=
  greatest + 1

/-- A number stands for itself if it is an integer of 64 bits, and the one after the greatest stands
for the greatest. -/
theorem ofBinary64?_eq_some_iff {number : Binary64} {value : Int} :
    ofBinary64? number = some value ↔
      (number.toRat = value ∧ least ≤ value ∧ value ≤ greatest) ∨
        (number.toRat = overshoot ∧ value = greatest) := by
  have spelled : ofBinary64? number = some value ↔ ∃ integral : Int, number.toRat = integral ∧
      (least ≤ integral ∧ integral ≤ overshoot) ∧ min integral greatest = value := by
    unfold ofBinary64? overshoot
    simp only [bind, Option.bind_eq_some_iff, Binary64.toInteger?_eq_some_iff,
      Option.ite_none_right_eq_some, pure, Option.some.injEq]
  rw [spelled]
  constructor
  · rintro ⟨integral, same, ⟨low, high⟩, rfl⟩
    rcases Int.lt_or_le greatest integral with beyond | within
    · have top : integral = overshoot := by
        unfold overshoot at *
        omega
      exact .inr ⟨top ▸ same, Int.min_eq_right (Int.le_of_lt beyond)⟩
    · rw [Int.min_eq_left within]
      exact .inl ⟨same, low, within⟩
  · rintro (⟨same, low, high⟩ | ⟨same, rfl⟩)
    · exact ⟨value, same, ⟨low, by unfold overshoot; omega⟩, Int.min_eq_left high⟩
    · exact ⟨overshoot, same, by decide, by decide⟩

/-- A number that is coerced exactly: to itself if it is an integer of 64 bits, and else to
nothing. -/
def Exact (number : Binary64) : Prop :=
  ∀ value : Int, (LooseInt.number number).coerce? = some value ↔
    number.toRat = value ∧ least ≤ value ∧ value ≤ greatest

/-- All numbers but one are coerced exactly. -/
theorem exact_iff (number : Binary64) : Exact number ↔ number.toRat ≠ overshoot := by
  constructor
  · intro exactly top
    obtain ⟨same, -⟩ := (exactly greatest).mp (ofBinary64?_eq_some_iff.mpr (.inr ⟨top, rfl⟩))
    have different : overshoot = greatest := by exact_mod_cast top.symm.trans same
    exact absurd different (by decide)
  · intro fits value
    change ofBinary64? number = some value ↔ _
    rw [ofBinary64?_eq_some_iff, or_iff_left fun top => fits top.1]

/-- The number `2 ^ 63`. -/
def twoTo63 : Binary64 :=
  ⟨false, 4503599627370496, 11⟩

/-- The number after the greatest integer is read as a binary number, which is coerced to the
greatest integer. -/
theorem coerce?_twoTo63 :
    LooseInt.parse "9223372036854775808" = .ok (some (.number twoTo63)) ∧
      (LooseInt.number twoTo63).coerce? = some 9223372036854775807 ∧ ¬Exact twoTo63 := by
  have top : twoTo63.toRat = overshoot := Binary64.toInteger?_eq_some_iff.mp (by decide)
  exact ⟨rfl, by decide, fun exactly => (exact_iff twoTo63).mp exactly top⟩

/-- The number that a client wrote, if it wrote one. A text has one if it consists of digits, of
whatever size, after an optional sign and between blanks. -/
def written? : LooseInt → Option ℚ
  | integer value => some value
  | number value => some value.toRat
  | text value => (Text.readInteger? (Text.trimBlank value.toList)).map Int.cast
  | other => none

/-- Nobody wrote the number that is let in above the greatest integer. -/
def Fits (loose : LooseInt) : Prop :=
  ∀ value, loose = number value → value.toRat ≠ overshoot

/-- What is coerced to an integer was written as this integer. -/
theorem written?_of_coerce? {loose : LooseInt} (fits : loose.Fits) {value : Int}
    (coerced : loose.coerce? = some value) : loose.written? = some (value : ℚ) := by
  cases loose with
  | integer own =>
      cases coerced
      rfl
  | number own =>
      obtain ⟨same, -⟩ := ((exact_iff own).mpr (fits own rfl) value).mp coerced
      exact congrArg some same
  | text own =>
      have read : Text.readInteger? (Text.trimBlank own.toList) = some value :=
        (Option.filter_eq_some_iff.mp coerced).1
      rw [written?, read]
      rfl
  | other => cases coerced

end LooseInt

/-! ## What a payload names -/

namespace ReorderItem

/-- The item has an id and a position, and these are the integers. -/
structure Names (item : ReorderItem) (id order : Int) : Prop where
  id_eq : item.id.bind LooseInt.written? = some (id : ℚ)
  order_eq : item.order.bind LooseInt.written? = some (order : ℚ)

/-- Neither the id nor the position is the number above the greatest integer. -/
def Fits (item : ReorderItem) : Prop :=
  (∀ loose, item.id = some loose → loose.Fits) ∧ ∀ loose, item.order = some loose → loose.Fits

theorem names_of_orderFor? {item : ReorderItem} (fits : item.Fits) {id order : Int}
    (asked : item.orderFor? id = some order) : item.Names id order := by
  have coerced (field : Option LooseInt) (fits : ∀ loose, field = some loose → loose.Fits)
      (value : Int) (read : field.bind LooseInt.coerce? = some value) :
      field.bind LooseInt.written? = some (value : ℚ) := by
    obtain ⟨loose, rfl, read⟩ := Option.bind_eq_some_iff.mp read
    exact LooseInt.written?_of_coerce? (fits loose rfl) read
  unfold orderFor? at asked
  split at asked
  · rename_i named
    exact ⟨coerced item.id fits.1 id named, coerced item.order fits.2 order asked⟩
  · cases asked

end ReorderItem

/-- Positions go to no image that the payload does not name, and are those that it asks for, but
that negative ones are zero. -/
def FaithfulTo (items : List ReorderItem) (positions : Positions) : Prop :=
  ∀ id position, positions.find? id = some position →
    ∃ item ∈ items, ∃ order : Int, item.Names id order ∧ position = order.toNat

theorem faithfulTo_of_ofItems {items : List ReorderItem} {positions : Positions}
    (fits : ∀ item ∈ items, item.Fits) (accepted : Positions.ofItems items = .ok positions) :
    FaithfulTo items positions := by
  intro id position found
  rw [find?_of_ofItems accepted, Option.map_eq_some_iff] at found
  obtain ⟨order, asked, rfl⟩ := found
  obtain ⟨item, mem, answered⟩ := List.mem_filterMap.mp (List.mem_of_getLast? asked)
  exact ⟨item, mem, order, ReorderItem.names_of_orderFor? (fits item mem) answered, rfl⟩

/-- Coercion is exact but for one number, and a payload without this number is carried out
faithfully. -/
theorem coercion_exact (number : Binary64) (items : List ReorderItem) (positions : Positions) :
    (LooseInt.Exact number ↔ number.toRat ≠ LooseInt.overshoot) ∧
      ((∀ item ∈ items, item.Fits) → Positions.ofItems items = .ok positions →
        FaithfulTo items positions) :=
  ⟨LooseInt.exact_iff number, faithfulTo_of_ofItems⟩

/-- An item whose id is a number with a fraction of zero, and whose position is the greatest binary
number below `2 ^ 63`. -/
def ReorderItem.nearLimit : ReorderItem where
  id := LooseInt.ofNumeral (.decimal false 70 (-1))
  order := some (.number ⟨false, 9007199254740991, 10⟩)

theorem ReorderItem.fits_nearLimit : ReorderItem.nearLimit.Fits := by
  have id_eq : ReorderItem.nearLimit.id = some (.number ⟨false, 7881299347898368, -50⟩) := rfl
  have fits (number : Binary64) (below : number.toInteger? ≠ some LooseInt.overshoot) :
      (LooseInt.number number).Fits := by
    rintro _ ⟨⟩
    exact fun top => below (Binary64.toInteger?_eq_some_iff.mpr top)
  constructor
  · rw [id_eq]
    rintro _ ⟨⟩
    exact fits _ (by decide)
  · rintro _ ⟨⟩
    exact fits _ (by decide)

theorem coercion_exact_nearLimit :
    LooseInt.Exact ⟨false, 9007199254740991, 10⟩ ∧
      FaithfulTo [.nearLimit] ⟨[(7, 9223372036854774784)]⟩ := by
  obtain ⟨exact_iff, faithful⟩ := coercion_exact ⟨false, 9007199254740991, 10⟩ [.nearLimit]
    ⟨[(7, 9223372036854774784)]⟩
  constructor
  · refine exact_iff.mpr fun top => ?_
    exact absurd (Binary64.toInteger?_eq_some_iff.mpr top) (by decide)
  · refine faithful ?_ rfl
    rintro _ (_ | ⟨_, ⟨⟩⟩)
    exact ReorderItem.fits_nearLimit

end ImageGallery
