import ImageGallery.Proofs.Coercion

/-!
# Nearest binary numbers

A word of 64 bits holds the binary numbers with a mantissa below `2 ^ 53` and a bounded exponent.
Integers up to `2 ^ 53` are among them, so that the nearest number of such an integer is the integer
itself.

A decimal number is rounded in several steps, so that it does not always get the nearest number. But
rounding leaves a fraction as it is if a word holds it. Thus a number that a word holds is read
exactly if it has few digits and a small power of ten, for then nothing is rounded on the way.
-/

namespace ImageGallery.Number.Binary64

/-- A word of 64 bits has room for the number. -/
structure Representable (number : Binary64) : Prop where
  mantissa_lt : number.mantissa < 2 ^ 53
  le_exponent : leastExponent ≤ number.exponent
  exponent_le : number.exponent ≤ 971

/-- No number that a word has room for is nearer to the value. -/
structure Nearest (number : Binary64) (value : ℚ) : Prop where
  held : ∃ other : Binary64, other.Representable ∧ other.toRat = number.toRat
  nearest (other : Binary64) (representable : other.Representable) :
    |number.toRat - value| ≤ |other.toRat - value|

/-- A number of a value that is held is the nearest one of this value. -/
theorem Representable.nearest {number other : Binary64} (representable : other.Representable)
    (same : other.toRat = number.toRat) : number.Nearest number.toRat where
  held := ⟨other, representable, same⟩
  nearest other _ := by
    rw [sub_self, abs_zero]
    exact abs_nonneg _

/-- The value of a natural number with a sign. -/
theorem toRat_natural (negative : Bool) (magnitude : Nat) :
    toRat ⟨negative, magnitude, 0⟩ = if negative then -(magnitude : ℚ) else magnitude := by
  rw [toRat, signum]
  cases negative <;> simp

/-- Integers up to `2 ^ 53` are held exactly. -/
theorem exists_representable {value : Int} (small : value.natAbs ≤ 2 ^ 53) :
    ∃ number : Binary64, number.Representable ∧ number.toRat = value := by
  obtain ⟨magnitude, negative, magnitude_le, signed⟩ : ∃ (magnitude : Nat) (negative : Bool),
      magnitude ≤ 2 ^ 53 ∧ toRat ⟨negative, magnitude, 0⟩ = value := by
    obtain ⟨magnitude, rfl | rfl⟩ := value.eq_nat_or_neg
    · exact ⟨magnitude, false, by omega, by rw [toRat_natural]; simp⟩
    · exact ⟨magnitude, true, by omega, by rw [toRat_natural]; simp⟩
  rcases Nat.lt_or_eq_of_le magnitude_le with less | rfl
  · exact ⟨_, ⟨less, by simp [leastExponent], by simp⟩, signed⟩
  · refine ⟨⟨negative, 2 ^ 52, 1⟩, ⟨by norm_num, by simp [leastExponent], by simp⟩, ?_⟩
    rw [← signed, toRat, toRat]
    norm_num [signum]

/-- The nearest number of such an integer is the integer. -/
theorem Nearest.toRat_eq {number : Binary64} {value : Int} (nearest : number.Nearest value)
    (small : value.natAbs ≤ 2 ^ 53) : number.toRat = value := by
  obtain ⟨other, representable, same⟩ := exists_representable small
  have distance := nearest.nearest other representable
  rw [same, sub_self, abs_zero] at distance
  exact sub_eq_zero.mp (abs_eq_zero.mp (le_antisymm distance (abs_nonneg _)))

/-! ## Rounding nothing -/

/-- The absolute value of a binary number. -/
def size (number : Binary64) : ℚ :=
  number.mantissa * 2 ^ number.exponent

theorem size_eq_abs (number : Binary64) : number.size = |number.toRat| := by
  have nonneg : 0 ≤ number.size := by
    rw [size]
    positivity
  rw [toRat, signum, ← size, abs_mul, abs_of_nonneg nonneg]
  split <;> simp

section Fractions

variable {numerator denominator : Nat} {number : Binary64}

theorem scale_pos (positive : 0 < denominator) (numerator : Nat) (exponent : Int) :
    0 < (scale numerator denominator exponent).2 := by
  unfold scale
  split
  · exact Nat.mul_pos positive (Nat.two_pow_pos _)
  · exact positive

theorem scale_eq (numerator denominator : Nat) (exponent : Int) :
    ((scale numerator denominator exponent).1 / (scale numerator denominator exponent).2 : ℚ) =
      numerator / denominator / 2 ^ exponent := by
  unfold scale
  split
  · rename_i whole
    obtain ⟨power, rfl⟩ := Int.eq_ofNat_of_zero_le whole
    dsimp only [Nat.pow_eq]
    rw [Int.toNat_natCast, zpow_natCast, div_div]
    push_cast
    rfl
  · rename_i fraction
    obtain ⟨power, rfl⟩ : ∃ power : Nat, exponent = -power := ⟨(-exponent).toNat, by omega⟩
    dsimp only [Nat.pow_eq]
    rw [neg_neg, Int.toNat_natCast, zpow_neg, zpow_natCast, div_inv_eq_mul]
    push_cast
    ring

/-- A fraction that is a natural number is rounded to it. -/
theorem roundHalfEven_of_natural {natural : Nat} (positive : 0 < denominator)
    (exact : (numerator / denominator : ℚ) = natural) :
    roundHalfEven numerator denominator = natural := by
  rw [div_eq_iff (by positivity)] at exact
  obtain rfl : numerator = natural * denominator := by exact_mod_cast exact
  rw [roundHalfEven, Nat.mul_div_cancel natural positive, Nat.mul_mod_left]
  exact if_pos positive

/-- The power of two of a mantissa with 53 bits does not exceed the fraction by more than them. -/
theorem two_zpow_le (positive : 0 < numerator) (divides : 0 < denominator) :
    ∃ bits : Int, exponentOf numerator denominator = max leastExponent (bits - 52) ∧
      (2 ^ bits : ℚ) ≤ numerator / denominator := by
  have nonneg : (0 : ℚ) < denominator := by exact_mod_cast divides
  rw [exponentOf]
  split
  · rename_i fits
    refine ⟨_, rfl, ?_⟩
    have scaled := scale_eq numerator denominator (numerator.log2 - denominator.log2)
    have least := scale_pos divides numerator (numerator.log2 - denominator.log2)
    have one_le : (1 : ℚ) ≤
        numerator / denominator / 2 ^ (numerator.log2 - denominator.log2 : Int) := by
      rw [← scaled, one_le_div (by exact_mod_cast least)]
      exact_mod_cast fits
    rwa [one_le_div (by positivity)] at one_le
  · refine ⟨numerator.log2 - denominator.log2 - 1, by congr 1; omega, ?_⟩
    have low : (2 ^ numerator.log2 : ℚ) ≤ numerator := by
      exact_mod_cast Nat.log2_self_le positive.ne'
    have high : (denominator : ℚ) ≤ 2 ^ (denominator.log2 + 1) := by
      exact_mod_cast (Nat.lt_log2_self).le
    rw [le_div_iff₀ nonneg]
    calc (2 : ℚ) ^ (numerator.log2 - denominator.log2 - 1 : Int) * denominator
        ≤ 2 ^ (numerator.log2 - denominator.log2 - 1 : Int) * 2 ^ (denominator.log2 + 1) := by
          gcongr
      _ = 2 ^ numerator.log2 := by
          rw [← zpow_natCast, ← zpow_natCast, ← zpow_add₀ two_ne_zero]
          congr 1
          push_cast
          ring
      _ ≤ numerator := low

/-- A fraction that a word holds is rounded at a power of two that is no greater than its own. -/
theorem exponentOf_le (positive : 0 < numerator) (divides : 0 < denominator)
    (representable : number.Representable) (exact : number.size = numerator / denominator) :
    exponentOf numerator denominator ≤ number.exponent := by
  obtain ⟨bits, exponent_eq, le⟩ := two_zpow_le positive divides
  have mantissa : (number.mantissa : ℚ) < 2 ^ (53 : Int) := by
    exact_mod_cast representable.mantissa_lt
  have less : (2 : ℚ) ^ bits < 2 ^ (53 + number.exponent) := by
    rw [zpow_add₀ two_ne_zero]
    refine (le.trans_eq exact.symm).trans_lt ?_
    rw [size]
    gcongr
  have bits_lt := (zpow_lt_zpow_iff_right₀ one_lt_two).mp less
  rw [exponent_eq]
  exact max_le representable.le_exponent (by omega)

/-- A fraction that a word holds is not changed by rounding. -/
theorem nearest?_of_representable (divides : 0 < denominator)
    (representable : number.Representable) (exact : number.size = numerator / denominator)
    (negative : Bool) :
    ∃ rounded, nearest? negative numerator denominator = some rounded ∧
      rounded.negative = negative ∧ rounded.size = numerator / denominator := by
  rcases Nat.eq_zero_or_pos numerator with rfl | positive
  · exact ⟨⟨negative, 0, 0⟩, rfl, rfl, by simp [size]⟩
  · have below := exponentOf_le positive divides representable exact
    obtain ⟨shift, shift_eq⟩ : ∃ shift : Nat,
        number.exponent = exponentOf numerator denominator + shift :=
      ⟨(number.exponent - exponentOf numerator denominator).toNat, by omega⟩
    have scaled : ((scale numerator denominator (exponentOf numerator denominator)).1 /
        (scale numerator denominator (exponentOf numerator denominator)).2 : ℚ) =
          (number.mantissa * 2 ^ shift : Nat) := by
      rw [scale_eq, ← exact, size, shift_eq, zpow_add₀ two_ne_zero, zpow_natCast]
      push_cast
      field_simp
    have mantissa := roundHalfEven_of_natural (scale_pos divides numerator _) scaled
    refine ⟨⟨negative, number.mantissa * 2 ^ shift, exponentOf numerator denominator⟩, ?_, rfl, ?_⟩
    · have bound := representable.exponent_le
      rw [nearest?, if_neg positive.ne']
      dsimp only
      rw [mantissa, if_pos]
      rcases Nat.eq_zero_or_pos shift with rfl | shifted
      · rw [pow_zero, mul_one]
        have short := representable.mantissa_lt
        rw [Nat.pow_eq]
        omega
      · exact .inl (by omega)
    · rw [← exact, size, size, shift_eq, zpow_add₀ two_ne_zero, zpow_natCast]
      push_cast
      ring

end Fractions

/-! ## Decimal numbers -/

section Decimals

variable {first second number : Binary64}

theorem mul?_of_representable (representable : number.Representable)
    (exact : number.size = first.size * second.size) :
    ∃ product, first.mul? second = some product ∧
      product.negative = (first.negative ^^ second.negative) ∧
        product.size = first.size * second.size := by
  have scaled := scale_eq (first.mantissa * second.mantissa) 1 (-(first.exponent + second.exponent))
  have parts : (first.mantissa * second.mantissa : Nat) / (1 : Nat) /
      2 ^ (-(first.exponent + second.exponent)) = first.size * second.size := by
    rw [size, size, zpow_neg, div_inv_eq_mul, zpow_add₀ two_ne_zero]
    push_cast
    ring
  rw [mul?]
  have rounded := nearest?_of_representable (scale_pos Nat.one_pos _ _) representable
    (exact.trans (scaled.trans parts).symm) (first.negative ^^ second.negative)
  rwa [scaled, parts] at rounded

theorem div?_of_representable (nonzero : 0 < second.mantissa)
    (representable : number.Representable) (exact : number.size = first.size / second.size) :
    ∃ quotient, first.div? second = some quotient ∧
      quotient.negative = (first.negative ^^ second.negative) ∧
        quotient.size = first.size / second.size := by
  have scaled := scale_eq first.mantissa second.mantissa (-(first.exponent - second.exponent))
  have parts : (first.mantissa / second.mantissa / 2 ^ (-(first.exponent - second.exponent)) : ℚ) =
      first.size / second.size := by
    rw [size, size, zpow_neg, div_inv_eq_mul, zpow_sub₀ two_ne_zero]
    field_simp
  rw [div?]
  have rounded := nearest?_of_representable (scale_pos nonzero _ _) representable
    (exact.trans (scaled.trans parts).symm) (first.negative ^^ second.negative)
  rwa [scaled, parts] at rounded

/-- The powers of ten up to this one are held exactly. -/
def exactPower : Nat := 22

theorem tenTo?_of_exact {power : Nat} (small : power ≤ exactPower) :
    ∃ ten, tenTo? power = some ten ∧ ten.negative = false ∧ ten.size = 10 ^ power := by
  have representable : Representable ⟨false, 5 ^ power, power⟩ := by
    have less : 5 ^ power ≤ 5 ^ exactPower := Nat.pow_le_pow_right (by decide) small
    unfold exactPower at less small
    refine ⟨?_, ?_, ?_⟩ <;> simp only [leastExponent] <;> omega
  have exact : size ⟨false, 5 ^ power, power⟩ = ((10 ^ power : Nat) : ℚ) / (1 : Nat) := by
    rw [size, zpow_natCast]
    push_cast
    rw [div_one, ← mul_pow]
    norm_num
  obtain ⟨ten, ten_eq, sign, value⟩ :=
    nearest?_of_representable Nat.one_pos representable exact false
  exact ⟨ten, ten_eq, sign, value.trans (by simp)⟩

/-- A decimal number that a word holds is read exactly if it has few digits and a small power of
ten. -/
theorem ofScientific?_of_representable {digits : Nat} {exponent : Int} (short : digits < 2 ^ 53)
    (small : exponent.natAbs ≤ exactPower) (representable : number.Representable)
    (exact : number.size = digits * 10 ^ exponent) (negative : Bool) :
    ∃ rounded, ofScientific? negative digits exponent = some rounded ∧
      rounded.toRat = (if negative then -1 else 1) * (digits * 10 ^ exponent) := by
  have held : Representable ⟨false, digits, 0⟩ :=
    ⟨short, by simp [leastExponent], by simp⟩
  have natural : size ⟨false, digits, 0⟩ = (digits : ℚ) / (1 : Nat) := by
    simp [size]
  obtain ⟨start, start_eq, sign, start_size⟩ :=
    nearest?_of_representable Nat.one_pos held natural negative
  rw [Nat.cast_one, div_one] at start_size
  obtain ⟨ten, ten_eq, positive, ten_size⟩ := tenTo?_of_exact small
  have inRange : exponent.natAbs ≤ greatestPower := small.trans (by decide)
  -- The sign of the power of ten is plain, so that the digits decide.
  have signed {rounded : Binary64} (same : rounded.negative = (start.negative ^^ ten.negative))
      (value : rounded.size = digits * 10 ^ exponent) :
      rounded.toRat = (if negative then -1 else 1) * (digits * 10 ^ exponent) := by
    rw [sign, positive, Bool.xor_false] at same
    rw [toRat, signum, same, ← value, size]
  rw [ofScientific?, start_eq]
  simp only [bind, Option.bind_some, ten_eq, inRange, if_true]
  by_cases zero : digits = 0
  · refine ⟨start, if_pos zero, ?_⟩
    refine signed (by rw [positive, Bool.xor_false]) ?_
    rw [start_size, zero]
    simp
  · rw [if_neg zero]
    by_cases whole : 0 ≤ exponent
    · obtain ⟨power, rfl⟩ := Int.eq_ofNat_of_zero_le whole
      rw [Int.natAbs_natCast] at ten_size
      have value : start.size * ten.size = digits * 10 ^ (power : Int) := by
        rw [start_size, ten_size, zpow_natCast]
      obtain ⟨product, product_eq, same, product_size⟩ :=
        mul?_of_representable representable (exact.trans value.symm)
      exact ⟨product, by rw [if_pos whole, product_eq], signed same (product_size.trans value)⟩
    · obtain ⟨power, rfl⟩ : ∃ power : Nat, exponent = -power := ⟨(-exponent).toNat, by omega⟩
      rw [Int.natAbs_neg, Int.natAbs_natCast] at ten_size
      have value : start.size / ten.size = digits * 10 ^ (-power : Int) := by
        rw [start_size, ten_size, zpow_neg, zpow_natCast, div_eq_mul_inv]
      have nonzero : 0 < ten.mantissa := by
        refine Nat.pos_of_ne_zero fun none => ?_
        rw [size, none, Nat.cast_zero, zero_mul] at ten_size
        exact absurd ten_size.symm (by positivity)
      obtain ⟨quotient, quotient_eq, same, quotient_size⟩ :=
        div?_of_representable nonzero representable (exact.trans value.symm)
      exact ⟨quotient, by rw [if_neg whole, quotient_eq], signed same (quotient_size.trans value)⟩

end Decimals

end ImageGallery.Number.Binary64
