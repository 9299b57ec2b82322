/-
**Patterns are in the order of the numbers that they denote.**

Without its sign a pattern is a whole number of sixty-three bits, and the magnitudes are in the
order of these: a greater exponent outweighs every fraction.  So the comparisons of doubles can be
read off their bits, if the signs are looked at first; the numbers from zero up to, but not
including, one are the patterns below that of one, together with zero under a negative sign.

The number itself is told here as the format describes it, by a sign, an exponent, and a fraction
behind a leading digit, and it is a rational one.  Infinity counts as `2 ^ 1024`, which is what its
pattern would denote if it were one of the finite ones.

Main definitions:

* `Binary64.unsigned`, `Binary64.ofUnsigned` — the pattern without its sign, and with one;
* `Binary64.toRat` — the number denoted.

Main results:

* `Binary64.magnitude_lt_iff` — **magnitudes are in the order of the patterns**;
* `Binary64.toRat_eq` — the number of units is the number denoted, times `2 ^ 1074`;
* `Binary64.le_iff`, `Binary64.lt_iff` — comparisons compare the numbers denoted;
* `Binary64.isProbability_iff` — **which patterns denote a number from zero to below one**.
-/

import IndexedSkipList.Binary64
import Mathlib.Algebra.Order.Field.Basic
import Mathlib.Algebra.Order.Field.Rat
import Mathlib.Tactic.FieldSimp
import Mathlib.Tactic.Ring

set_option relaxedAutoImplicit false
set_option autoImplicit false

namespace IndexedSkipList

namespace Binary64

/-! ### Patterns without their sign -/

/-- **The pattern without its sign**, a whole number below `2 ^ 63`. -/
def unsigned (x : Binary64) : Nat := x.bits.toNat % 0x8000000000000000

/-- The double with a given sign and the given pattern besides. -/
def ofUnsigned (negative : Bool) (pattern : Nat) : Binary64 :=
  ⟨UInt64.ofNat (pattern + if negative then 0x8000000000000000 else 0)⟩

variable {x y : Binary64}

theorem unsigned_lt (x : Binary64) : x.unsigned < 0x8000000000000000 :=
  Nat.mod_lt _ (by decide)

/-- The sign and the rest are the whole pattern. -/
theorem bits_toNat (x : Binary64) :
    x.bits.toNat = x.unsigned + if x.isNegative then 0x8000000000000000 else 0 := by
  have hbits := x.bits.toNat_lt
  simp only [unsigned, isNegative, decide_eq_true_eq]
  split <;> omega

theorem bits_ofUnsigned (negative : Bool) {pattern : Nat} (h : pattern < 0x8000000000000000) :
    (ofUnsigned negative pattern).bits.toNat =
      pattern + if negative then 0x8000000000000000 else 0 := by
  rw [ofUnsigned, UInt64.toNat_ofNat']
  apply Nat.mod_eq_of_lt
  split <;> omega

@[simp] theorem unsigned_ofUnsigned (negative : Bool) {pattern : Nat}
    (h : pattern < 0x8000000000000000) : (ofUnsigned negative pattern).unsigned = pattern := by
  rw [unsigned, bits_ofUnsigned negative h]
  split <;> omega

@[simp] theorem isNegative_ofUnsigned (negative : Bool) {pattern : Nat}
    (h : pattern < 0x8000000000000000) :
    (ofUnsigned negative pattern).isNegative = negative := by
  rw [isNegative, bits_ofUnsigned negative h]
  cases negative with
  | false => simpa using h
  | true => simp

theorem exponentField_eq (x : Binary64) : x.exponentField = x.unsigned / leadingOne := by
  unfold exponentField unsigned leadingOne
  omega

theorem fraction_eq (x : Binary64) : x.fraction = x.unsigned % leadingOne := by
  unfold fraction unsigned leadingOne
  omega

theorem unsigned_eq (x : Binary64) : x.unsigned = x.exponentField * leadingOne + x.fraction := by
  rw [exponentField_eq, fraction_eq, Nat.mul_comm]
  exact (Nat.div_add_mod _ _).symm

theorem fraction_lt (x : Binary64) : x.fraction < leadingOne := Nat.mod_lt _ (by decide)

/-- What is no number lies above infinity. -/
theorem isNaN_eq_false_iff : x.isNaN = false ↔ x.unsigned ≤ 0x7ff0000000000000 := by
  have hlt := x.unsigned_lt
  have heq := x.unsigned_eq
  have hfraction := x.fraction_lt
  unfold leadingOne at heq hfraction
  simp only [isNaN, decide_eq_false_iff_not, not_and, not_not]
  constructor
  · intro h
    by_cases hfield : x.exponentField = 2047
    · rw [h hfield] at heq
      omega
    · omega
  · intro h hfield
    omega

/-! ### Magnitudes -/

theorem magnitude_of_subnormal (h : x.exponentField = 0) : x.magnitude = x.fraction := by
  simp [magnitude, h]

theorem magnitude_of_normal {e : Nat} (h : x.exponentField = e + 1) :
    x.magnitude = (leadingOne + x.fraction) * 2 ^ e := by
  simp [magnitude, h, Nat.pow_eq]

theorem leadingOne_mul_pow_le {i j : Nat} (h : i ≤ j) :
    leadingOne * 2 ^ i ≤ leadingOne * 2 ^ j :=
  Nat.mul_le_mul_left _ (Nat.pow_le_pow_right (by decide) h)

/-- A magnitude lies below all those with a greater exponent, -/
theorem magnitude_lt (x : Binary64) : x.magnitude < leadingOne * 2 ^ x.exponentField := by
  have hfraction := x.fraction_lt
  cases hfield : x.exponentField with
  | zero => simpa [magnitude_of_subnormal hfield] using hfraction
  | succ e =>
      rw [magnitude_of_normal hfield, Nat.pow_succ, Nat.mul_comm (2 ^ e), ← Nat.mul_assoc]
      exact Nat.mul_lt_mul_of_pos_right (by omega) (Nat.two_pow_pos e)

/-- and is at least the least one with its own. -/
theorem le_magnitude {e : Nat} (h : x.exponentField = e + 1) :
    leadingOne * 2 ^ e ≤ x.magnitude := by
  rw [magnitude_of_normal h]
  exact Nat.mul_le_mul_right _ (Nat.le_add_right _ _)

/-- A greater pattern has a greater magnitude. -/
theorem magnitude_lt_magnitude (h : x.unsigned < y.unsigned) : x.magnitude < y.magnitude := by
  have hx := x.unsigned_eq
  have hy := y.unsigned_eq
  have hfraction := x.fraction_lt
  have hfraction' := y.fraction_lt
  have hfields : x.exponentField ≤ y.exponentField := by
    rw [exponentField_eq, exponentField_eq]
    exact Nat.div_le_div_right h.le
  rcases hfields.eq_or_lt with hsame | hless
  · -- with the same exponent the fractions decide
    rw [hsame] at hx
    have hless : x.fraction < y.fraction := by omega
    cases hfield : y.exponentField with
    | zero => rwa [magnitude_of_subnormal (hsame.trans hfield), magnitude_of_subnormal hfield]
    | succ e =>
        rw [magnitude_of_normal (hsame.trans hfield), magnitude_of_normal hfield]
        exact Nat.mul_lt_mul_of_pos_right (by omega) (Nat.two_pow_pos e)
  · obtain ⟨e, he⟩ : ∃ e, y.exponentField = e + 1 := ⟨y.exponentField - 1, by omega⟩
    calc x.magnitude < leadingOne * 2 ^ x.exponentField := x.magnitude_lt
      _ ≤ leadingOne * 2 ^ e := leadingOne_mul_pow_le (by omega)
      _ ≤ y.magnitude := le_magnitude he

/-- **Magnitudes are in the order of the patterns.** -/
theorem magnitude_lt_iff : x.magnitude < y.magnitude ↔ x.unsigned < y.unsigned := by
  refine ⟨fun h => ?_, magnitude_lt_magnitude⟩
  by_contra hnot
  rcases (Nat.le_of_not_lt hnot).eq_or_lt with hsame | hless
  · rw [magnitude, magnitude, exponentField_eq, exponentField_eq, fraction_eq, fraction_eq,
      hsame] at h
    exact lt_irrefl _ h
  · exact lt_asymm h (magnitude_lt_magnitude hless)

theorem magnitude_le_iff : x.magnitude ≤ y.magnitude ↔ x.unsigned ≤ y.unsigned := by
  rw [← Nat.not_lt, ← Nat.not_lt, magnitude_lt_iff]

theorem magnitude_eq_iff : x.magnitude = y.magnitude ↔ x.unsigned = y.unsigned := by
  rw [Nat.le_antisymm_iff, Nat.le_antisymm_iff, magnitude_le_iff, magnitude_le_iff]

theorem magnitude_eq_zero_iff : x.magnitude = 0 ↔ x.unsigned = 0 :=
  magnitude_eq_iff (x := x) (y := zero)

theorem magnitude_one : one.magnitude = unitsOfOne := by decide +kernel

/-- The digits of one are all zero, so it is a power of two in units. -/
theorem exists_unitsOfOne_eq : ∃ k, unitsOfOne = 2 ^ k := by
  obtain ⟨e, he⟩ : ∃ e, one.exponentField = e + 1 := ⟨1022, by decide⟩
  rw [← magnitude_one, magnitude_of_normal he, show one.fraction = 0 by decide]
  exact ⟨52 + e, (Nat.pow_add 2 52 e).symm⟩

/-! ### The number denoted -/

/-- **The number denoted**, by its sign, its exponent and the digits behind the leading one; where
the exponent field is zero the leading digit is zero.  Infinity counts as `2 ^ 1024`. -/
def toRat (x : Binary64) : ℚ :=
  (if x.isNegative then -1 else 1) *
    if x.exponentField = 0 then (x.fraction : ℚ) / 2 ^ 52 * 2 ^ (-1022 : ℤ)
    else (1 + (x.fraction : ℚ) / 2 ^ 52) * 2 ^ ((x.exponentField : ℤ) - 1023)

theorem cast_leadingOne : (leadingOne : ℚ) = 2 ^ 52 := by norm_num [leadingOne]

theorem cast_unitsOfOne : (unitsOfOne : ℚ) = 2 ^ 52 * 2 ^ (1022 : ℤ) := by
  have hone : one.magnitude = (leadingOne + one.fraction) * 2 ^ 1022 :=
    magnitude_of_normal (by decide)
  rw [magnitude_one, show one.fraction = 0 by decide, Nat.add_zero] at hone
  rw [hone, Nat.cast_mul, cast_leadingOne, Nat.cast_pow, Nat.cast_ofNat, ← zpow_natCast]
  rfl

theorem unitsOfOne_pos : (0 : ℚ) < unitsOfOne := Nat.cast_pos.2 (by decide +kernel)

/-- The digits and the exponent give the magnitude. -/
theorem magnitude_div_unitsOfOne (x : Binary64) :
    (x.magnitude : ℚ) / unitsOfOne =
      if x.exponentField = 0 then (x.fraction : ℚ) / 2 ^ 52 * 2 ^ (-1022 : ℤ)
      else (1 + (x.fraction : ℚ) / 2 ^ 52) * 2 ^ ((x.exponentField : ℤ) - 1023) := by
  rw [cast_unitsOfOne]
  cases hfield : x.exponentField with
  | zero =>
      rw [magnitude_of_subnormal hfield, if_pos rfl, zpow_neg, div_mul_eq_div_div, div_eq_mul_inv]
  | succ e =>
      have hexponent : ((e + 1 : Nat) : ℤ) - 1023 = e - 1022 := by push_cast; ring
      rw [magnitude_of_normal hfield, if_neg e.succ_ne_zero, hexponent,
        zpow_sub₀ two_ne_zero, zpow_natCast, Nat.cast_mul, Nat.cast_add, cast_leadingOne,
        Nat.cast_pow, Nat.cast_ofNat]
      field_simp

/-- **The number denoted is the number of units, divided by those of one.** -/
theorem toRat_eq (x : Binary64) : x.toRat = x.units / unitsOfOne := by
  rw [toRat, ← magnitude_div_unitsOfOne, units]
  split
  · rw [Int.cast_neg, Int.cast_natCast, neg_one_mul, neg_div]
  · rw [Int.cast_natCast, one_mul]

theorem toRat_of_nonneg (h : x.isNegative = false) : x.toRat = x.magnitude / unitsOfOne := by
  rw [toRat_eq, units, if_neg (Bool.eq_false_iff.1 h), Int.cast_natCast]

theorem toRat_of_negative (h : x.isNegative = true) : x.toRat = -(x.magnitude / unitsOfOne) := by
  rw [toRat_eq, units, if_pos h, Int.cast_neg, Int.cast_natCast, neg_div]

theorem magnitude_div_nonneg (x : Binary64) : (0 : ℚ) ≤ x.magnitude / unitsOfOne :=
  div_nonneg (Nat.cast_nonneg _) unitsOfOne_pos.le

/-- Without a sign no double is below zero. -/
theorem toRat_nonneg (h : x.isNegative = false) : 0 ≤ x.toRat := by
  rw [toRat_of_nonneg h]
  exact x.magnitude_div_nonneg

/-- With a sign no double is above zero. -/
theorem toRat_nonpos (h : x.isNegative = true) : x.toRat ≤ 0 := by
  rw [toRat_of_negative h, neg_nonpos]
  exact x.magnitude_div_nonneg

theorem toRat_eq_zero_iff : x.toRat = 0 ↔ x.magnitude = 0 := by
  have hzero : (x.magnitude : ℚ) / unitsOfOne = 0 ↔ x.magnitude = 0 := by
    rw [div_eq_zero_iff, or_iff_left unitsOfOne_pos.ne', Nat.cast_eq_zero]
  cases hsign : x.isNegative with
  | false => rw [toRat_of_nonneg hsign, hzero]
  | true => rw [toRat_of_negative hsign, neg_eq_zero, hzero]

/-- Zero is the same number with both signs. -/
theorem toRat_of_zero_le (h : 0 ≤ x.toRat) : x.toRat = x.magnitude / unitsOfOne := by
  cases hsign : x.isNegative with
  | false => exact toRat_of_nonneg hsign
  | true =>
      have hzero : x.toRat = 0 := le_antisymm (toRat_nonpos hsign) h
      rw [hzero, toRat_eq_zero_iff.1 hzero, Nat.cast_zero, zero_div]

theorem toRat_of_le_zero (h : x.toRat ≤ 0) : x.toRat = -(x.magnitude / unitsOfOne) := by
  cases hsign : x.isNegative with
  | false =>
      have hzero : x.toRat = 0 := le_antisymm h (toRat_nonneg hsign)
      rw [hzero, toRat_eq_zero_iff.1 hzero, Nat.cast_zero, zero_div, neg_zero]
  | true => exact toRat_of_negative hsign

/-- From zero on, numbers are in the order of the magnitudes -/
theorem toRat_le_toRat_iff (hx : 0 ≤ x.toRat) (hy : 0 ≤ y.toRat) :
    x.toRat ≤ y.toRat ↔ x.magnitude ≤ y.magnitude := by
  rw [toRat_of_zero_le hx, toRat_of_zero_le hy, div_le_div_iff_of_pos_right unitsOfOne_pos,
    Nat.cast_le]

/-- and of the patterns. -/
theorem toRat_lt_toRat_iff (hx : 0 ≤ x.toRat) (hy : 0 ≤ y.toRat) :
    x.toRat < y.toRat ↔ x.unsigned < y.unsigned := by
  rw [← not_le, toRat_le_toRat_iff hy hx, magnitude_le_iff, not_le]

theorem toRat_zero : zero.toRat = 0 := by
  rw [toRat_eq, units_zero, Int.cast_zero, zero_div]

theorem toRat_one : one.toRat = 1 := by
  rw [toRat_of_nonneg (by decide), magnitude_one, div_self unitsOfOne_pos.ne']

theorem one_le_toRat_iff (hx : 0 ≤ x.toRat) : 1 ≤ x.toRat ↔ unitsOfOne ≤ x.magnitude := by
  rw [← toRat_one, toRat_le_toRat_iff (toRat_nonneg (by decide)) hx, magnitude_one]

/-- Infinity counts as `2 ^ 1024`. -/
theorem toRat_of_isInfinite (h : x.isInfinite = true) :
    x.toRat = if x.isNegative then -2 ^ (1024 : ℤ) else 2 ^ (1024 : ℤ) := by
  simp only [isInfinite, decide_eq_true_eq] at h
  rw [toRat, h.1, h.2]
  cases x.isNegative <;> norm_num

/-! ### Comparisons -/

/-- **Comparisons compare the numbers denoted.** -/
theorem le_iff :
    x.le y = true ↔ x.isNaN = false ∧ y.isNaN = false ∧ x.toRat ≤ y.toRat := by
  rw [toRat_eq x, toRat_eq y, div_le_div_iff_of_pos_right unitsOfOne_pos, Int.cast_le]
  simp only [le, Bool.and_eq_true, Bool.not_eq_true', decide_eq_true_eq, and_assoc]

theorem lt_iff :
    x.lt y = true ↔ x.isNaN = false ∧ y.isNaN = false ∧ x.toRat < y.toRat := by
  rw [toRat_eq x, toRat_eq y, div_lt_div_iff_of_pos_right unitsOfOne_pos, Int.cast_lt]
  simp only [lt, Bool.and_eq_true, Bool.not_eq_true', decide_eq_true_eq, and_assoc]

/-- **The double denotes a number from zero up to, but not including, one.** -/
def IsProbability (x : Binary64) : Prop := x.isNaN = false ∧ 0 ≤ x.toRat ∧ x.toRat < 1

/-- Of the doubles without a sign these are the ones whose pattern is below that of one; -/
theorem toRat_lt_one_iff (h : x.isNegative = false) :
    x.toRat < 1 ↔ x.bits.toNat < 0x3ff0000000000000 := by
  have hbits := x.bits_toNat
  simp only [h, Bool.false_eq_true, if_false, Nat.add_zero] at hbits
  rw [← toRat_one, toRat_lt_toRat_iff (toRat_nonneg h) (toRat_nonneg (by decide)), hbits]
  rfl

/-- of those with a sign it is only zero. -/
theorem nonneg_toRat_iff (h : x.isNegative = true) :
    0 ≤ x.toRat ↔ x.bits.toNat = 0x8000000000000000 := by
  have hbits := x.bits_toNat
  simp only [h, if_true] at hbits
  rw [(toRat_nonpos h).ge_iff_eq, toRat_eq_zero_iff, magnitude_eq_zero_iff]
  omega

/-- **Which patterns denote a number from zero to below one.** -/
theorem isProbability_iff :
    x.IsProbability ↔
      x.bits.toNat < 0x3ff0000000000000 ∨ x.bits.toNat = 0x8000000000000000 := by
  have hbits := x.bits_toNat
  have hunsigned := x.unsigned_lt
  rw [IsProbability, isNaN_eq_false_iff]
  cases hsign : x.isNegative with
  | false =>
      simp only [hsign, Bool.false_eq_true, if_false, Nat.add_zero] at hbits
      rw [toRat_lt_one_iff hsign]
      simp only [toRat_nonneg hsign, true_and]
      omega
  | true =>
      simp only [hsign, if_true] at hbits
      rw [nonneg_toRat_iff hsign]
      constructor
      · rintro ⟨_, hzero, _⟩
        exact Or.inr hzero
      · rintro (hlow | hzero)
        · omega
        · exact ⟨by omega, hzero, (toRat_nonpos hsign).trans_lt zero_lt_one⟩

end Binary64

end IndexedSkipList
