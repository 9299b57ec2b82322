/-
**Rounding to fifty-three bits gives the nearest double.**

What a multiplication of doubles does to the exact product is described by the doubles alone: the
result is a double that no other one is nearer to the product than, and of two that are equally near
it is the one whose fraction is even.  Numbers that are too large are rounded to infinity in the
same way, as infinity counts as the double that would come next.

Keeping fifty-three bits of a number of units does this.  The multiples of the step that is rounded
to are the doubles around the number, up to both ends of the range of its leading bit; the doubles
below this range are further apart from the number than its lower end.  The bits that are kept and
the number of bits that are dropped make up the pattern of the result, even where rounding carries
into the next exponent.

Main definitions:

* `Binary64.kept` — the leading fifty-three bits of a number of units, rounded;
* `Binary64.RoundsTo` — the double that an exact number is rounded to;
* `Binary64.neg` — the double with the other sign.

Main results:

* `Binary64.roundUnits_mono`, `Binary64.roundUnits_le`, `Binary64.le_roundUnits` — rounding keeps
  the order, and does not pass over a number that fits;
* `Binary64.roundUnits_nearest`, `Binary64.kept_even_of_tie` — **the result is the nearest double**,
  and the even one in a tie;
* `Binary64.exists_roundsTo` — every number of units is rounded to some double;
* `Binary64.RoundsTo.unique` — **a number is rounded to one number only**.
-/

import IndexedSkipList.Binary64
import IndexedSkipList.Proofs.Binary64.Patterns
import Mathlib.Data.Nat.Dist
import Mathlib.Tactic.Linarith

set_option relaxedAutoImplicit false
set_option autoImplicit false

namespace IndexedSkipList

namespace Binary64

/-! ### Quotients -/

section Quotients

variable {m n d q : Nat}

/-- A quotient is rounded down or up, and never by more than a half. -/
theorem divideEven_cases (n d : Nat) :
    (divideEven n d = n / d ∧ 2 * (n % d) ≤ d) ∨
      (divideEven n d = n / d + 1 ∧ d ≤ 2 * (n % d)) := by
  unfold divideEven
  dsimp only
  split
  · next h => exact Or.inl ⟨rfl, by omega⟩
  · next h => exact Or.inr ⟨rfl, by omega⟩

theorem le_divideEven (hd : 0 < d) (h : q * d ≤ n) : q ≤ divideEven n d := by
  have hquotient : q ≤ n / d := (Nat.le_div_iff_mul_le hd).2 h
  rcases divideEven_cases n d with ⟨heq, _⟩ | ⟨heq, _⟩ <;> omega

theorem divideEven_le (hd : 0 < d) (h : n ≤ q * d) : divideEven n d ≤ q := by
  have hquotient : n / d ≤ q := Nat.div_le_of_le_mul (by rwa [Nat.mul_comm])
  rcases divideEven_cases n d with ⟨heq, _⟩ | ⟨heq, hhalf⟩
  · omega
  · -- the quotient has a rest, so it is below `q`
    have hrest := Nat.div_add_mod' n d
    rcases hquotient.eq_or_lt with hsame | hless
    · rw [hsame] at hrest
      omega
    · omega

theorem divideEven_mono (h : m ≤ n) : divideEven m d ≤ divideEven n d := by
  have hquotient : m / d ≤ n / d := Nat.div_le_div_right h
  rcases hquotient.eq_or_lt with hsame | hless
  · have hrest := Nat.div_add_mod' m d
    have hrest' := Nat.div_add_mod' n d
    rw [hsame] at hrest
    unfold divideEven
    rw [hsame]
    dsimp only
    split <;> split <;> omega
  · rcases divideEven_cases m d with ⟨heq, _⟩ | ⟨heq, _⟩ <;>
      rcases divideEven_cases n d with ⟨heq', _⟩ | ⟨heq', _⟩ <;> omega

/-- A multiple lies on one side of the two that are next to a number. -/
theorem mul_le_or_le_mul (k f d : Nat) : k * d ≤ f * d ∨ f * d + d ≤ k * d := by
  rcases Nat.lt_or_ge f k with h | h
  · have hnext : (f + 1) * d ≤ k * d := Nat.mul_le_mul_right d h
    exact Or.inr (by rwa [Nat.succ_mul] at hnext)
  · exact Or.inl (Nat.mul_le_mul_right d h)

/-- **No multiple is nearer** than the one that is rounded to. -/
theorem divideEven_nearest (hd : 0 < d) (k : Nat) :
    Nat.dist n (divideEven n d * d) ≤ Nat.dist n (k * d) := by
  have hrest := Nat.div_add_mod' n d
  have hlt := Nat.mod_lt n hd
  have hside := mul_le_or_le_mul k (n / d) d
  unfold Nat.dist
  rcases divideEven_cases n d with ⟨heq, hhalf⟩ | ⟨heq, hhalf⟩
  · rw [heq]
    omega
  · rw [heq, Nat.succ_mul]
    omega

/-- **If another multiple is as near**, the quotient is rounded to an even one. -/
theorem divideEven_even_of_tie (hd : 0 < d) {k : Nat} (hk : k ≠ divideEven n d)
    (htie : Nat.dist n (k * d) = Nat.dist n (divideEven n d * d)) : divideEven n d % 2 = 0 := by
  have hrest := Nat.div_add_mod' n d
  have hlt := Nat.mod_lt n hd
  -- another multiple is as near only where the rest is a half
  have hhalf : 2 * (n % d) = d := by
    have hside := mul_le_or_le_mul k (divideEven n d) d
    have hside' := mul_le_or_le_mul (divideEven n d) k d
    have hne : k * d ≠ divideEven n d * d := fun he => hk (Nat.eq_of_mul_eq_mul_right hd he)
    unfold Nat.dist at htie
    rcases divideEven_cases n d with ⟨heq, _⟩ | ⟨heq, _⟩
    · rw [heq] at hside hside' hne htie
      omega
    · rw [heq, Nat.succ_mul] at hside hside' hne htie
      omega
  unfold divideEven
  dsimp only
  split <;> omega

end Quotients

/-! ### The bits that are kept -/

section Kept

variable {m n q k : Nat}

/-- **The leading fifty-three bits of a number of units, rounded.** -/
def kept (n : Nat) : Nat := divideEven n (2 ^ excess n)

theorem roundUnits_eq (n : Nat) : roundUnits n = kept n * 2 ^ excess n := by
  simp only [roundUnits, kept, Nat.pow_eq]

theorem lt_of_excess (n : Nat) : n < 2 * leadingOne * 2 ^ excess n := by
  have hle : 2 ^ (n.log2 + 1) ≤ 2 ^ (53 + excess n) :=
    Nat.pow_le_pow_right (by decide) (by unfold excess; omega)
  rw [Nat.pow_add 2 53] at hle
  exact Nat.lt_log2_self.trans_le hle

theorem le_of_excess (h : 0 < excess n) : leadingOne * 2 ^ excess n ≤ n := by
  have hlog : n.log2 = 52 + excess n := by
    unfold excess at h ⊢
    omega
  have hle : 2 ^ n.log2 ≤ n := Nat.log2_self_le (by rintro rfl; simp [excess] at h)
  rwa [hlog, Nat.pow_add] at hle

/-- A range of a leading bit ends where the next one begins. -/
theorem two_mul_leadingOne_le {i j : Nat} (h : i < j) :
    2 * leadingOne * 2 ^ i ≤ leadingOne * 2 ^ j := by
  calc 2 * leadingOne * 2 ^ i = leadingOne * 2 ^ (i + 1) := by rw [Nat.pow_succ]; ring
    _ ≤ leadingOne * 2 ^ j := leadingOne_mul_pow_le h

theorem kept_le (n : Nat) : kept n ≤ 2 * leadingOne :=
  divideEven_le (Nat.two_pow_pos _) (lt_of_excess n).le

theorem le_kept (h : 0 < excess n) : leadingOne ≤ kept n :=
  le_divideEven (Nat.two_pow_pos _) (le_of_excess h)

theorem excess_mono (h : m ≤ n) : excess m ≤ excess n := by
  by_contra hnot
  have hless : excess n < excess m := Nat.lt_of_not_le hnot
  have hlow := le_of_excess (n := m) (by omega)
  have hhigh := lt_of_excess n
  have hgap := two_mul_leadingOne_le hless
  omega

/-- **Rounding does not pass over a number that fits**, from below -/
theorem roundUnits_le (hq : q ≤ 2 * leadingOne) (h : n ≤ q * 2 ^ k) :
    roundUnits n ≤ q * 2 ^ k := by
  rw [roundUnits_eq]
  rcases Nat.lt_or_ge k (excess n) with hless | hge
  · -- then `n` is the least number of its range, and fits itself
    have hbound : q * 2 ^ k ≤ 2 * leadingOne * 2 ^ k := Nat.mul_le_mul_right _ hq
    have hgap := two_mul_leadingOne_le hless
    have hlow := le_of_excess (n := n) (by omega)
    have hkept : kept n ≤ leadingOne := divideEven_le (Nat.two_pow_pos _) (by omega)
    have hround : kept n * 2 ^ excess n ≤ leadingOne * 2 ^ excess n :=
      Nat.mul_le_mul_right _ hkept
    omega
  · have hsplit : q * 2 ^ k = q * 2 ^ (k - excess n) * 2 ^ excess n := by
      rw [Nat.mul_assoc, ← Nat.pow_add, Nat.sub_add_cancel hge]
    rw [hsplit] at h ⊢
    exact Nat.mul_le_mul_right _ (divideEven_le (Nat.two_pow_pos _) h)

/-- and from above. -/
theorem le_roundUnits (hq : q ≤ 2 * leadingOne) (h : q * 2 ^ k ≤ n) :
    q * 2 ^ k ≤ roundUnits n := by
  rw [roundUnits_eq]
  rcases Nat.lt_or_ge k (excess n) with hless | hge
  · calc q * 2 ^ k ≤ 2 * leadingOne * 2 ^ k := Nat.mul_le_mul_right _ hq
      _ ≤ leadingOne * 2 ^ excess n := two_mul_leadingOne_le hless
      _ ≤ kept n * 2 ^ excess n := Nat.mul_le_mul_right _ (le_kept (by omega))
  · have hsplit : q * 2 ^ k = q * 2 ^ (k - excess n) * 2 ^ excess n := by
      rw [Nat.mul_assoc, ← Nat.pow_add, Nat.sub_add_cancel hge]
    rw [hsplit] at h ⊢
    exact Nat.mul_le_mul_right _ (le_divideEven (Nat.two_pow_pos _) h)

/-- **Rounding keeps the order.** -/
theorem roundUnits_mono (h : m ≤ n) : roundUnits m ≤ roundUnits n := by
  rw [roundUnits_eq m, roundUnits_eq n]
  rcases (excess_mono h).eq_or_lt with hsame | hless
  · rw [kept, kept, hsame]
    exact Nat.mul_le_mul_right _ (divideEven_mono h)
  · calc kept m * 2 ^ excess m ≤ 2 * leadingOne * 2 ^ excess m :=
          Nat.mul_le_mul_right _ (kept_le m)
      _ ≤ leadingOne * 2 ^ excess n := two_mul_leadingOne_le hless
      _ ≤ kept n * 2 ^ excess n := Nat.mul_le_mul_right _ (le_kept (by omega))

end Kept

/-! ### The doubles around a number -/

variable {x y : Binary64}

/-- A double is a multiple of the step, or lies below the range in which this is the step. -/
theorem magnitude_multiple_or_lt (x : Binary64) (step : Nat) :
    (∃ k, x.magnitude = k * 2 ^ step) ∨
      0 < step ∧ x.magnitude < leadingOne * 2 ^ step := by
  rcases Nat.lt_or_ge step x.exponentField with hfield | hfield
  · obtain ⟨e, he⟩ : ∃ e, x.exponentField = e + 1 := ⟨x.exponentField - 1, by omega⟩
    refine Or.inl ⟨(leadingOne + x.fraction) * 2 ^ (e - step), ?_⟩
    rw [magnitude_of_normal he, Nat.mul_assoc, ← Nat.pow_add, Nat.sub_add_cancel (by omega)]
  · rcases Nat.eq_zero_or_pos step with rfl | hstep
    · exact Or.inl ⟨x.magnitude, by simp⟩
    · exact Or.inr ⟨hstep, x.magnitude_lt.trans_le (leadingOne_mul_pow_le hfield)⟩

/-- **No double is nearer** than the one that is rounded to. -/
theorem roundUnits_nearest (n : Nat) (x : Binary64) :
    Nat.dist n (roundUnits n) ≤ Nat.dist n x.magnitude := by
  rw [roundUnits_eq]
  rcases x.magnitude_multiple_or_lt (excess n) with ⟨k, hk⟩ | ⟨hstep, hlt⟩
  · rw [hk]
    exact divideEven_nearest (Nat.two_pow_pos _) k
  · have hend : Nat.dist n (kept n * 2 ^ excess n) ≤ Nat.dist n (leadingOne * 2 ^ excess n) :=
      divideEven_nearest (Nat.two_pow_pos _) leadingOne
    have hlow := le_of_excess hstep
    unfold Nat.dist at hend ⊢
    omega

/-- **If another double is as near**, the bits that are kept are even. -/
theorem kept_even_of_tie {n : Nat} (hne : x.magnitude ≠ roundUnits n)
    (htie : Nat.dist n x.magnitude = Nat.dist n (roundUnits n)) : kept n % 2 = 0 := by
  rw [roundUnits_eq] at hne htie
  rcases x.magnitude_multiple_or_lt (excess n) with ⟨k, hk⟩ | ⟨hstep, hlt⟩
  · rw [hk] at hne htie
    refine divideEven_even_of_tie (Nat.two_pow_pos _) (k := k) ?_ htie
    rintro rfl
    exact hne rfl
  · -- the end of the range would be nearer still
    have hend : Nat.dist n (kept n * 2 ^ excess n) ≤ Nat.dist n (leadingOne * 2 ^ excess n) :=
      divideEven_nearest (Nat.two_pow_pos _) leadingOne
    have hlow := le_of_excess hstep
    unfold Nat.dist at hend htie
    omega

/-- **What is kept and what is dropped make up a pattern**, with the kept bits as digits. -/
theorem magnitude_of_pattern {e q : Nat} (hx : x.unsigned = e * leadingOne + q)
    (hq : q ≤ 2 * leadingOne) (hnormal : 0 < e → leadingOne ≤ q) :
    x.magnitude = q * 2 ^ e ∧ x.fraction % 2 = q % 2 := by
  have hfraction := x.fraction_lt
  have hfields := x.unsigned_eq
  rcases Nat.lt_or_ge q leadingOne with hlow | hhigh
  · -- without a leading one there is no exponent
    obtain rfl : e = 0 := by
      by_contra he
      have := hnormal (by omega)
      omega
    have hfield : x.exponentField = 0 := by
      rw [exponentField_eq, hx, Nat.zero_mul, Nat.zero_add, Nat.div_eq_of_lt hlow]
    rw [magnitude_of_subnormal hfield]
    rw [hfield] at hfields
    constructor <;> omega
  · rcases hq.eq_or_lt with rfl | hlt
    · -- rounding has carried into the next exponent
      have hpattern : x.unsigned = leadingOne * (e + 2) := by rw [hx]; ring
      have hfield : x.exponentField = e + 1 + 1 := by
        rw [exponentField_eq, hpattern, Nat.mul_div_cancel_left _ (by decide)]
      have hzero : x.fraction = 0 := by
        rw [fraction_eq, hpattern, Nat.mul_mod_right]
      rw [magnitude_of_normal hfield, hzero]
      exact ⟨by rw [Nat.pow_succ]; ring, by decide⟩
    · have hpattern : x.unsigned = (q - leadingOne) + leadingOne * (e + 1) := by
        rw [hx, Nat.mul_succ, Nat.mul_comm]
        omega
      have hfield : x.exponentField = e + 1 := by
        rw [exponentField_eq, hpattern, Nat.add_mul_div_left _ _ (by decide),
          Nat.div_eq_of_lt (by omega), Nat.zero_add]
      have hrest : x.fraction = q - leadingOne := by
        rw [fraction_eq, hpattern, Nat.add_mul_mod_self_left, Nat.mod_eq_of_lt (by omega)]
      rw [magnitude_of_normal hfield, hrest]
      refine ⟨by rw [Nat.add_sub_cancel' hhigh], ?_⟩
      unfold leadingOne at hhigh ⊢
      omega

/-! ### Rounding to doubles -/

/-- **The double that an exact number is rounded to**: no double is nearer to the number, and if
another one is as near, the fraction of this one is even.  As infinity counts as `2 ^ 1024`, the
numbers that are nearer to this than to the greatest finite double are rounded to infinity. -/
structure RoundsTo (exact : ℚ) (x : Binary64) : Prop where
  number : x.isNaN = false
  nearest : ∀ y : Binary64, y.isNaN = false → |x.toRat - exact| ≤ |y.toRat - exact|
  even : ∀ y : Binary64, y.isNaN = false → y.toRat ≠ x.toRat →
    |y.toRat - exact| = |x.toRat - exact| → x.fraction % 2 = 0

/-- Infinity, without a sign. -/
def infinity : Binary64 := ⟨0x7ff0000000000000⟩

theorem magnitude_le_infinity (h : x.isNaN = false) : x.magnitude ≤ infinity.magnitude :=
  magnitude_le_iff.2 (isNaN_eq_false_iff.1 h)

theorem cast_dist (m n : Nat) : (Nat.dist m n : ℚ) = |(n : ℚ) - m| := by
  rcases Nat.le_total m n with h | h
  · rw [Nat.dist_eq_sub_of_le h, Nat.cast_sub h, abs_of_nonneg (sub_nonneg.2 (Nat.cast_le.2 h))]
  · rw [Nat.dist_eq_sub_of_le_right h, Nat.cast_sub h, abs_sub_comm,
      abs_of_nonneg (sub_nonneg.2 (Nat.cast_le.2 h))]

/-- How far a double without a sign is from a number of units. -/
theorem abs_toRat_sub (h : 0 ≤ x.toRat) (n : Nat) :
    |x.toRat - n / unitsOfOne| = Nat.dist n x.magnitude / unitsOfOne := by
  rw [toRat_of_zero_le h, ← sub_div, abs_div, abs_of_pos unitsOfOne_pos, cast_dist]

/-- A double with a sign is no nearer. -/
theorem le_abs_toRat_sub (x : Binary64) (n : Nat) :
    (Nat.dist n x.magnitude : ℚ) / unitsOfOne ≤ |x.toRat - n / unitsOfOne| := by
  cases hsign : x.isNegative with
  | false => exact (abs_toRat_sub (toRat_nonneg hsign) n).ge
  | true =>
      have hsum : (Nat.dist n x.magnitude : ℚ) ≤ x.magnitude + n := by
        exact_mod_cast show Nat.dist n x.magnitude ≤ x.magnitude + n by unfold Nat.dist; omega
      have habs : |x.toRat - n / unitsOfOne| = (x.magnitude + n) / unitsOfOne := by
        rw [toRat_of_negative hsign, ← neg_add', abs_neg, ← add_div,
          abs_of_nonneg (div_nonneg (by positivity) unitsOfOne_pos.le)]
      rw [habs]
      exact div_le_div_of_nonneg_right hsum unitsOfOne_pos.le

/-- It is enough to look at magnitudes. -/
theorem roundsTo_of_magnitudes {n : Nat} (hnumber : x.isNaN = false) (hnonneg : 0 ≤ x.toRat)
    (hnearest : ∀ y : Binary64, y.isNaN = false → Nat.dist n x.magnitude ≤ Nat.dist n y.magnitude)
    (heven : ∀ y : Binary64, y.isNaN = false → y.magnitude ≠ x.magnitude →
      Nat.dist n y.magnitude = Nat.dist n x.magnitude → x.fraction % 2 = 0) :
    RoundsTo (n / unitsOfOne) x := by
  have hle : ∀ y : Binary64, y.isNaN = false →
      |x.toRat - n / unitsOfOne| ≤ |y.toRat - n / unitsOfOne| := by
    intro y hy
    rw [abs_toRat_sub hnonneg]
    refine le_trans ?_ (y.le_abs_toRat_sub n)
    exact div_le_div_of_nonneg_right (Nat.cast_le.2 (hnearest y hy)) unitsOfOne_pos.le
  refine ⟨hnumber, hle, fun y hy hne htie => ?_⟩
  -- zero is no nearer than the two, so neither of them lies below it
  have hnonneg' : 0 ≤ y.toRat := by
    have hn : (0 : ℚ) ≤ n / unitsOfOne := div_nonneg (Nat.cast_nonneg _) unitsOfOne_pos.le
    have hzero := hle zero (by decide)
    rw [← htie, toRat_zero, zero_sub, abs_neg, abs_of_nonneg hn] at hzero
    linarith [neg_abs_le (y.toRat - n / unitsOfOne)]
  rw [abs_toRat_sub hnonneg, abs_toRat_sub hnonneg', div_left_inj' unitsOfOne_pos.ne',
    Nat.cast_inj] at htie
  refine heven y hy (fun hsame => hne ?_) htie
  rw [toRat_of_zero_le hnonneg, toRat_of_zero_le hnonneg', hsame]

/-- **Every number of units is rounded to some double**, which has the magnitude of the rounded
number, or is infinity if there is no such double. -/
theorem exists_roundsTo (n : Nat) :
    ∃ x, RoundsTo (n / unitsOfOne) x ∧ 0 ≤ x.toRat ∧
      x.magnitude = min (roundUnits n) infinity.magnitude := by
  have hkept := kept_le n
  rcases Nat.lt_or_ge 0x7ff0000000000000 (excess n * leadingOne + kept n) with hlarge | hsmall
  · -- the range of `n` is that of infinity, or beyond
    have hexcess : 2046 ≤ excess n := by
      unfold leadingOne at hkept hlarge
      omega
    have hinfinity : infinity.magnitude ≤ leadingOne * 2 ^ excess n := by
      have hfield : infinity.exponentField = 2046 + 1 := by decide
      rw [magnitude_of_normal hfield, show infinity.fraction = 0 by decide, Nat.add_zero]
      exact leadingOne_mul_pow_le hexcess
    have hn : infinity.magnitude ≤ n := hinfinity.trans (le_of_excess (by omega))
    have hround : infinity.magnitude ≤ roundUnits n := by
      rw [roundUnits_eq]
      exact hinfinity.trans (Nat.mul_le_mul_right _ (le_kept (by omega)))
    have hnonneg : 0 ≤ infinity.toRat := toRat_nonneg (by decide)
    refine ⟨infinity, roundsTo_of_magnitudes (by decide) hnonneg (fun y hy => ?_)
      (fun _ _ _ _ => by decide), hnonneg, (Nat.min_eq_right hround).symm⟩
    have hy := magnitude_le_infinity hy
    unfold Nat.dist
    omega
  · have hpattern : excess n * leadingOne + kept n < 0x8000000000000000 := by omega
    have hunsigned := unsigned_ofUnsigned false hpattern
    have hsign := isNegative_ofUnsigned false hpattern
    generalize ofUnsigned false (excess n * leadingOne + kept n) = x at hunsigned hsign
    obtain ⟨hmagnitude, hparity⟩ := magnitude_of_pattern hunsigned hkept le_kept
    rw [← roundUnits_eq] at hmagnitude
    have hnumber : x.isNaN = false := isNaN_eq_false_iff.2 (hunsigned ▸ hsmall)
    have hnonneg : 0 ≤ x.toRat := toRat_nonneg hsign
    refine ⟨x, roundsTo_of_magnitudes hnumber hnonneg (fun y _ => ?_) (fun y _ hne htie => ?_),
      hnonneg, ?_⟩
    · rw [hmagnitude]
      exact roundUnits_nearest n y
    · rw [hmagnitude] at hne htie
      rw [hparity]
      exact kept_even_of_tie hne htie
    · rw [← hmagnitude, Nat.min_eq_left (magnitude_le_infinity hnumber)]

/-! ### Signs -/

/-- **The double with the other sign.** -/
def neg (x : Binary64) : Binary64 := ofUnsigned (!x.isNegative) x.unsigned

@[simp] theorem unsigned_neg (x : Binary64) : x.neg.unsigned = x.unsigned :=
  unsigned_ofUnsigned _ x.unsigned_lt

@[simp] theorem isNegative_neg (x : Binary64) : x.neg.isNegative = !x.isNegative :=
  isNegative_ofUnsigned _ x.unsigned_lt

theorem isNaN_neg (h : x.isNaN = false) : x.neg.isNaN = false := by
  rw [isNaN_eq_false_iff] at h ⊢
  rwa [unsigned_neg]

@[simp] theorem fraction_neg (x : Binary64) : x.neg.fraction = x.fraction := by
  rw [fraction_eq, fraction_eq, unsigned_neg]

@[simp] theorem toRat_neg (x : Binary64) : x.neg.toRat = -x.toRat := by
  have hmagnitude : x.neg.magnitude = x.magnitude := magnitude_eq_iff.2 x.unsigned_neg
  cases hsign : x.isNegative with
  | false => rw [toRat_of_negative (by simp [hsign]), toRat_of_nonneg hsign, hmagnitude]
  | true => rw [toRat_of_nonneg (by simp [hsign]), toRat_of_negative hsign, hmagnitude, neg_neg]

/-- The number with the other sign is rounded to the double with the other sign. -/
theorem RoundsTo.neg {exact : ℚ} (h : RoundsTo exact x) : RoundsTo (-exact) x.neg := by
  have hflip : ∀ y : Binary64, |y.toRat - -exact| = |y.neg.toRat - exact| := by
    intro y
    rw [toRat_neg, ← abs_neg]
    ring_nf
  have hself : |x.neg.toRat - -exact| = |x.toRat - exact| := by
    rw [toRat_neg, neg_sub_neg, abs_sub_comm]
  refine ⟨isNaN_neg h.number, fun y hy => ?_, fun y hy hne htie => ?_⟩
  · rw [hself, hflip]
    exact h.nearest y.neg (isNaN_neg hy)
  · rw [fraction_neg]
    rw [hself, hflip] at htie
    refine h.even y.neg (isNaN_neg hy) (fun hsame => hne ?_) htie
    rw [toRat_neg, ← hsame, toRat_neg, neg_neg]

/-! ### There is only one result -/

namespace RoundsTo

variable {exact : ℚ}

/-- Between two doubles that a number is rounded to there is no other double. -/
theorem not_between (h : RoundsTo exact x) (h' : RoundsTo exact y) {z : Binary64}
    (hz : z.isNaN = false) (hlow : x.toRat < z.toRat) : ¬ z.toRat < y.toRat := by
  intro hhigh
  have hx := h.nearest z hz
  have hy := h'.nearest z hz
  rcases le_total exact z.toRat with hside | hside
  · rw [abs_of_nonneg (sub_nonneg.2 hside)] at hy
    linarith [le_abs_self (y.toRat - exact)]
  · rw [abs_of_nonpos (sub_nonpos.2 hside)] at hx
    linarith [neg_abs_le (x.toRat - exact)]

/-- Of two doubles without a sign, a number is not rounded to both. -/
theorem not_lt_of_nonneg (h : RoundsTo exact x) (h' : RoundsTo exact y) (hnonneg : 0 ≤ x.toRat) :
    ¬ x.toRat < y.toRat := by
  intro hlt
  have hpatterns := (toRat_lt_toRat_iff hnonneg (hnonneg.trans hlt.le)).1 hlt
  have htie : |y.toRat - exact| = |x.toRat - exact| :=
    le_antisymm (h'.nearest x h.number) (h.nearest y h'.number)
  -- both fractions are even, so there is a pattern between the two
  have hgap : x.unsigned + 1 < y.unsigned := by
    have hx := h.even y h'.number hlt.ne' htie
    have hy := h'.even x h.number hlt.ne htie.symm
    have hfields := x.unsigned_eq
    have hfields' := y.unsigned_eq
    unfold leadingOne at hfields hfields'
    omega
  have hnumber := isNaN_eq_false_iff.1 h'.number
  have hbound : x.unsigned + 1 < 0x8000000000000000 := by omega
  have hunsigned := unsigned_ofUnsigned false hbound
  have hpositive := toRat_nonneg (isNegative_ofUnsigned false hbound)
  refine h.not_between h' (z := ofUnsigned false (x.unsigned + 1)) ?_ ?_ ?_
  · rw [isNaN_eq_false_iff, hunsigned]
    omega
  · rw [toRat_lt_toRat_iff hnonneg hpositive, hunsigned]
    omega
  · rwa [toRat_lt_toRat_iff hpositive (hnonneg.trans hlt.le), hunsigned]

/-- **A number is rounded to one number only.** -/
theorem unique (h : RoundsTo exact x) (h' : RoundsTo exact y) : x.toRat = y.toRat := by
  by_contra hne
  wlog hlt : x.toRat < y.toRat generalizing x y
  · exact this h' h (Ne.symm hne) (lt_of_le_of_ne (not_lt.1 hlt) (Ne.symm hne))
  rcases le_or_gt 0 x.toRat with hx | hx
  · exact h.not_lt_of_nonneg h' hx hlt
  rcases le_or_gt y.toRat 0 with hy | hy
  · refine h'.neg.not_lt_of_nonneg h.neg ?_ ?_
    · rwa [toRat_neg, neg_nonneg]
    · rwa [toRat_neg, toRat_neg, neg_lt_neg_iff]
  · -- the two lie on both sides of zero
    refine h.not_between h' (z := zero) (by decide) ?_ ?_
    · rwa [toRat_zero]
    · rwa [toRat_zero]

end RoundsTo

end Binary64

end IndexedSkipList
