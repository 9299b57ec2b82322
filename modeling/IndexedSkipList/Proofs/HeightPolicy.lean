/-
**What policies accept, and what they make of words.**

A height is drawn word by word, and the source is changed by every word.  Seen from the stream that
the source delivers, nothing of this is left: the height is decided by the leading words that are
below the threshold, and the source afterwards is the same source some words further along.  The
word that ends the promotions is read as well, unless the ceiling ended them before.

A list of choices makes a policy, and for this it does not matter in what order the choices come or
how often one is taken back: the ceiling is the one that was chosen last, and so is the probability,
each on its own, and the defaults stand in where nothing was chosen.  The policy is accepted if its
ceiling is in its bounds and its probability denotes a number from zero to below one; a ceiling out
of bounds is reported before the probability is looked at.

The threshold is made by one multiplication of doubles and a cut to a whole word.  The product is
rounded before it is cut, so it may come to lie on the whole number above the exact product; but it
does not pass over this number, nor over the one below, as both fit into a double.  Only at the top
more is to be said: the greatest double below one is one by `2 ^ (-53)` short, and the product with
this one is still rounded to a number below the largest word.  So there is always a second word that
ends the promotions, besides the largest one.  The exact product is a rational number, and rounding
is that of `Binary64.RoundsTo`, which says no more than that the nearest double is taken.

Main definitions:

* `HeightPolicy.leadingBelow`, `HeightPolicy.heightFrom` — the promotions and the height that a
  stream of words gives;
* `HeightPolicy.wordsRead` — the number of words that are read for a height;
* `HeightPolicy.askedHeight`, `HeightPolicy.askedProbability` — the choices that count;
* `HeightPolicy.EndsPromotion` — the words that end the promotions;
* `HeightPolicy.Calibrated` — what the threshold has to do with the probability.

Main results:

* `HeightPolicy.drawHeight_eq` — **what is drawn, and where the source stands then**;
* `HeightPolicy.ofSettings_eq` — **a policy consists of the choices that count**;
* `HeightPolicy.validate_ok`, `HeightPolicy.validate_maxHeight`, `HeightPolicy.validate_probability`
  — what is accepted, and why the rest is refused;
* `HeightPolicy.endsPromotion_iff` — the words that end the promotions are the ones from the
  threshold on;
* `HeightPolicy.exists_product` — **the threshold is the rounded product, cut to a word**;
* `HeightPolicy.threshold_lt_maxWord` — below one, it is below the largest word;
* `HeightPolicy.calibrated` — **all this for every policy**, whatever the bits of its probability.
-/

import IndexedSkipList.HeightPolicy
import IndexedSkipList.Proofs.Binary64.Nearest
import Mathlib.Algebra.Order.Floor.Semifield
import Mathlib.Data.List.Induction
import Mathlib.Data.List.Range
import Mathlib.Data.Rat.Floor

set_option relaxedAutoImplicit false
set_option autoImplicit false

namespace IndexedSkipList

namespace HeightPolicy

/-! ### Heights from a stream of words -/

section Drawing

variable {R : Type} [WordSource R]

/-- The number of leading words below the threshold, `room` of them at most. -/
def leadingBelow (threshold room : Nat) (word : Nat → UInt32) : Nat :=
  ((List.range room).takeWhile fun n => (word n).toNat < threshold).length

/-- **The height that a stream of words gives**: one, and one more for every leading word below the
threshold, up to the ceiling. -/
def heightFrom (policy : HeightPolicy) (word : Nat → UInt32) : Nat :=
  1 + leadingBelow policy.threshold (policy.maxHeight - 1) word

/-- The number of words that are read for a height: one for each promotion, and one that ends them
if the ceiling does not. -/
def wordsRead (policy : HeightPolicy) (height : Nat) : Nat := min height (policy.maxHeight - 1)

theorem leadingBelow_of_lt {threshold : Nat} {word : Nat → UInt32} (h : (word 0).toNat < threshold)
    (room : Nat) :
    leadingBelow threshold (room + 1) word =
      leadingBelow threshold room (fun n => word (n + 1)) + 1 := by
  rw [leadingBelow, List.range_succ_eq_map, List.takeWhile_cons_of_pos (by simpa using h),
    List.takeWhile_map, List.length_cons, List.length_map]
  rfl

theorem leadingBelow_of_not_lt {threshold : Nat} {word : Nat → UInt32}
    (h : ¬ (word 0).toNat < threshold) (room : Nat) : leadingBelow threshold room word = 0 := by
  cases room with
  | zero => rfl
  | succ room =>
      rw [leadingBelow, List.range_succ_eq_map, List.takeWhile_cons_of_neg (by simpa using h)]
      rfl

/-- The promotions are the leading words below the threshold; the source has gone on by these and
by the word behind them, as far as there was room. -/
theorem rises_eq (threshold room : Nat) (source : R) :
    rises threshold room source =
      (leadingBelow threshold room (WordSource.word source),
        WordSource.skip (min (leadingBelow threshold room (WordSource.word source) + 1) room)
          source) := by
  induction room generalizing source with
  | zero => rfl
  | succ room ih =>
      -- the words behind the first are those of the source after one draw
      have hshift : (fun n => WordSource.word source (n + 1)) =
          WordSource.word (WordSource.next source).2 := by
        funext n
        rw [Nat.add_comm]
        exact (WordSource.word_skip 1 n source).symm
      by_cases hword : (WordSource.next source).1.toNat < threshold
      · have hfirst : (WordSource.word source 0).toNat < threshold := hword
        rw [leadingBelow_of_lt hfirst, hshift, Nat.succ_min_succ]
        simp only [rises, hword, if_true, ih]
        rfl
      · have hfirst : ¬ (WordSource.word source 0).toNat < threshold := hword
        rw [leadingBelow_of_not_lt hfirst, Nat.succ_min_succ, Nat.zero_min]
        simp only [rises, hword, if_false]
        rfl

/-- **What is drawn, and where the source stands then.** -/
theorem drawHeight_eq (policy : HeightPolicy) (source : R) :
    policy.drawHeight source =
      (policy.heightFrom (WordSource.word source),
        WordSource.skip (policy.wordsRead (policy.heightFrom (WordSource.word source)))
          source) := by
  simp only [drawHeight, rises_eq, heightFrom, wordsRead, Nat.add_comm 1]

end Drawing

/-! ### The choices that count -/

/-- The ceiling, if the choice is about it. -/
def Setting.maxHeight? : Setting → Option Nat
  | .maxHeight chosen => some chosen
  | .probability _ => none

/-- The probability, if the choice is about it. -/
def Setting.probability? : Setting → Option Binary64
  | .maxHeight _ => none
  | .probability chosen => some chosen

/-- **The ceiling that was chosen last**, the default one if none was. -/
def askedHeight (settings : List Setting) : Nat :=
  (settings.filterMap Setting.maxHeight?).getLast?.getD 32

/-- **The probability that was chosen last**, the default one if none was. -/
def askedProbability (settings : List Setting) : Binary64 :=
  (settings.filterMap Setting.probability?).getLast?.getD .quarter

/-- **A policy consists of the choices that count.** -/
theorem ofSettings_eq (settings : List Setting) :
    ofSettings settings = ⟨askedHeight settings, askedProbability settings⟩ := by
  induction settings using List.reverseRecOn with
  | nil => rfl
  | append_singleton settings setting ih =>
      rw [ofSettings, List.foldl_append]
      rw [ofSettings] at ih
      rw [ih]
      cases setting <;>
        simp [apply, askedHeight, askedProbability, Setting.maxHeight?, Setting.probability?]

/-- Without any choice there are 32 levels at most, and a quarter of the nodes are promoted. -/
example : askedHeight [] = 32 ∧ (askedProbability []).toRat = 1 / 4 := by decide +kernel

/-! ### What is accepted -/

section Accepting

variable {policy : HeightPolicy}

/-- The bounds of a probability are those of the numbers denoted. -/
theorem hasValidProbability_iff :
    policy.hasValidProbability = true ↔ policy.probability.IsProbability := by
  have hzero : Binary64.zero.isNaN = false := by decide
  have hone : Binary64.one.isNaN = false := by decide
  simp only [hasValidProbability, Bool.and_eq_true, Binary64.le_iff, Binary64.lt_iff,
    Binary64.toRat_zero, Binary64.toRat_one, Binary64.IsProbability, hzero, hone, true_and]
  tauto

theorem hasValidHeight_iff :
    policy.hasValidHeight = true ↔ 1 ≤ policy.maxHeight ∧ policy.maxHeight ≤ maxLevels := by
  simp [hasValidHeight]

theorem validate_ok :
    policy.validate = .ok () ↔
      (1 ≤ policy.maxHeight ∧ policy.maxHeight ≤ maxLevels) ∧ policy.probability.IsProbability := by
  rw [validate_eq_ok_iff, hasValidHeight_iff, hasValidProbability_iff]

/-- A ceiling out of bounds is reported, whatever the probability is; -/
theorem validate_maxHeight (h : ¬ (1 ≤ policy.maxHeight ∧ policy.maxHeight ≤ maxLevels)) :
    policy.validate = .error (.maxHeight policy.maxHeight) := by
  rw [← hasValidHeight_iff, Bool.not_eq_true] at h
  simp [validate, h]

/-- besides this the probability is. -/
theorem validate_probability (h : 1 ≤ policy.maxHeight ∧ policy.maxHeight ≤ maxLevels)
    (h' : ¬ policy.probability.IsProbability) :
    policy.validate = .error (.probability policy.probability) := by
  rw [← hasValidHeight_iff] at h
  rw [← hasValidProbability_iff, Bool.not_eq_true] at h'
  simp [validate, h, h']

end Accepting

/-! ### Words that end the promotions -/

/-- **The word ends the promotions**, whichever source delivers it and however many levels there
would be room for. -/
def EndsPromotion (policy : HeightPolicy) (word : UInt32) : Prop :=
  ∀ (R : Type) [WordSource R] (room : Nat) (source : R),
    (WordSource.next source).1 = word → (rises policy.threshold room source).1 = 0

/-- These words are the ones from the threshold on. -/
theorem endsPromotion_iff {policy : HeightPolicy} {word : UInt32} :
    policy.EndsPromotion word ↔ policy.threshold ≤ word.toNat := by
  constructor
  · intro h
    -- a source that delivers nothing else would promote
    have hends := h CyclicWords 1 ⟨#[word], 0⟩ rfl
    by_contra hnot
    have hword : word.toNat < policy.threshold := Nat.lt_of_not_le hnot
    simp [rises, WordSource.next, hword] at hends
  · rintro h R _ room source rfl
    cases room with
    | zero => rfl
    | succ room =>
        have hword : ¬ (WordSource.next source).1.toNat < policy.threshold := Nat.not_lt.2 h
        simp only [rises, hword, if_false]

/-! ### The product in units -/

open Binary64

variable {policy other : HeightPolicy}

/-- The product of `maxWord` and the magnitude of the probability, rounded and cut to a whole
number. -/
def wholeProduct (policy : HeightPolicy) : Nat :=
  roundUnits (maxWord * policy.probability.magnitude) / unitsOfOne

/-- Words are far from needing fifty-three bits. -/
theorem le_two_mul_leadingOne {m : Nat} (h : m ≤ maxWord) : m ≤ 2 * leadingOne :=
  h.trans (by decide)

/-- **The product is not rounded past a word** below it, -/
theorem le_wholeProduct {m : Nat} (hm : m ≤ maxWord)
    (h : m * unitsOfOne ≤ maxWord * policy.probability.magnitude) : m ≤ policy.wholeProduct := by
  obtain ⟨k, hk⟩ := exists_unitsOfOne_eq
  rw [wholeProduct, Nat.le_div_iff_mul_le (Nat.cast_pos.1 unitsOfOne_pos)]
  rw [hk] at h ⊢
  exact le_roundUnits (le_two_mul_leadingOne hm) h

/-- nor past one above it. -/
theorem wholeProduct_le {m : Nat} (hm : m ≤ maxWord)
    (h : maxWord * policy.probability.magnitude ≤ m * unitsOfOne) : policy.wholeProduct ≤ m := by
  obtain ⟨k, hk⟩ := exists_unitsOfOne_eq
  rw [wholeProduct]
  refine Nat.div_le_of_le_mul ?_
  rw [hk] at h ⊢
  rw [Nat.mul_comm (2 ^ k)]
  exact roundUnits_le (le_two_mul_leadingOne hm) h

theorem wholeProduct_mono (h : policy.probability.magnitude ≤ other.probability.magnitude) :
    policy.wholeProduct ≤ other.wholeProduct :=
  Nat.div_le_div_right (roundUnits_mono (Nat.mul_le_mul_left _ h))

theorem wholeProduct_eq_zero (h : policy.probability.toRat = 0) : policy.wholeProduct = 0 := by
  rw [wholeProduct, toRat_eq_zero_iff.1 h, Nat.mul_zero, roundUnits_of_lt (by decide), Nat.zero_div]

/-- The greatest double below one. -/
def belowOne : Binary64 := ⟨0x3fefffffffffffff⟩

/-- **Below one, the product is rounded to less than the largest word.** -/
theorem wholeProduct_lt_maxWord (h : policy.probability.magnitude < unitsOfOne) :
    policy.wholeProduct < maxWord := by
  have hle : policy.probability.magnitude ≤ belowOne.magnitude := by
    rw [← magnitude_one, magnitude_lt_iff] at h
    exact magnitude_le_iff.2 (Nat.le_of_lt_succ h)
  have hmono : policy.wholeProduct ≤ wholeProduct { probability := belowOne } :=
    wholeProduct_mono hle
  exact hmono.trans_lt (by decide +kernel)

/-! ### The threshold -/

/-- Without a sign, or for zero, nothing is cut off below. -/
theorem threshold_of_nonneg (hnumber : policy.probability.isNaN = false)
    (hnonneg : 0 ≤ policy.probability.toRat) :
    policy.threshold = min maxWord policy.wholeProduct := by
  cases hsign : policy.probability.isNegative with
  | false => simp [threshold, wholeProduct, hnumber, hsign]
  | true =>
      rw [wholeProduct_eq_zero (le_antisymm (toRat_nonpos hsign) hnonneg), Nat.min_zero]
      simp [threshold, hsign]

/-- What is no number, what is below zero and both zeros promote nothing. -/
theorem threshold_eq_zero
    (h : policy.probability.isNaN = true ∨ policy.probability.toRat ≤ 0) :
    policy.threshold = 0 := by
  cases hnan : policy.probability.isNaN with
  | true => simp [threshold, hnan]
  | false =>
      have hle : policy.probability.toRat ≤ 0 := h.resolve_left (by simp [hnan])
      cases hsign : policy.probability.isNegative with
      | true => simp [threshold, hsign]
      | false =>
          have hnonneg := toRat_nonneg hsign
          rw [threshold_of_nonneg hnan hnonneg, wholeProduct_eq_zero (le_antisymm hle hnonneg),
            Nat.min_zero]

/-- From one on everything up to the largest word promotes. -/
theorem threshold_eq_maxWord (hnumber : policy.probability.isNaN = false)
    (h : 1 ≤ policy.probability.toRat) : policy.threshold = maxWord := by
  have hnonneg : 0 ≤ policy.probability.toRat := zero_le_one.trans h
  rw [one_le_toRat_iff hnonneg] at h
  rw [threshold_of_nonneg hnumber hnonneg]
  exact Nat.min_eq_left (le_wholeProduct le_rfl (Nat.mul_le_mul_left _ h))

/-- **Below one, the threshold is below the largest word.** -/
theorem threshold_lt_maxWord (h : policy.probability.toRat < 1) : policy.threshold < maxWord := by
  by_cases hpositive : policy.probability.isNaN = false ∧ 0 ≤ policy.probability.toRat
  · obtain ⟨hnumber, hnonneg⟩ := hpositive
    rw [← not_le, one_le_toRat_iff hnonneg, not_le] at h
    rw [threshold_of_nonneg hnumber hnonneg]
    exact (Nat.min_le_right _ _).trans_lt (wholeProduct_lt_maxWord h)
  · rw [threshold_eq_zero]
    · decide
    · by_contra hnot
      push Not at hnot
      exact hpositive ⟨by simpa using hnot.1, hnot.2.le⟩

/-- The greatest probability leaves two words that do not promote, and no more. -/
example : threshold { probability := belowOne } = maxWord - 1 := by decide +kernel

/-- A greater probability has no smaller threshold. -/
theorem threshold_mono (h : policy.probability.le other.probability = true) :
    policy.threshold ≤ other.threshold := by
  obtain ⟨hnumber, hnumber', hle⟩ := le_iff.1 h
  rcases le_total policy.probability.toRat 0 with hzero | hnonneg
  · rw [threshold_eq_zero (Or.inr hzero)]
    exact Nat.zero_le _
  · have hnonneg' := hnonneg.trans hle
    rw [threshold_of_nonneg hnumber hnonneg, threshold_of_nonneg hnumber' hnonneg']
    rw [toRat_le_toRat_iff hnonneg hnonneg'] at hle
    exact min_le_min_left _ (wholeProduct_mono hle)

/-! ### The exact product -/

/-- The exact product is a number of units. -/
theorem product_eq (h : 0 ≤ policy.probability.toRat) :
    maxWord * policy.probability.toRat =
      (maxWord * policy.probability.magnitude : Nat) / unitsOfOne := by
  rw [toRat_of_zero_le h, Nat.cast_mul, mul_div_assoc]

/-- For a probability below one the product is no more than the largest word. -/
theorem product_le (h : policy.probability.toRat < 1) :
    maxWord * policy.probability.toRat ≤ maxWord :=
  mul_le_of_le_one_right (Nat.cast_nonneg _) h.le

theorem floor_product_le (h : policy.probability.IsProbability) :
    ⌊maxWord * policy.probability.toRat⌋₊ ≤ policy.threshold := by
  obtain ⟨hnumber, hnonneg, hlt⟩ := h
  have hword : ⌊maxWord * policy.probability.toRat⌋₊ ≤ maxWord :=
    Nat.floor_le_of_le (product_le hlt)
  rw [threshold_of_nonneg hnumber hnonneg]
  refine le_min hword (le_wholeProduct hword ?_)
  rw [product_eq hnonneg, Nat.floor_div_eq_div]
  exact Nat.div_mul_le_self _ _

theorem le_ceil_product (h : policy.probability.IsProbability) :
    policy.threshold ≤ ⌈maxWord * policy.probability.toRat⌉₊ := by
  obtain ⟨hnumber, hnonneg, hlt⟩ := h
  have hword : ⌈maxWord * policy.probability.toRat⌉₊ ≤ maxWord := Nat.ceil_le.2 (product_le hlt)
  rw [threshold_of_nonneg hnumber hnonneg]
  refine (Nat.min_le_right _ _).trans (wholeProduct_le hword ?_)
  have hceil := Nat.le_ceil (maxWord * policy.probability.toRat)
  rw [product_eq hnonneg, div_le_iff₀ unitsOfOne_pos] at hceil
  rw [product_eq hnonneg]
  exact_mod_cast hceil

/-- Words are far below infinity. -/
theorem maxWord_le_infinity : maxWord ≤ infinity.magnitude / unitsOfOne := by decide +kernel

/-- **The threshold is the exact product, rounded to a double and cut to a word.** -/
theorem exists_product (hnumber : policy.probability.isNaN = false) :
    ∃ product, RoundsTo (maxWord * policy.probability.toRat) product ∧
      policy.threshold = min maxWord ⌊product.toRat⌋₊ := by
  rcases le_total 0 policy.probability.toRat with hnonneg | hle
  · obtain ⟨x, hrounds, hsign, hmagnitude⟩ :=
      exists_roundsTo (maxWord * policy.probability.magnitude)
    rw [← product_eq hnonneg] at hrounds
    refine ⟨x, hrounds, ?_⟩
    rw [threshold_of_nonneg hnumber hnonneg, toRat_of_zero_le hsign, Nat.floor_div_eq_div,
      hmagnitude, wholeProduct]
    -- what is rounded to infinity is cut to the largest word as well
    rcases le_total (roundUnits (maxWord * policy.probability.magnitude)) infinity.magnitude
      with hfinite | hlarge
    · rw [min_eq_left hfinite]
    · have hcut := maxWord_le_infinity.trans (Nat.div_le_div_right (c := unitsOfOne) hlarge)
      rw [min_eq_right hlarge, min_eq_left hcut, min_eq_left maxWord_le_infinity]
  · -- the product lies below zero like its factor, and is cut off
    obtain ⟨x, hrounds, hsign, _⟩ := exists_roundsTo (maxWord * policy.probability.magnitude)
    have hproduct : maxWord * policy.probability.toRat =
        -((maxWord * policy.probability.magnitude : Nat) / unitsOfOne) := by
      rw [toRat_of_le_zero hle, Nat.cast_mul, mul_neg, mul_div_assoc]
    refine ⟨x.neg, hproduct ▸ hrounds.neg, ?_⟩
    rw [threshold_eq_zero (Or.inr hle), toRat_neg, Nat.floor_of_nonpos (neg_nonpos.2 hsign),
      Nat.min_zero]

/-! ### All policies -/

/-- **The threshold of a policy and its probability.**  For a probability that is a number, the
exact product is `maxWord` times the number denoted. -/
structure Calibrated (policy : HeightPolicy) : Prop where
  /-- What is no number, what is below zero and both zeros promote nothing. -/
  zero : policy.probability.isNaN = true ∨ policy.probability.toRat ≤ 0 → policy.threshold = 0
  /-- From one on everything up to the largest word promotes, and only from there on; -/
  full_iff : policy.threshold = maxWord ↔
    policy.probability.isNaN = false ∧ 1 ≤ policy.probability.toRat
  /-- so it does for infinity. -/
  full_of_infinity : policy.probability = .infinity → policy.threshold = maxWord
  /-- For the numbers between, the threshold is next to the exact product, -/
  floor_le : policy.probability.IsProbability →
    ⌊maxWord * policy.probability.toRat⌋₊ ≤ policy.threshold
  le_ceil : policy.probability.IsProbability →
    policy.threshold ≤ ⌈maxWord * policy.probability.toRat⌉₊
  /-- and leaves out the two largest words, -/
  le_top : policy.probability.IsProbability → policy.threshold ≤ 4294967294
  /-- so that with every probability that is accepted there are two words that promote nothing. -/
  twoEnd : policy.hasValidProbability = true →
    ∃ a b, a ≠ b ∧ policy.EndsPromotion a ∧ policy.EndsPromotion b
  /-- The exact product is rounded to a double, and the threshold is this one, cut to a word. -/
  rounds : policy.probability.isNaN = false →
    ∃ product, Binary64.RoundsTo (maxWord * policy.probability.toRat) product
  cut : policy.probability.isNaN = false → ∀ product,
    Binary64.RoundsTo (maxWord * policy.probability.toRat) product →
      policy.threshold = min maxWord ⌊product.toRat⌋₊
  /-- A greater probability has no smaller threshold. -/
  monotone : ∀ other : HeightPolicy, policy.probability.le other.probability = true →
    policy.threshold ≤ other.threshold

/-- **Every policy has the threshold that its probability asks for.** -/
theorem calibrated (policy : HeightPolicy) : policy.Calibrated where
  zero := threshold_eq_zero
  full_iff := by
    refine ⟨fun hfull => ?_, fun h => threshold_eq_maxWord h.1 h.2⟩
    constructor
    · by_contra hnan
      rw [threshold_eq_zero (Or.inl (by simpa using hnan))] at hfull
      exact absurd hfull (by decide)
    · by_contra hlt
      exact (threshold_lt_maxWord (not_le.1 hlt)).ne hfull
  full_of_infinity := by
    intro h
    refine threshold_eq_maxWord (by rw [h]; decide) ?_
    rw [h, toRat_of_isInfinite (by decide), if_neg (by decide)]
    exact one_le_zpow₀ one_le_two (by decide)
  floor_le := floor_product_le
  le_ceil := le_ceil_product
  le_top := fun h => Nat.le_of_lt_succ (threshold_lt_maxWord h.2.2)
  twoEnd := by
    intro h
    have hlt := threshold_lt_maxWord (hasValidProbability_iff.1 h).2.2
    refine ⟨UInt32.ofNat (maxWord - 1), UInt32.ofNat maxWord, by decide, ?_, ?_⟩
    · exact endsPromotion_iff.2 (Nat.le_sub_one_of_lt hlt)
    · exact endsPromotion_iff.2 hlt.le
  rounds := fun hnumber => (exists_product hnumber).imp fun _ h => h.1
  cut := by
    intro hnumber product hrounds
    obtain ⟨product', hrounds', hthreshold⟩ := exists_product hnumber
    rwa [hrounds.unique hrounds']
  monotone := fun _ => threshold_mono

end HeightPolicy

end IndexedSkipList
