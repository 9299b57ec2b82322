/-
**The policy that heights are drawn by.**

A policy has a ceiling, which no height exceeds, and a promotion probability, by which a node that
stands on one level stands on the next one as well.  A promotion is decided by comparing a random
word of thirty-two bits with a threshold, the probability scaled to the range of words: the double
nearest to `(2 ^ 32 - 1) · p`, cut down to a whole number and to that range.

Policies are put together from the default one by settings, and any setting can be made; only
`HeightPolicy.validate` tells whether a skip list can work with the outcome.  The ceiling must lie
between 1 and 64, the probability in the half-open interval from 0 to 1, and of two faults the one
of the ceiling is reported.

A new node stands on the base.  As long as it is below the ceiling, the next word of the source
decides whether it stands on one more level; the first word that is not below the threshold ends
this, and at the ceiling no word is drawn.

Main definitions:

* `HeightPolicy`, `HeightPolicy.Setting`, `HeightPolicy.ofSettings` — policies and their settings;
* `HeightPolicy.validate`, `PolicyError` — which policies are accepted, and why one is refused;
* `HeightPolicy.threshold` — the words that promote are those below it;
* `HeightPolicy.equals`, `PolicyError.equals` — equality, with probabilities compared as numbers;
* `HeightPolicy.rises`, `HeightPolicy.drawHeight` — the promotions that a source grants, and a
  height, each with the source after it;
* `PolicyError.message`, `PolicyError.label`, `HeightPolicy.label` — the texts of reasons and
  policies.

Main results:

* `HeightPolicy.validate_eq_ok_iff` — a policy is accepted if its ceiling and its probability are;
* `HeightPolicy.drawHeight_bounds` — a height is at least one and, if the ceiling is, at most the
  ceiling.
-/

import IndexedSkipList.Binary64
import IndexedSkipList.WordSource

set_option relaxedAutoImplicit false
set_option autoImplicit false

namespace IndexedSkipList

/-- The largest ceiling that a policy may have. -/
def maxLevels : Nat := 64

/-- A ceiling on heights and a promotion probability. -/
structure HeightPolicy where
  maxHeight : Nat := 32
  probability : Binary64 := .quarter
  deriving DecidableEq

/-- Why a policy is refused. -/
inductive PolicyError where
  /-- The ceiling is zero or above `maxLevels`. -/
  | maxHeight (height : Nat)
  /-- The probability is not a number from zero up to, but not including, one. -/
  | probability (probability : Binary64)
  deriving DecidableEq

/-- Equality of reasons: the same kind, and equal numbers. -/
def PolicyError.equals : PolicyError → PolicyError → Bool
  | .maxHeight a, .maxHeight b => decide (a = b)
  | .probability p, .probability q => p.equals q
  | _, _ => false

namespace HeightPolicy

/-! ### Settings -/

/-- One choice about a policy. -/
inductive Setting where
  | maxHeight (height : Nat)
  | probability (probability : Binary64)
  deriving DecidableEq

/-- The policy after one more choice. -/
def apply (policy : HeightPolicy) : Setting → HeightPolicy
  | .maxHeight height => { policy with maxHeight := height }
  | .probability probability => { policy with probability }

/-- The policy that a list of choices makes of the default one; of choices about the same thing
the last one counts. -/
def ofSettings (settings : List Setting) : HeightPolicy := settings.foldl apply {}

/-- Equality of policies: the same ceiling, and equal numbers as probabilities. -/
def equals (a b : HeightPolicy) : Bool :=
  decide (a.maxHeight = b.maxHeight) && a.probability.equals b.probability

/-! ### Acceptance -/

/-- The ceiling leaves room for a node, and is not above `maxLevels`. -/
def hasValidHeight (policy : HeightPolicy) : Bool :=
  decide (1 ≤ policy.maxHeight ∧ policy.maxHeight ≤ maxLevels)

/-- The probability is a number from zero up to, but not including, one. -/
def hasValidProbability (policy : HeightPolicy) : Bool :=
  Binary64.zero.le policy.probability && policy.probability.lt .one

/-- Accepts a policy, or gives the first reason why not. -/
def validate (policy : HeightPolicy) : Except PolicyError Unit :=
  if !policy.hasValidHeight then .error (.maxHeight policy.maxHeight)
  else if !policy.hasValidProbability then .error (.probability policy.probability)
  else .ok ()

theorem validate_eq_ok_iff (policy : HeightPolicy) :
    policy.validate = .ok () ↔
      policy.hasValidHeight = true ∧ policy.hasValidProbability = true := by
  unfold validate
  cases policy.hasValidHeight <;> cases policy.hasValidProbability <;> simp

/-- Whether two policies are judged alike. -/
def judgedAlike (a b : HeightPolicy) : Bool :=
  match a.validate, b.validate with
  | .ok (), .ok () => true
  | .error e, .error f => e.equals f
  | _, _ => false

/-! ### The threshold -/

/-- The largest word of thirty-two bits, `2 ^ 32 - 1`. -/
def maxWord : Nat := 0xffffffff

/-- The words below the threshold promote.  It is `maxWord` times the probability, rounded as a
double and cut down to a whole number from zero to `maxWord`; zero for what is not a number. -/
def threshold (policy : HeightPolicy) : Nat :=
  let p := policy.probability
  if p.isNaN || p.isNegative then 0
  else min maxWord (Binary64.roundUnits (maxWord * p.magnitude) / Binary64.unitsOfOne)

/-! ### Drawing a height -/

variable {R : Type} [WordSource R]

/-- The number of leading words below the threshold, `room` of them at most. -/
def rises (threshold : Nat) : (room : Nat) → R → Nat × R
  | 0, source => (0, source)
  | room + 1, source =>
      let (word, source) := WordSource.next source
      if word.toNat < threshold then
        let (more, source) := rises threshold room source
        (more + 1, source)
      else (0, source)

/-- A height, and the source after it. -/
def drawHeight (policy : HeightPolicy) (source : R) : Nat × R :=
  let (more, source) := rises policy.threshold (policy.maxHeight - 1) source
  (more + 1, source)

theorem rises_le (threshold room : Nat) (source : R) : (rises threshold room source).1 ≤ room := by
  induction room generalizing source with
  | zero => simp [rises]
  | succ room ih =>
      simp only [rises]
      split
      · have := ih (WordSource.next source).2
        simp only [ge_iff_le]
        omega
      · simp

theorem drawHeight_bounds (policy : HeightPolicy) (source : R) (h : 1 ≤ policy.maxHeight) :
    1 ≤ (policy.drawHeight source).1 ∧ (policy.drawHeight source).1 ≤ policy.maxHeight := by
  have := rises_le policy.threshold (policy.maxHeight - 1) source
  simp only [drawHeight]
  omega

end HeightPolicy

/-! ### Texts

Messages show a probability in the plain layout, the forms for inspection in the labelled one. -/

/-- The message for a refused policy. -/
def PolicyError.message : PolicyError → String
  | .maxHeight height => s!"max height must be in 1..={maxLevels}, got {height}"
  | .probability p =>
      "promotion probability must be in [0, 1), got " ++ p.text Decimal.Layout.plain

/-- The inspected form of a reason: its kind, and in brackets what was refused. -/
def PolicyError.label : PolicyError → String
  | .maxHeight height => s!"MaxHeight({height})"
  | .probability p => "Probability(" ++ p.text Decimal.Layout.labelled ++ ")"

/-- The inspected form of a policy. -/
def HeightPolicy.label (policy : HeightPolicy) : String :=
  "Options \x7b max_height: " ++ toString policy.maxHeight ++ ", probability: "
    ++ policy.probability.text Decimal.Layout.labelled ++ " \x7d"

end IndexedSkipList
