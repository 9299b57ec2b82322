/-
**Building a list from settings.**

A list is built with any list of choices, or else the first reason against it is given; there is no
third outcome.  Which of the two it is depends on the choices that count, the last ceiling and the
last probability: the ceiling must lie between 1 and 64, so that the head has a link on every level
that a node can reach, and the probability must denote a number from zero to below one.  The bits of
the probability are kept as they are, in the list as well as in the reason, so that zero under a
negative sign is still told apart and so are the patterns of what is no number.

Main definitions:

* `SkipList.BuiltWith` — the list that is built;
* `SkipList.Constructs` — what becomes of a list of choices.

Main results:

* `SkipList.constructs` — **every list of choices is accepted or refused as specified**.
-/

import IndexedSkipList.Proofs.HeightPolicy
import IndexedSkipList.Proofs.SkipList.Iteration

set_option relaxedAutoImplicit false
set_option autoImplicit false

namespace IndexedSkipList

open HeightPolicy

namespace SkipList

variable {K V R : Type}

/-- **The list that is built**, of a ceiling, a probability and a source: it has no entries, reports
both, and its head has a link on every level up to the ceiling, none of which leads anywhere. -/
structure BuiltWith (list : SkipList K V R) (maxHeight : Nat) (probability : Binary64)
    (source : R) : Prop where
  entries_eq : list.entries = .ok []
  size_eq : list.size = 0
  isEmpty : list.isEmpty = true
  height_eq : list.height = 0
  policy_eq : list.policy = ⟨maxHeight, probability⟩
  head_size : list.lanes.head.size = maxHeight
  head_link : ∀ level < maxHeight, list.lanes.link .head level = .ok {}
  pool_eq : list.lanes.pool = {}
  source_eq : list.source = source

/-- **What becomes of a list of choices**: a list of the choices that count, or the reason why there
is none. -/
structure Constructs (K V : Type) (settings : List Setting) (source : R) : Prop where
  /-- Which choices are accepted, -/
  accepts_iff :
    (∃ built : Outcome (SkipList K V R) Unit, ofPolicy (.ofSettings settings) source = .ok built) ↔
      (1 ≤ askedHeight settings ∧ askedHeight settings ≤ 64) ∧
        (askedProbability settings).IsProbability
  /-- and how the bits tell it. -/
  probability_iff : (askedProbability settings).IsProbability ↔
    (askedProbability settings).bits.toNat < 0x3ff0000000000000 ∨
      (askedProbability settings).bits.toNat = 0x8000000000000000
  /-- What is built of them, and reported. -/
  builds : ∀ built : Outcome (SkipList K V R) Unit,
    ofPolicy (.ofSettings settings) source = .ok built →
      built.after.BuiltWith (askedHeight settings) (askedProbability settings) source ∧
        built.events = [.built ⟨askedHeight settings, askedProbability settings⟩]
  /-- A ceiling out of bounds is the reason, whatever the probability is; -/
  refuses_maxHeight : ¬ (1 ≤ askedHeight settings ∧ askedHeight settings ≤ 64) →
    (ofPolicy (.ofSettings settings) source : Except PolicyError (Outcome (SkipList K V R) Unit)) =
      .error (.maxHeight (askedHeight settings))
  /-- otherwise it is the probability. -/
  refuses_probability : (1 ≤ askedHeight settings ∧ askedHeight settings ≤ 64) →
    ¬ (askedProbability settings).IsProbability →
    (ofPolicy (.ofSettings settings) source : Except PolicyError (Outcome (SkipList K V R) Unit)) =
      .error (.probability (askedProbability settings))

section OfPolicy

variable {policy : HeightPolicy} {source : R}

theorem ofPolicy_of_ok (h : policy.validate = .ok ()) :
    ofPolicy (K := K) (V := V) policy source =
      .ok { answer := (), after := blank policy source, events := [.built policy] } := by
  rw [ofPolicy, h]
  rfl

theorem ofPolicy_of_error {reason : PolicyError} (h : policy.validate = .error reason) :
    ofPolicy (K := K) (V := V) policy source = .error reason := by
  rw [ofPolicy, h]
  rfl

/-- A list is built exactly of the policies that are accepted. -/
theorem ofPolicy_eq_ok_iff {built : Outcome (SkipList K V R) Unit} :
    ofPolicy policy source = .ok built ↔ policy.validate = .ok () ∧
      built = { answer := (), after := blank policy source, events := [.built policy] } := by
  cases h : policy.validate with
  | ok => simp [ofPolicy_of_ok h, eq_comm]
  | error reason => simp [ofPolicy_of_error h]

/-- An empty list of an accepted policy is as it should be built. -/
theorem builtWith_blank (h : policy.validate = .ok ()) :
    (blank policy source : SkipList K V R).BuiltWith policy.maxHeight policy.probability source :=
  have hholds : (blank policy source : SkipList K V R).Holds [] [] := holds_blank h source
  { entries_eq := hholds.entries_eq
    size_eq := rfl
    isEmpty := rfl
    height_eq := rfl
    policy_eq := rfl
    head_size := hholds.head_size
    head_link := fun _ hlevel => Tower.link_blank hlevel
    pool_eq := rfl
    source_eq := rfl }

end OfPolicy

/-- **Every list of choices is accepted or refused as specified.** -/
theorem constructs (settings : List Setting) (source : R) : Constructs K V settings source where
  accepts_iff := by
    rw [ofSettings_eq]
    simp only [ofPolicy_eq_ok_iff, exists_and_left, exists_eq, and_true]
    exact validate_ok
  probability_iff := Binary64.isProbability_iff
  builds := by
    rw [ofSettings_eq]
    intro built hbuilt
    obtain ⟨haccepted, rfl⟩ := ofPolicy_eq_ok_iff.1 hbuilt
    exact ⟨builtWith_blank haccepted, rfl⟩
  refuses_maxHeight := by
    rw [ofSettings_eq]
    exact fun h => ofPolicy_of_error (validate_maxHeight h)
  refuses_probability := by
    rw [ofSettings_eq]
    exact fun h h' => ofPolicy_of_error (validate_probability h h')

end SkipList

end IndexedSkipList
