/-
**Results one after the other, and two rows of them side by side.**

Whatever is done step by step gives a row of results that ends at the first fault.  To compare two
ways of doing the same is to compare their rows: they are as long, and each result of the one agrees
with that of the other in the same place.  If two ways agree at every step that starts from related
states, then their rows agree from beginning to end.

Several things of one kind can be done side by side, each going on from where it stands, and a
further one be begun where another one stands.  If single steps agree, then so do the steps of all
of them together.

Main definitions:

* `Succeeds` — the operation succeeds, and its result is related to a reference;
* `trace` — the results of operations made one after the other;
* `Simulates` — when two results agree;
* `Joint`, `jointly` — operations in one of several sessions.

Main results:

* `exists_of_forall₂`, `forall₂_comp`, `exists_map_ok` — rows side by side;
* `trace_simulates` — **what agrees step by step agrees from beginning to end**;
* `jointly_simulates` — what agrees in one session agrees in several.
-/

import IndexedSkipList.Fault
import Mathlib.Data.List.Forall2

set_option relaxedAutoImplicit false
set_option autoImplicit false

namespace IndexedSkipList

/-! ### Lists side by side -/

section SideBySide

variable {A B C : Type} {r : A → B → Prop} {s : B → C → Prop} {t : A → C → Prop}

theorem exists_of_forall₂ {as : List A} {bs : List B} (h : List.Forall₂ r as bs) {a : A}
    (ha : a ∈ as) : ∃ b ∈ bs, r a b := by
  induction h with
  | nil => cases ha
  | cons hab _ ih =>
      rcases List.mem_cons.1 ha with rfl | ha
      · exact ⟨_, List.mem_cons_self .., hab⟩
      · obtain ⟨b, hb, hr⟩ := ih ha
        exact ⟨b, List.mem_cons_of_mem _ hb, hr⟩

theorem forall₂_comp (hcomp : ∀ a b c, r a b → s b c → t a c) {as : List A} {bs : List B}
    {cs : List C} (h : List.Forall₂ r as bs) (h' : List.Forall₂ s bs cs) :
    List.Forall₂ t as cs := by
  induction h generalizing cs with
  | nil =>
      cases h'
      exact .nil
  | cons hab _ ih =>
      cases h' with
      | cons hbc hrest => exact .cons (hcomp _ _ _ hab hbc) (ih hrest)

/-- In the same place of both rows there is nothing, or what is there agrees. -/
theorem getElem?_of_forall₂ {as : List A} {bs : List B} (h : List.Forall₂ r as bs) (i : Nat) :
    (as[i]? = none ∧ bs[i]? = none) ∨ ∃ a b, as[i]? = some a ∧ bs[i]? = some b ∧ r a b := by
  induction h generalizing i with
  | nil => exact Or.inl ⟨rfl, rfl⟩
  | cons hab _ ih =>
      cases i with
      | zero => exact Or.inr ⟨_, _, rfl, rfl, hab⟩
      | succ i => exact ih i

theorem forall₂_set {as : List A} {bs : List B} (h : List.Forall₂ r as bs) {a : A} {b : B}
    (hab : r a b) (i : Nat) : List.Forall₂ r (as.set i a) (bs.set i b) := by
  induction h generalizing i with
  | nil => exact .nil
  | cons hfirst hrest ih =>
      cases i with
      | zero => exact .cons hab hrest
      | succ i => exact .cons hfirst (ih i)

/-- **The operation succeeds**, and its result is related to the reference. -/
def Succeeds (related : A → B → Prop) (result : Except Fault A) (reference : B) : Prop :=
  ∃ a, result = .ok a ∧ related a reference

/-- Operations that all succeed have results, and these are related to the references. -/
theorem exists_map_ok {results : List (Except Fault A)} {bs : List B}
    (h : List.Forall₂ (Succeeds r) results bs) :
    ∃ as, results = as.map .ok ∧ List.Forall₂ r as bs := by
  induction h with
  | nil => exact ⟨[], rfl, .nil⟩
  | cons hfirst _ ih =>
      obtain ⟨a, rfl, hp⟩ := hfirst
      obtain ⟨as, rfl, hrest⟩ := ih
      exact ⟨a :: as, rfl, .cons hp hrest⟩

end SideBySide

/-! ### Operations one after the other -/

section Tracing

variable {S S' A B : Type}

/-- The results of operations made one after the other, up to and including the first fault: what
each answers and the state after it. -/
def trace (step : S → A → Except Fault (B × S)) : S → List A → List (Except Fault (B × S))
  | _, [] => []
  | state, operation :: operations =>
      match step state operation with
      | .ok (answer, after) => .ok (answer, after) :: trace step after operations
      | .error fault => [.error fault]

/-- **Two operations agree**: both stop for the same reason, or both give the same answer and lead
to states that are related. -/
inductive Simulates (related : S → S' → Prop) :
    Except Fault (B × S) → Except Fault (B × S') → Prop where
  | stopped (fault : Fault) : Simulates related (.error fault) (.error fault)
  | answered {answer : B} {state : S} {state' : S'} :
      related state state' → Simulates related (.ok (answer, state)) (.ok (answer, state'))

/-- What is known of related states is known of the states after operations that agree. -/
theorem Simulates.mono {related related' : S → S' → Prop}
    (himp : ∀ state state', related state state' → related' state state')
    {result : Except Fault (B × S)} {result' : Except Fault (B × S')}
    (h : Simulates related result result') : Simulates related' result result' := by
  cases h with
  | stopped fault => exact .stopped fault
  | answered hafter => exact .answered (himp _ _ hafter)

/-- If operations agree whenever the states before them are related, then whole sequences of them
agree, result by result. -/
theorem trace_simulates {related : S → S' → Prop} {step : S → A → Except Fault (B × S)}
    {step' : S' → A → Except Fault (B × S')}
    (hstep : ∀ state state' operation, related state state' →
      Simulates related (step state operation) (step' state' operation))
    {state : S} {state' : S'} (h : related state state') (operations : List A) :
    List.Forall₂ (Simulates related) (trace step state operations)
      (trace step' state' operations) := by
  induction operations generalizing state state' with
  | nil => exact .nil
  | cons operation operations ih =>
      have hfirst := hstep state state' operation h
      unfold trace
      cases hresult : step state operation with
      | error fault =>
          cases hresult' : step' state' operation with
          | error fault' =>
              rw [hresult, hresult'] at hfirst
              exact .cons hfirst .nil
          | ok result' =>
              rw [hresult, hresult'] at hfirst
              cases hfirst
      | ok result =>
          cases hresult' : step' state' operation with
          | error fault' =>
              rw [hresult, hresult'] at hfirst
              cases hfirst
          | ok result' =>
              rw [hresult, hresult'] at hfirst
              cases hfirst with
              | answered hafter => exact .cons (.answered hafter) (ih hafter)

/-- A fault is the last result. -/
theorem getLast?_trace_of_error {step : S → A → Except Fault (B × S)} {state : S} {operation : A}
    {fault : Fault} (h : step state operation = .error fault) (operations : List A) :
    (trace step state (operation :: operations)).getLast? = some (.error fault) := by
  rw [trace, h]
  rfl

/-- If an operation is given, the last result is that of the operations after it. -/
theorem getLast?_trace_of_ok {step : S → A → Except Fault (B × S)} {state after : S}
    {operation : A} {answer : B} (h : step state operation = .ok (answer, after))
    {operations : List A} {last : Except Fault (B × S)}
    (hlast : (trace step after operations).getLast? = some last) :
    (trace step state (operation :: operations)).getLast? = some last := by
  simp only [trace, h, List.getLast?_cons, hlast, Option.getD_some]

/-- A fault among the results is that of some operation. -/
theorem exists_of_mem_trace {step : S → A → Except Fault (B × S)} {state : S} {fault : Fault}
    {operations : List A} (h : .error fault ∈ trace step state operations) :
    ∃ state operation, step state operation = .error fault := by
  induction operations generalizing state with
  | nil => cases h
  | cons operation operations ih =>
      unfold trace at h
      cases hresult : step state operation with
      | error fault' =>
          rw [hresult] at h
          obtain rfl : fault = fault' := by simpa using h
          exact ⟨state, operation, hresult⟩
      | ok result =>
          rw [hresult] at h
          exact ih (by simpa using h)

end Tracing

/-! ### Several sessions side by side -/

section Jointly

variable {S S' A B : Type}

/-- What is done in several sessions: an operation in one of them, or a further session begun where
one of them stands. -/
inductive Joint (A : Type) where
  | within (which : Nat) (operation : A)
  | fork (which : Nat)

/-- Does something in several sessions; those that it does not name stay where they are.  The answer
is `idle` where no operation is made. -/
def jointly (step : S → A → Except Fault (B × S)) (fork : S → S) (idle : B) (states : List S) :
    Joint A → Except Fault (B × List S)
  | .within which operation =>
      match states[which]? with
      | none => .ok (idle, states)
      | some state => do
          let (answer, after) ← step state operation
          pure (answer, states.set which after)
  | .fork which =>
      match states[which]? with
      | none => .ok (idle, states)
      | some state => .ok (idle, states ++ [fork state])

/-- **If operations agree in one session, then they agree in several.** -/
theorem jointly_simulates {related : S → S' → Prop} {step : S → A → Except Fault (B × S)}
    {step' : S' → A → Except Fault (B × S')} {fork : S → S} {fork' : S' → S'} (idle : B)
    (hstep : ∀ state state' operation, related state state' →
      Simulates related (step state operation) (step' state' operation))
    (hfork : ∀ state state', related state state' → related (fork state) (fork' state'))
    (states : List S) (states' : List S') (operation : Joint A)
    (h : List.Forall₂ related states states') :
    Simulates (List.Forall₂ related) (jointly step fork idle states operation)
      (jointly step' fork' idle states' operation) := by
  cases operation with
  | within which operation =>
      rcases getElem?_of_forall₂ h which with ⟨hnone, hnone'⟩ | ⟨state, state', hat, hat', hrelated⟩
      · simp only [jointly, hnone, hnone']
        exact .answered h
      · have hone := hstep state state' operation hrelated
        simp only [jointly, hat, hat']
        generalize step state operation = result at hone ⊢
        generalize step' state' operation = result' at hone ⊢
        cases hone with
        | stopped fault => exact .stopped fault
        | answered hafter => exact .answered (forall₂_set h hafter which)
  | fork which =>
      rcases getElem?_of_forall₂ h which with ⟨hnone, hnone'⟩ | ⟨state, state', hat, hat', hrelated⟩
      · simp only [jointly, hnone, hnone']
        exact .answered h
      · simp only [jointly, hat, hat']
        exact .answered (List.rel_append h (.cons (hfork state state' hrelated) .nil))

end Jointly

end IndexedSkipList
