/-
**The faults that stop an operation, and arithmetic that faults.**

Every operation of the library that follows links, reads a tower at a level or moves a counter is
total as a function into `Except Fault`: what a caller may not do, and what a broken structure would
make it do, is an answer like any other, with a cause.  The faults of a pool of nodes
(`Fault.dangling`, `Fault.doubleFree`, `Fault.outOfBounds`) can be brought about by a caller who
keeps a stale id; a skip list that was built by its own operations brings about none of them.

Counters are natural numbers, kept below `2 ^ 64` by `Counter.add` and above zero by `Counter.sub`,
which fault instead of wrapping.

Main definitions:

* `Fault` — why an operation stopped;
* `Fault.message` — the text shown for it;
* `Counter.add`, `Counter.sub` — addition and subtraction of counters.

Main results:

* `Fault.mapM_eq_ok` — a question asked many times succeeds if each time it does;
* `Counter.add_eq_ok`, `Counter.sub_eq_ok` — when they succeed, and with what.
-/

set_option relaxedAutoImplicit false
set_option autoImplicit false

namespace IndexedSkipList

/-! ### Faults -/

/-- Why an operation stopped. -/
inductive Fault where
  /-- A place `index` was asked for in a row of `size` places. -/
  | outOfBounds (size index : Nat)
  /-- A link or an id leads to a slot that holds no node. -/
  | dangling (slot : Nat)
  /-- A slot that holds no node was released. -/
  | doubleFree (slot : Nat)
  /-- The list of vacant slots leads to a slot that holds a node. -/
  | liveOnFreeList
  /-- Every slot that an id can name is taken. -/
  | poolFull
  /-- A sum does not fit a counter. -/
  | overflow
  /-- A counter would fall below zero. -/
  | underflow
  /-- A walk made more moves than there are nodes, so its links form a cycle. -/
  | endless
  deriving DecidableEq

/-- The text shown for a fault. -/
def Fault.message : Fault → String
  | .outOfBounds size index => s!"index out of bounds: the len is {size} but the index is {index}"
  | .dangling slot =>
      s!"internal error: entered unreachable code: dangling link to arena slot {slot}"
  | .doubleFree slot =>
      s!"internal error: entered unreachable code: double free of arena slot {slot}"
  | .liveOnFreeList =>
      "internal error: entered unreachable code: free list points at a live node"
  | .poolFull => "skip map arena is limited to 4294967295 nodes"
  | .overflow => "attempt to add with overflow"
  | .underflow => "attempt to subtract with overflow"
  | .endless => "the links of a level form a cycle"

/-! ### Operations that succeed -/

namespace Fault

variable {A B : Type}

/-- After an operation that succeeds, the next one works on its result. -/
@[simp] theorem ok_bind (a : A) (next : A → Except Fault B) : (Except.ok a >>= next) = next a := rfl

@[simp] theorem pure_eq_ok (a : A) : (pure a : Except Fault A) = .ok a := rfl

/-- An operation that succeeds and then another one that does succeed together. -/
theorem exists_bind_ok {x : Except Fault A} {next : A → Except Fault B} (h : ∃ a, x = .ok a)
    (hnext : ∀ a, ∃ b, next a = .ok b) : ∃ b, (x >>= next) = .ok b := by
  obtain ⟨a, rfl⟩ := h
  exact hnext a

/-- Two operations one after the other succeed only if both do. -/
theorem bind_eq_ok_iff {x : Except Fault A} {next : A → Except Fault B} {b : B} :
    (x >>= next) = .ok b ↔ ∃ a, x = .ok a ∧ next a = .ok b := by
  constructor
  · intro h
    cases x with
    | error fault => cases h
    | ok a => exact ⟨a, rfl, h⟩
  · rintro ⟨a, rfl, h⟩
    exact h

/-- Two operations one after the other do not stop at a fault that neither of them stops at. -/
theorem bind_ne_error {x : Except Fault A} {next : A → Except Fault B} {fault : Fault}
    (h : x ≠ .error fault) (hnext : ∀ a, next a ≠ .error fault) : (x >>= next) ≠ .error fault := by
  cases x with
  | error other => exact fun he => h (congrArg Except.error (Except.error.inj he))
  | ok a => exact hnext a

/-- Asking about several things succeeds if asking about each of them does. -/
theorem mapM_eq_ok {f : A → Except Fault B} {g : A → B} {as : List A}
    (h : ∀ a ∈ as, f a = .ok (g a)) : as.mapM f = .ok (as.map g) := by
  induction as with
  | nil => rfl
  | cons a as ih =>
      have hrest := ih fun b hb => h b (List.mem_cons_of_mem _ hb)
      simp [List.mapM_cons, h a (List.mem_cons_self ..), hrest]

/-- The same if it is not told what the answers are. -/
theorem exists_mapM_ok {f : A → Except Fault B} {as : List A}
    (h : ∀ a ∈ as, ∃ b, f a = .ok b) : ∃ bs, as.mapM f = .ok bs := by
  induction as with
  | nil => exact ⟨[], rfl⟩
  | cons a as ih =>
      obtain ⟨b, hb⟩ := h a (List.mem_cons_self ..)
      obtain ⟨bs, hbs⟩ := ih fun c hc => h c (List.mem_cons_of_mem _ hc)
      exact ⟨b :: bs, by simp [List.mapM_cons, hb, hbs]⟩

end Fault

/-! ### Counters -/

namespace Counter

/-- The first number that a counter cannot hold, `2 ^ 64`. -/
def bound : Nat := 0x10000000000000000

/-- The sum of two counters, if a counter can hold it. -/
def add (a b : Nat) : Except Fault Nat :=
  if a + b < bound then .ok (a + b) else .error .overflow

/-- The difference of two counters, if it is not negative. -/
def sub (a b : Nat) : Except Fault Nat :=
  if b ≤ a then .ok (a - b) else .error .underflow

theorem add_eq_ok {a b : Nat} (h : a + b < bound) : add a b = .ok (a + b) := by
  simp [add, h]

theorem sub_eq_ok {a b : Nat} (h : b ≤ a) : sub a b = .ok (a - b) := by
  simp [sub, h]

theorem add_eq_ok_iff {a b c : Nat} : add a b = .ok c ↔ a + b < bound ∧ a + b = c := by
  unfold add
  split
  · simp [*]
  · simp only [reduceCtorEq, false_iff]
    omega

end Counter

end IndexedSkipList
