/-
**Pairs collected into a dictionary.**

When pairs are set one after the other, a key keeps the spelling in which it came first, and has the
value with which it came last.  So what becomes of pairs can be told without setting them: they are
sorted, and of those that are equal in their keys the key of the first and the value of the last
are kept.  No two lists of entries are told so of the same pairs.

If no two of the pairs are equal in their keys, the entries are just the pairs, and it does not
matter in which order they come.

Main definitions:

* `Dictionary.Distinct` — no two pairs are equal in their keys;
* `Dictionary.Collects` — the entries are those of some pairs, sorted and without repetitions.

Main results:

* `Dictionary.fst_find?_insertAll`, `Dictionary.snd_find?_insertAll` — the spelling and the value
  that are found after pairs were set;
* `Dictionary.collects_insertAll` — **setting pairs collects them**;
* `Dictionary.Collects.exists_entry` — no key is lost;
* `Dictionary.Collects.unique`, `Dictionary.Collects.eq_of_perm` — **what is collected does not
  depend on anything else**, and for distinct keys not on the order either.
-/

import IndexedSkipList.Proofs.Key.Dictionary
import Mathlib.Data.List.Pairwise
import Mathlib.Data.List.Perm.Basic

set_option relaxedAutoImplicit false
set_option autoImplicit false

namespace IndexedSkipList

variable {K V : Type} [Ord K]

/-- Keys that are equal in the order are met by the same keys. -/
theorem Target.of_congr [Std.TransOrd K] {key other : K} (h : compare key other = .eq) :
    Target.of key = Target.of other := by
  funext stored
  exact Std.TransCmp.congr_right h

namespace Dictionary

section Finding

variable {pairs : List (K × V)} {pair : K × V} {key : K}

/-- What is found under a key is one of the pairs, and meets the key. -/
theorem mem_of_find? (h : find? pairs (.of key) = some pair) :
    pair ∈ pairs ∧ compare pair.1 key = .eq := by
  constructor
  · exact List.mem_of_find?_eq_some h
  · unfold find? at h
    have hmet := List.find?_some h
    exact of_decide_eq_true hmet

/-- Something is found under a key that one of the pairs meets. -/
theorem exists_find? (hpair : pair ∈ pairs) (hmet : compare pair.1 key = .eq) :
    ∃ found, find? pairs (.of key) = some found := by
  cases hfind : find? pairs (.of key) with
  | some found => exact ⟨found, rfl⟩
  | none =>
      have hunmet := List.find?_eq_none.1 hfind pair hpair
      exact absurd (decide_eq_true hmet) hunmet

end Finding

/-! ### Distinct keys -/

/-- **No two of the pairs are equal in their keys.** -/
def Distinct (pairs : List (K × V)) : Prop := pairs.Pairwise fun a b => compare a.1 b.1 ≠ .eq

theorem Sorted.distinct {entries : List (K × V)} (h : Sorted entries) : Distinct entries := by
  refine List.Pairwise.imp ?_ h
  intro a b hlt heq
  rw [hlt] at heq
  cases heq

section Distinct

variable [Std.TransOrd K] {pairs pairs' : List (K × V)}

theorem Distinct.perm (h : Distinct pairs) (hperm : pairs.Perm pairs') : Distinct pairs' :=
  hperm.pairwise h fun hne heq => hne (Std.OrientedCmp.eq_symm heq)

theorem Distinct.nodup (h : Distinct pairs) : pairs.Nodup := by
  refine List.Pairwise.imp ?_ h
  rintro a b hne rfl
  exact hne Std.ReflCmp.compare_self

/-- Pairs with equal keys are the same pair. -/
theorem Distinct.eq_of_compare_eq (h : Distinct pairs) {a b : K × V} (ha : a ∈ pairs)
    (hb : b ∈ pairs) (heq : compare a.1 b.1 = .eq) : a = b := by
  by_contra hne
  have hsymm : Std.Symm fun x y : K × V => compare x.1 y.1 ≠ .eq :=
    ⟨fun x y hxy hyx => hxy (Std.OrientedCmp.eq_symm hyx)⟩
  exact List.Pairwise.forall h ha hb hne heq

/-- **A pair is found under its key**, and nothing else is. -/
theorem Distinct.mem_iff (h : Distinct pairs) (pair : K × V) :
    pair ∈ pairs ↔ find? pairs (.of pair.1) = some pair := by
  constructor
  · intro hpair
    obtain ⟨found, hfind⟩ := exists_find? hpair Std.ReflCmp.compare_self
    obtain ⟨hfound, hmet⟩ := mem_of_find? hfind
    rw [hfind, h.eq_of_compare_eq hfound hpair hmet]
  · intro hfind
    exact (mem_of_find? hfind).1

end Distinct

/-! ### What is found after pairs were set -/

variable [Std.TransOrd K]

omit [Std.TransOrd K] in
/-- Setting pairs makes at most as many entries more. -/
theorem length_insertAll_le (entries pairs : List (K × V)) :
    (insertAll entries pairs).length ≤ entries.length + pairs.length := by
  induction pairs generalizing entries with
  | nil => exact Nat.le_refl _
  | cons pair pairs ih =>
      have hrest := ih (insert entries pair.1 pair.2)
      have hone : (insert entries pair.1 pair.2).length ≤ entries.length + 1 := by
        rw [length_insert]
        split <;> omega
      rw [List.length_cons]
      exact hrest.trans (by omega)

/-- **A key keeps the spelling in which it came first.** -/
theorem fst_find?_insertAll (entries pairs : List (K × V)) (key : K) :
    (find? (insertAll entries pairs) (.of key)).map Prod.fst =
      ((find? entries (.of key)).or (find? pairs (.of key))).map Prod.fst := by
  induction pairs generalizing entries with
  | nil => simp [insertAll, find?]
  | cons pair pairs ih =>
      obtain ⟨newKey, value⟩ := pair
      rw [insertAll_cons, ih]
      by_cases hsame : compare newKey key = .eq
      · have hpairs : find? ((newKey, value) :: pairs) (.of key) = some (newKey, value) := by
          simp [find?, Target.of, hsame]
        rw [hpairs, ← Target.of_congr hsame, find?_insert_self]
        cases find? entries (.of newKey) <;> rfl
      · have hpairs : find? ((newKey, value) :: pairs) (.of key) = find? pairs (.of key) := by
          simp [find?, Target.of, hsame]
        rw [hpairs, find?_insert_other entries value hsame]

/-- **A key has the value with which it came last.** -/
theorem snd_find?_insertAll (entries pairs : List (K × V)) (key : K) :
    (find? (insertAll entries pairs) (.of key)).map Prod.snd =
      ((find? pairs.reverse (.of key)).or (find? entries (.of key))).map Prod.snd := by
  induction pairs generalizing entries with
  | nil => simp [insertAll, find?]
  | cons pair pairs ih =>
      obtain ⟨newKey, value⟩ := pair
      rw [insertAll_cons, ih]
      have hreverse : find? ((newKey, value) :: pairs).reverse (.of key) =
          (find? pairs.reverse (.of key)).or (find? [(newKey, value)] (.of key)) := by
        rw [List.reverse_cons, find?, List.find?_append]
        rfl
      rw [hreverse, Option.or_assoc]
      by_cases hsame : compare newKey key = .eq
      · have hone : find? [(newKey, value)] (.of key) = some (newKey, value) := by
          simp [find?, Target.of, hsame]
        rw [hone, ← Target.of_congr hsame, find?_insert_self]
        cases find? pairs.reverse (.of newKey) <;> rfl
      · have hone : find? [(newKey, value)] (.of key) = none := by
          simp [find?, Target.of, hsame]
        rw [hone, find?_insert_other entries value hsame, Option.none_or]

/-! ### Collecting pairs -/

/-- **The entries are those of some pairs, sorted and without repetitions**: each of their keys
stands once, in the spelling in which it comes first and with the value with which it comes
last. -/
structure Collects (pairs entries : List (K × V)) : Prop where
  sorted : Sorted entries
  mem_iff : ∀ key value, (key, value) ∈ entries ↔
    (find? pairs (.of key)).map Prod.fst = some key ∧
      (find? pairs.reverse (.of key)).map Prod.snd = some value

/-- **Setting pairs collects them.** -/
theorem collects_insertAll (pairs : List (K × V)) : Collects pairs (insertAll [] pairs) := by
  have hsorted : Sorted (insertAll [] pairs) := sorted_insertAll List.Pairwise.nil pairs
  refine ⟨hsorted, fun key value => ?_⟩
  have hfst := fst_find?_insertAll [] pairs key
  have hsnd := snd_find?_insertAll [] pairs key
  have hempty : find? ([] : List (K × V)) (.of key) = none := rfl
  rw [hempty, Option.none_or] at hfst
  rw [hempty, Option.or_none] at hsnd
  rw [hsorted.distinct.mem_iff, ← hfst, ← hsnd]
  cases find? (insertAll [] pairs) (.of key) with
  | none => simp
  | some entry => simp [Prod.ext_iff]

namespace Collects

variable {pairs pairs' entries entries' : List (K × V)}

/-- Sorted entries are decided by what is among them. -/
theorem eq_of_mem_iff (h : Collects pairs entries) (h' : Collects pairs' entries')
    (hmem : ∀ entry, entry ∈ entries ↔ entry ∈ entries') : entries = entries' := by
  have hperm : entries.Perm entries' :=
    (List.perm_ext_iff_of_nodup h.sorted.distinct.nodup h'.sorted.distinct.nodup).2 hmem
  refine hperm.eq_of_pairwise ?_ h.sorted h'.sorted
  intro a b _ _ hlt hgt
  rw [Std.OrientedCmp.gt_of_lt hgt] at hlt
  cases hlt

/-- **The pairs decide the entries.** -/
theorem unique (h : Collects pairs entries) (h' : Collects pairs entries') :
    entries = entries' := by
  refine h.eq_of_mem_iff h' fun entry => ?_
  rw [h.mem_iff, h'.mem_iff]

/-- Every pair has an entry with an equal key. -/
theorem exists_entry (h : Collects pairs entries) {pair : K × V} (hpair : pair ∈ pairs) :
    ∃ entry ∈ entries, compare entry.1 pair.1 = .eq := by
  obtain ⟨first, hfirst⟩ := exists_find? hpair Std.ReflCmp.compare_self
  obtain ⟨last, hlast⟩ := exists_find? (List.mem_reverse.2 hpair) Std.ReflCmp.compare_self
  obtain ⟨_, hmet⟩ := mem_of_find? hfirst
  refine ⟨(first.1, last.2), (h.mem_iff _ _).2 ?_, hmet⟩
  rw [Target.of_congr hmet, hfirst, hlast]
  exact ⟨rfl, rfl⟩

/-- **Distinct pairs are collected as they are.** -/
theorem mem_iff_of_distinct (h : Collects pairs entries) (hdistinct : Distinct pairs)
    (entry : K × V) : entry ∈ entries ↔ entry ∈ pairs := by
  have hreverse : Distinct pairs.reverse := hdistinct.perm (List.reverse_perm pairs).symm
  rw [h.mem_iff]
  constructor
  · rintro ⟨hfst, hsnd⟩
    obtain ⟨first, hfirst, hkey⟩ := Option.map_eq_some_iff.1 hfst
    obtain ⟨last, hlast, hvalue⟩ := Option.map_eq_some_iff.1 hsnd
    obtain ⟨hfirstmem, _⟩ := mem_of_find? hfirst
    obtain ⟨hlastmem, hmet⟩ := mem_of_find? hlast
    rw [← hkey] at hmet
    obtain rfl : last = first :=
      hdistinct.eq_of_compare_eq (List.mem_reverse.1 hlastmem) hfirstmem hmet
    obtain rfl : last = entry := Prod.ext hkey hvalue
    exact hfirstmem
  · intro hentry
    rw [(hdistinct.mem_iff entry).1 hentry,
      (hreverse.mem_iff entry).1 (List.mem_reverse.2 hentry)]
    exact ⟨rfl, rfl⟩

/-- **Distinct pairs are collected in whatever order they come.** -/
theorem eq_of_perm (h : Collects pairs entries) (h' : Collects pairs' entries')
    (hdistinct : Distinct pairs) (hperm : pairs.Perm pairs') : entries = entries' := by
  refine h.eq_of_mem_iff h' fun entry => ?_
  rw [h.mem_iff_of_distinct hdistinct, h'.mem_iff_of_distinct (hdistinct.perm hperm),
    hperm.mem_iff]

end Collects

end Dictionary

end IndexedSkipList
