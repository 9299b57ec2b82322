/-
**A dictionary is a list of entries sorted by their keys.**

This is the reference that indexed skip lists are measured by.  There are no nodes here and no
lanes: an entry is found by going through the list, its place is its place in the list, a new entry
is put in behind the entries with lower keys, and an entry is taken out by leaving it out.  A key
that is present keeps its spelling when a value is set under another spelling of it.

Main definitions:

* `Dictionary.Sorted` — the entries are in strictly ascending order of their keys;
* `Dictionary.find?`, `Dictionary.get?`, `Dictionary.contains`, `Dictionary.rank`,
  `Dictionary.select` — questions;
* `Dictionary.write`, `Dictionary.insert`, `Dictionary.insertAll`, `Dictionary.erase`,
  `Dictionary.eraseAll` — changes.

Main results:

* `Dictionary.sorted_write`, `Dictionary.sorted_insert`, `Dictionary.sorted_erase` — **changes keep
  the entries sorted**;
* `Dictionary.length_le_insertAll` — setting entries takes none away;
* `Dictionary.find?_insert_self`, `Dictionary.find?_insert_other` — **what is found after a value
  was set**;
* `Dictionary.rank_of_met`, `Dictionary.exists_of_rank` — ranks are places.
-/

import IndexedSkipList.Proofs.Key.Division
import Mathlib.Data.List.TakeWhile

set_option relaxedAutoImplicit false
set_option autoImplicit false

namespace IndexedSkipList

namespace Dictionary

variable {K V : Type}

/-! ### Questions -/

/-- The entry whose key meets the target. -/
def find? (entries : List (K × V)) (target : Target K) : Option (K × V) :=
  entries.find? fun entry => target entry.1 = .eq

/-- The value whose key meets the target. -/
def get? (entries : List (K × V)) (target : Target K) : Option V :=
  (find? entries target).map Prod.snd

/-- Some key meets the target. -/
def contains (entries : List (K × V)) (target : Target K) : Bool := (find? entries target).isSome

/-- The place of the entry whose key meets the target, counted from one; zero if there is none. -/
def rank (entries : List (K × V)) (target : Target K) : Nat :=
  (entries.findIdx? fun entry => target entry.1 = .eq).elim 0 (· + 1)

/-- The entry at a place, counted from one. -/
def select (entries : List (K × V)) (place : Nat) : Option (K × V) :=
  if place = 0 then none else entries[place - 1]?

/-! ### Changes -/

/-- The entries with another value under a target; the key stays as it is. -/
def write (entries : List (K × V)) (target : Target K) (value : V) : List (K × V) :=
  changeIn (fun entry => target entry.1) (fun entry => (entry.1, value)) entries

/-- The entries without the one under a target. -/
def erase (entries : List (K × V)) (target : Target K) : List (K × V) :=
  dropFrom (fun entry => target entry.1) entries

/-- The entries without those under some targets. -/
def eraseAll (entries : List (K × V)) (targets : List (Target K)) : List (K × V) :=
  targets.foldl erase entries

/-- The entries with the value of a key set: the key is present already, or a new entry is put in
behind those with lower keys. -/
def insert [Ord K] (entries : List (K × V)) (key : K) (value : V) : List (K × V) :=
  if contains entries (.of key) then write entries (.of key) value
  else placeIn (fun entry => compare entry.1 key) (key, value) entries

/-- The entries with some values set, in order. -/
def insertAll [Ord K] (entries new : List (K × V)) : List (K × V) :=
  new.foldl (fun entries (key, value) => insert entries key value) entries

@[simp] theorem insertAll_cons [Ord K] (entries : List (K × V)) (key : K) (value : V)
    (new : List (K × V)) :
    insertAll entries ((key, value) :: new) = insertAll (insert entries key value) new := rfl

/-- Keys stay as they are when a value is written. -/
theorem map_fst_write (entries : List (K × V)) (target : Target K) (value : V) :
    (write entries target value).map Prod.fst = entries.map Prod.fst := by
  rw [write, changeIn, List.map_map]
  refine List.map_congr_left fun entry _ => ?_
  simp only [Function.comp_apply]
  split <;> rfl

/-! ### How many entries there are -/

@[simp] theorem length_write (entries : List (K × V)) (target : Target K) (value : V) :
    (write entries target value).length = entries.length := length_changeIn ..

variable [Ord K]

/-- A new key is one entry more; a key that is present is none. -/
theorem length_insert (entries : List (K × V)) (key : K) (value : V) :
    (insert entries key value).length =
      entries.length + if contains entries (.of key) then 0 else 1 := by
  unfold insert
  split <;> simp

theorem length_le_insert (entries : List (K × V)) (key : K) (value : V) :
    entries.length ≤ (insert entries key value).length := by
  rw [length_insert]
  exact Nat.le_add_right _ _

/-- Setting entries takes none away. -/
theorem length_le_insertAll (entries new : List (K × V)) :
    entries.length ≤ (insertAll entries new).length := by
  induction new generalizing entries with
  | nil => exact Nat.le_refl _
  | cons entry new ih => exact Nat.le_trans (length_le_insert entries entry.1 entry.2) (ih _)

/-! ### Sorted entries -/

/-- **The entries are in strictly ascending order of their keys.** -/
def Sorted (entries : List (K × V)) : Prop :=
  entries.Pairwise fun a b => compare a.1 b.1 = .lt

theorem sorted_iff_keys {entries : List (K × V)} :
    Sorted entries ↔ (entries.map Prod.fst).Pairwise fun a b => compare a b = .lt := by
  rw [Sorted, List.pairwise_map]

theorem sorted_write {entries : List (K × V)} (h : Sorted entries) (target : Target K) (value : V) :
    Sorted (write entries target value) := by
  rw [sorted_iff_keys, map_fst_write]
  exact sorted_iff_keys.1 h

theorem sorted_erase {entries : List (K × V)} (h : Sorted entries) (target : Target K) :
    Sorted (erase entries target) := List.Pairwise.filter _ h

/-- **A sorted list of entries stays sorted when a value is set.** -/
theorem sorted_insert [Std.TransOrd K] {entries : List (K × V)} (h : Sorted entries) (key : K)
    (value : V) : Sorted (insert entries key value) := by
  rcases exists_parted (Target.agrees_of key) h with
    ⟨behind, ahead, rfl, hparted⟩ | ⟨behind, met, ahead, rfl, hmet, hparted⟩
  · have habsent : contains (behind ++ ahead) (.of key) = false := by
      rw [contains, find?, hparted.find?_absent]
      rfl
    rw [insert, habsent]
    exact (hparted.placeIn_eq (key, value)).symm ▸ hparted.pairwise_middle Prod.fst h
  · have hpresent : contains (behind ++ met :: ahead) (.of key) = true := by
      rw [contains, find?, hparted.find?_present hmet]
      rfl
    rw [insert, if_pos hpresent]
    exact sorted_write h _ value

theorem sorted_insertAll [Std.TransOrd K] {entries : List (K × V)} (h : Sorted entries)
    (new : List (K × V)) : Sorted (insertAll entries new) := by
  induction new generalizing entries with
  | nil => exact h
  | cons entry new ih => exact ih (sorted_insert h entry.1 entry.2)

theorem sorted_eraseAll {entries : List (K × V)} (h : Sorted entries)
    (targets : List (Target K)) : Sorted (eraseAll entries targets) := by
  induction targets generalizing entries with
  | nil => exact h
  | cons target targets ih => exact ih (sorted_erase h target)

/-! ### What is found after a change -/

omit [Ord K] in
/-- Writing a value changes what is found under the target, and keeps the key. -/
theorem find?_write (entries : List (K × V)) (target : Target K) (value : V) :
    find? (write entries target value) target =
      (find? entries target).map fun entry => (entry.1, value) := by
  induction entries with
  | nil => rfl
  | cons entry entries ih =>
      rw [write, changeIn, List.map_cons, ← changeIn, ← write]
      by_cases hmet : target entry.1 = .eq
      · simp [find?, hmet]
      · simp only [find?, hmet, if_false, decide_false, Bool.false_eq_true, not_false_eq_true,
          List.find?_cons_of_neg]
        exact ih

omit [Ord K] in
/-- Writing a value changes nothing for a target that other entries meet. -/
theorem find?_write_other {entries : List (K × V)} {target other : Target K} {value : V}
    (hother : ∀ entry ∈ entries, target entry.1 = .eq → other entry.1 ≠ .eq) :
    find? (write entries target value) other = find? entries other := by
  induction entries with
  | nil => rfl
  | cons entry entries ih =>
      obtain ⟨hfirst, hrest⟩ := List.forall_mem_cons.1 hother
      have hih := ih hrest
      simp only [find?, write, changeIn, List.map_cons] at hih ⊢
      by_cases hmet : target entry.1 = .eq
      · simp [hmet, hfirst hmet, hih]
      · rw [if_neg hmet, List.find?_cons, List.find?_cons, hih]

/-- **A key that was set is found**, in the spelling that was stored first. -/
theorem find?_insert_self [Std.TransOrd K] (entries : List (K × V)) (key : K) (value : V) :
    find? (insert entries key value) (.of key) =
      some (((find? entries (.of key)).map Prod.fst).getD key, value) := by
  unfold insert contains
  cases hfind : find? entries (.of key) with
  | some entry => simp [find?_write, hfind]
  | none =>
      have hbelow : (entries.takeWhile fun entry => compare entry.1 key = .lt).find?
          (fun entry => Target.of key entry.1 = .eq) = none := by
        refine List.find?_eq_none.2 fun entry hentry => ?_
        have hlt : compare entry.1 key = .lt := by simpa using List.mem_takeWhile_imp hentry
        simp [Target.of, hlt]
      simp only [Option.isSome_none, Bool.false_eq_true, if_false, Option.map_none,
        Option.getD_none]
      rw [find?, placeIn, List.find?_append, hbelow]
      simp [Target.of]

/-- **Setting a key changes nothing for the keys that differ from it.** -/
theorem find?_insert_other [Std.TransOrd K] (entries : List (K × V)) {key other : K} (value : V)
    (hother : compare key other ≠ .eq) :
    find? (insert entries key value) (.of other) = find? entries (.of other) := by
  unfold insert
  split
  · refine find?_write_other fun entry _ (hmet : compare entry.1 key = .eq) => ?_
    rwa [Target.of, Std.TransCmp.congr_left hmet]
  · have hentries := List.takeWhile_append_dropWhile
      (p := fun entry => decide (compare entry.1 key = .lt)) (l := entries)
    conv_rhs => rw [find?, ← hentries, List.find?_append]
    simp [find?, placeIn, Target.of, hother]

/-! ### Places -/

/-- **The rank of a target is the place of the entry that meets it.** -/
theorem rank_of_met {entries : List (K × V)} (h : Sorted entries) {target : Target K}
    (hagrees : target.Agrees) {index : Nat} {entry : K × V} (hentry : entries[index]? = some entry)
    (hmet : target entry.1 = .eq) : rank entries target = index + 1 := by
  obtain ⟨hlt, rfl⟩ := List.getElem?_eq_some_iff.1 hentry
  have hindex : entries.findIdx? (fun entry => target entry.1 = .eq) = some index := by
    refine List.findIdx?_eq_some_iff_getElem.2 ⟨hlt, by simpa using hmet, fun other hother => ?_⟩
    -- an entry with a lower key lies below the target
    have hlower := List.pairwise_iff_getElem.1 h other index (by omega) hlt hother
    have hbelow := (hagrees _ _ hlower).resolve_right (by simp [hmet])
    simp [hbelow]
  rw [rank, hindex]
  rfl

omit [Ord K] in
theorem rank_of_unmet {entries : List (K × V)} {target : Target K}
    (h : ∀ entry ∈ entries, target entry.1 ≠ .eq) : rank entries target = 0 := by
  rw [rank, List.findIdx?_eq_none_iff.2 fun entry hentry => by simpa using h entry hentry]
  rfl

omit [Ord K] in
/-- A rank that is not zero is the place of an entry that meets the target. -/
theorem exists_of_rank {entries : List (K × V)} {target : Target K} (h : rank entries target ≠ 0) :
    ∃ entry, select entries (rank entries target) = some entry ∧ target entry.1 = .eq := by
  unfold rank at h ⊢
  cases hindex : entries.findIdx? fun entry => target entry.1 = .eq with
  | none => simp [hindex] at h
  | some index =>
      obtain ⟨hlt, hmet, _⟩ := List.findIdx?_eq_some_iff_getElem.1 hindex
      exact ⟨entries[index], by simp [select, hlt], by simpa using hmet⟩

end Dictionary

end IndexedSkipList
