/-
**Lists filled at one go.**

To fill a list without entries with pairs is to sort them and to leave out repetitions.  Whatever
heights are drawn on the way, by whatever policy and from whatever source, the list goes through
the entries that the pairs collect (`Dictionary.Collects`), and says so by place as well.  Nor does
it matter in which order pairs with distinct keys come, though the lists that come about have
different nodes and different links.

The list to be filled may have had entries before, so that its slots are vacant in some order; a
list that was reached and has no entries now is as good as a new one.

Main definitions:

* `SkipList.Presents` — the list goes through some entries, and answers by place as they do;
* `SkipList.Builds` — an operation succeeds, and leaves a list that presents some entries.

Main results:

* `SkipList.Represents.presents` — a list presents the entries of the row it represents;
* `SkipList.Reachable.builds_insertAll` — setting pairs in a list without entries;
* `SkipList.builds_collected` — **to fill a list is to collect the pairs**.
-/

import IndexedSkipList.Proofs.Key.Collection
import IndexedSkipList.Proofs.SkipList.Runs

set_option relaxedAutoImplicit false
set_option autoImplicit false

namespace IndexedSkipList

namespace SkipList

variable {K V R : Type} [Ord K]

/-! ### What a list presents -/

/-- **The list goes through the entries**, has as many, and answers by place as they do. -/
structure Presents (list : SkipList K V R) (entries : List (K × V)) : Prop where
  entries_eq : list.entries = .ok entries
  size_eq : list.size = entries.length
  rank_eq : ∀ target : Target K, target.Agrees →
    list.rank target = .ok (Dictionary.rank entries target)
  select_eq : ∀ place, list.select place = .ok (Dictionary.select entries place)

/-- The operation succeeds, and the list after it presents the entries. -/
def Builds {A : Type} (result : Except Fault (Outcome (SkipList K V R) A))
    (entries : List (K × V)) : Prop :=
  ∃ outcome, result = .ok outcome ∧ outcome.after.Presents entries

/-- **A list presents the entries of the row it represents.** -/
theorem Represents.presents {list : SkipList K V R} {sites : List (Site K V)}
    {vacant : List NodeId} (h : list.Represents sites vacant) :
    list.Presents (entriesOf sites) := by
  constructor
  · exact h.entries_eq
  · rw [h.size_eq, length_entriesOf]
  · intro target hagrees
    exact h.rank_eq hagrees
  · exact h.select_eq

theorem Shows.presents {list : SkipList K V R} {profile : Profile K V R}
    (h : list.Shows profile) : list.Presents profile.entries := by
  obtain ⟨sites, vacant, hrow, rfl⟩ := h
  rw [entries_profileOf]
  exact hrow.presents

/-! ### Lists without entries -/

variable [Std.TransOrd K] [Printable K] [Printable V] [BEq V] [WordSource R]

omit [Std.TransOrd K] in
/-- A list that was just built has been reached, by doing nothing. -/
theorem reachable_blank {policy : HeightPolicy} (h : policy.validate = .ok ()) (source : R) :
    (blank policy source : SkipList K V R).Reachable := by
  refine ⟨policy, source, [], h, ?_, ?_, List.mem_cons_self ..⟩
  · simp
  · simp [Dictionary.Fits, Dictionary.history]

/-- **Setting pairs in a list without entries** builds what a dictionary makes of the pairs. -/
theorem Reachable.builds_insertAll {list : SkipList K V R} (h : list.Reachable)
    (hempty : list.isEmpty) {pairs : List (K × V)} (hlength : pairs.length < Pool.capacity) :
    Builds (list.insertAll pairs) (Dictionary.insertAll [] pairs) := by
  obtain ⟨sites, vacant, hrow⟩ := h.represents
  have hsites : sites = [] := by
    have hsize : list.size = 0 := by simpa [isEmpty] using hempty
    rwa [hrow.size_eq, List.length_eq_zero_iff] at hsize
  subst hsites
  have hshows : list.Shows (profileOf [] list.policy list.source) := ⟨[], vacant, hrow, rfl⟩
  have hentries : ((profileOf [] list.policy list.source).insertAll pairs).after.entries =
      Dictionary.insertAll [] pairs := by
    rw [Profile.entries_insertAll, entries_profileOf]
    rfl
  -- there are at most as many entries in the end as there are pairs
  have hfits : ((profileOf [] list.policy list.source).insertAll pairs).after.Fits := by
    have hle := Dictionary.length_insertAll_le [] pairs
    rw [Profile.Fits, ← Profile.length_entries, hentries]
    rw [List.length_nil] at hle
    omega
  obtain ⟨after, hafter, haftershows⟩ := hshows.insertAll pairs hfits
  refine ⟨_, hafter, ?_⟩
  rw [← hentries]
  exact haftershows.presents

/-! ### Filling a list -/

omit [WordSource R] in
/-- **To fill a list is to sort the pairs and to leave out repetitions**, with each key in the
spelling in which it comes first and with the value with which it comes last.  So it is for lists
that are made of the pairs, whatever source the heights are drawn from, and for all lists that were
reached and have no entries, whatever their policy and their source.  If no two pairs are equal in
their keys, they may come in any order. -/
theorem builds_collected (pairs : List (K × V)) (hlength : pairs.length < Pool.capacity) :
    ∃ entries, Dictionary.Collects pairs entries ∧
      ∀ pairs', pairs' = pairs ∨ Dictionary.Distinct pairs ∧ pairs.Perm pairs' →
        ∀ (R : Type) [WordSource R],
          (∀ source : R, Builds (collect source pairs') entries) ∧
          ∀ list : SkipList K V R, list.Reachable → list.isEmpty →
            Builds (list.insertAll pairs') entries := by
  refine ⟨Dictionary.insertAll [] pairs, Dictionary.collects_insertAll pairs, ?_⟩
  intro pairs' hpairs R _
  have hsame : Dictionary.insertAll [] pairs' = Dictionary.insertAll [] pairs := by
    rcases hpairs with rfl | ⟨hdistinct, hperm⟩
    · rfl
    · exact ((Dictionary.collects_insertAll pairs).eq_of_perm
        (Dictionary.collects_insertAll pairs') hdistinct hperm).symm
  have hlength' : pairs'.length < Pool.capacity := by
    rcases hpairs with rfl | ⟨_, hperm⟩
    · exact hlength
    · rwa [← hperm.length_eq]
  rw [← hsame]
  constructor
  · intro source
    exact (reachable_blank HeightPolicy.validate_default source).builds_insertAll rfl hlength'
  · intro list hreachable hempty
    exact hreachable.builds_insertAll hempty hlength'

/-- Pairs with distinct keys. -/
def somePairs : List (Nat × Nat) := [(5, 50), (3, 30), (8, 80), (1, 10)]

/-- A policy by which a list is no more than a chain of its nodes. -/
def flatPolicy : HeightPolicy := { maxHeight := 1 }

/-- Lists made of the pairs in the one order and in the other, from the generator of a seed and from
words that come round again, and a flat list filled with them present the same entries. -/
theorem somePairs_builds_collected :
    somePairs.length < Pool.capacity ∧ Dictionary.Distinct somePairs ∧
      (blank flatPolicy smallWords : SkipList Nat Nat CyclicWords).Reachable ∧
      ∃ entries, Dictionary.Collects somePairs entries ∧
        Builds (ofList 7 somePairs) entries ∧
        Builds (collect smallWords somePairs.reverse) entries ∧
        Builds ((blank flatPolicy smallWords : SkipList Nat Nat CyclicWords).insertAll
          somePairs.reverse) entries := by
  have hlength : somePairs.length < Pool.capacity := by decide
  have hdistinct : Dictionary.Distinct somePairs := by
    unfold Dictionary.Distinct
    decide
  have hflat : (blank flatPolicy smallWords : SkipList Nat Nat CyclicWords).Reachable :=
    reachable_blank (by decide +kernel) smallWords
  obtain ⟨entries, hcollects, hbuilds⟩ := builds_collected somePairs hlength
  obtain ⟨hseeded, _⟩ := hbuilds somePairs (Or.inl rfl) Xoshiro256
  obtain ⟨hcyclic, hinsertAll⟩ := hbuilds somePairs.reverse
    (Or.inr ⟨hdistinct, (List.reverse_perm somePairs).symm⟩) CyclicWords
  exact ⟨hlength, hdistinct, hflat, entries, hcollects, hseeded (Xoshiro256.ofSeed 7),
    hcyclic smallWords, hinsertAll _ hflat rfl⟩

end SkipList

end IndexedSkipList
