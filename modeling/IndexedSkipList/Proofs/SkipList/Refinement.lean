/-
**A list answers as the dictionary does, by key and by place.**

Through every run the answers of a list are those of a dictionary that was given the same commands:
what is found under a target, what was there before a value was set or taken out, and all entries in
their order.  The dictionary is sorted at every moment, so that the entries are as well.

What is asked by place agrees with the entries in their order.  The entry at a place is the one that
comes as many entries after the start, the rank of a target is the place of the entry that meets it,
and so ranks and places are inverse to each other.

Main definitions:

* `SkipList.Refines` — the outcome of a command is what the dictionary says;
* `SkipList.AnswersByPlace` — what is asked by place agrees with the entries.

Main results:

* `SkipList.run_refines_dictionary` — **the answers of a run**;
* `SkipList.Reachable.answersByPlace` — **the answers by place**.
-/

import IndexedSkipList.Proofs.SkipList.Runs

set_option relaxedAutoImplicit false
set_option autoImplicit false

namespace IndexedSkipList

namespace SkipList

variable {K V R : Type} [Ord K] [Printable K] [Printable V] [BEq V]

/-! ### By key -/

/-- **The outcome of a command is what the dictionary says.**  The answer is that of the dictionary,
where the entries decide it; and after the command the list has the entries of the dictionary, as
many and in the same order, and they are sorted. -/
structure Refines (outcome : Outcome (SkipList K V R) (Answer K V))
    (moment : Command K V × List (K × V)) : Prop where
  answer_eq : ∀ answer, Dictionary.answer? moment.2 moment.1 = some answer →
    outcome.answer = answer
  entries_eq : outcome.after.entries = .ok (Dictionary.after moment.2 moment.1)
  size_eq : outcome.after.size = (Dictionary.after moment.2 moment.1).length
  isEmpty_eq : outcome.after.isEmpty = (Dictionary.after moment.2 moment.1).isEmpty
  sorted : Dictionary.Sorted (Dictionary.after moment.2 moment.1)

theorem refines_of_meets {outcome : Outcome (SkipList K V R) (Answer K V)}
    {moment : Command K V × List (K × V)} (h : Meets outcome moment)
    (hsorted : Dictionary.Sorted (Dictionary.after moment.2 moment.1)) :
    Refines outcome moment := by
  obtain ⟨sites, vacant, hrow, hentries, hanswer⟩ := h
  exact
    { answer_eq := hanswer
      entries_eq := by rw [hrow.entries_eq, hentries]
      size_eq := by rw [hrow.size_eq, ← hentries, length_entriesOf]
      isEmpty_eq := by rw [hrow.isEmpty_eq, hentries]
      sorted := hsorted }

variable [Std.TransOrd K] [WordSource R]

/-- **Through every run a list refines the dictionary**, and every command is answered. -/
theorem run_refines_dictionary (policy : HeightPolicy) (hpolicy : policy.validate = .ok ())
    (source : R) (commands : List (Command K V))
    (hlawful : ∀ command ∈ commands, command.Lawful) (hfits : Dictionary.Fits commands) :
    List.Forall₂ (Succeeds Refines) ((blank policy source : SkipList K V R).run commands)
      (Dictionary.history [] commands) := by
  obtain ⟨outcomes, hrun, hmeets⟩ := run_meets hpolicy source hlawful hfits
  have hsorted := Dictionary.sorted_history (List.Pairwise.nil : Dictionary.Sorted []) commands
  have hboth := ((List.forall₂_and_left _ _).2 ⟨hsorted, hmeets.flip⟩).flip
  rw [hrun, List.forall₂_map_left_iff]
  refine hboth.imp ?_
  rintro outcome moment ⟨hsorted, hmeets⟩
  exact ⟨outcome, rfl, refines_of_meets hmeets hsorted⟩

/-- The small run refines the dictionary. -/
theorem smallRun_refines_dictionary :
    List.Forall₂ (Succeeds Refines)
      ((blank {} smallWords : SkipList Nat Nat CyclicWords).run smallRun)
      (Dictionary.history [] smallRun) :=
  run_refines_dictionary {} HeightPolicy.validate_default smallWords smallRun smallRun_lawful
    smallRun_fits

/-! ### By place -/

/-- **What a list answers by place agrees with its entries.** -/
structure AnswersByPlace (list : SkipList K V R) (entries : List (K × V)) : Prop where
  entries_eq : list.entries = .ok entries
  size_eq : list.size = entries.length
  /-- Places are counted from one, and there is nothing at others. -/
  select_eq : ∀ place, list.select place =
    .ok (if 1 ≤ place ∧ place ≤ list.size then entries[place - 1]? else none)
  /-- The rank of a target is the place of the entry that meets it. -/
  rank_met : ∀ target : Target K, target.Agrees → ∀ index entry, entries[index]? = some entry →
    target entry.1 = .eq → list.rank target = .ok (index + 1)
  rank_unmet : ∀ target : Target K, target.Agrees → (∀ entry ∈ entries, target entry.1 ≠ .eq) →
    list.rank target = .ok 0
  first_eq : list.first? = list.select 1
  last_eq : list.last? = .ok entries.getLast?
  /-- Every place is the rank of the key that stands there. -/
  rank_select : ∀ place, 1 ≤ place → place ≤ list.size →
    ∃ entry, list.select place = .ok (some entry) ∧ list.rank (.of entry.1) = .ok place
  /-- A key that has a rank stands there. -/
  select_rank : ∀ key place, list.rank (.of key) = .ok place → place ≠ 0 →
    ∃ entry, list.select place = .ok (some entry) ∧ compare entry.1 key = .eq

/-- **Answers by place agree with the entries**, in every list that a run leads to.  So ranks and
places are inverse to each other, between the places of the list and the keys that are present. -/
theorem Reachable.answersByPlace {list : SkipList K V R} (h : list.Reachable) :
    ∃ entries, list.AnswersByPlace entries := by
  obtain ⟨sites, vacant, hrow⟩ := h.represents
  have hsorted : Dictionary.Sorted (entriesOf sites) := List.pairwise_map.2 hrow.sorted
  have hsize : list.size = (entriesOf sites).length := by rw [hrow.size_eq, length_entriesOf]
  refine ⟨entriesOf sites, ?_⟩
  exact
    { entries_eq := hrow.entries_eq
      size_eq := hsize
      select_eq := fun place => by
        rw [hrow.select_eq, Dictionary.select, hsize]
        congr 1
        split
        · simp [*]
        · split
          · rfl
          · exact List.getElem?_eq_none (by omega)
      rank_met := fun target hagrees index entry hentry hmet => by
        rw [hrow.rank_eq hagrees, Dictionary.rank_of_met hsorted hagrees hentry hmet]
      rank_unmet := fun target hagrees hunmet => by
        rw [hrow.rank_eq hagrees, Dictionary.rank_of_unmet hunmet]
      first_eq := by
        rw [hrow.first?_eq, hrow.select_eq, Dictionary.select, List.head?_eq_getElem?]
        rfl
      last_eq := hrow.last?_eq
      rank_select := fun place hlow hhigh => by
        obtain ⟨index, rfl⟩ : ∃ index, place = index + 1 := ⟨place - 1, by omega⟩
        have hentry := List.getElem?_eq_getElem (show index < (entriesOf sites).length by omega)
        have hself : compare (entriesOf sites)[index].1 (entriesOf sites)[index].1 = .eq :=
          Std.ReflCmp.compare_self
        refine ⟨(entriesOf sites)[index], ?_, ?_⟩
        · rw [hrow.select_eq]
          simp [Dictionary.select, hentry]
        · rw [hrow.rank_eq (Target.agrees_of _), Dictionary.rank_of_met hsorted (Target.agrees_of _)
            hentry hself]
      select_rank := fun key place hrank hne => by
        rw [hrow.rank_eq (Target.agrees_of key)] at hrank
        obtain rfl := Except.ok.inj hrank
        obtain ⟨entry, hselect, hmet⟩ := Dictionary.exists_of_rank hne
        exact ⟨entry, by rw [hrow.select_eq, hselect], hmet⟩ }

/-- The list at the end of the small run answers by place what its entries say. -/
theorem smallList_answersByPlace :
    smallList.Reachable ∧ smallList.size = 4 ∧
      smallList.AnswersByPlace [(1, 10), (3, 31), (6, 60), (8, 80)] := by
  obtain ⟨entries, hanswers⟩ := smallList_reachable.answersByPlace
  obtain rfl := Except.ok.inj (hanswers.entries_eq.symm.trans smallList_entries)
  exact ⟨smallList_reachable, hanswers.size_eq, hanswers⟩

end SkipList

end IndexedSkipList
