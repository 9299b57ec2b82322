/-
**Visits that are broken off.**

A visitor is shown the entries one after the other, and may refuse to be shown more.  To know what
it has been shown one watches it: the visitor that is watched answers as before, and besides what it
keeps itself there is a record of what it has been shown.  The record shows that the visitor decides
alone how far a visit goes, by its answers and in whatever way its own state makes it change its
mind: it is shown the entries in ascending order, the one that it refuses as the last of them, and
all of them if it refuses none.

A visitor that refuses what is not below a target is shown the entries below the target and one
more, if there is one.  Where an entry meets the target this is the one that is shown last, and so
the number of entries that are shown is the rank of the target, which is found by going from lane to
lane and adding up spans.

Main definitions:

* `shownTo`, `stateAfter` — the items that a visitor is shown, and its state after some items;
* `watched` — the visitor together with a record of what it is shown;
* `StopsAfter` — the visit stops after as many items as it takes for one to be refused;
* `SkipList.IsShown` — a visit to a list shows some entries and no more;
* `SkipList.VisitsInOrder` — how far visits to a list go.

Main results:

* `visitAll_watched` — watching a visitor does not disturb it;
* `stopsAfter_shownTo`, `StopsAfter.unique` — **how far a visit to a list of items goes**;
* `SkipList.Represents.shown_below` — how far it goes if the visitor looks for a target;
* `SkipList.Reachable.visitsInOrder` — **visitors are shown the entries up to the first refused**.
-/

import IndexedSkipList.Proofs.SkipList.Runs

set_option relaxedAutoImplicit false
set_option autoImplicit false

namespace IndexedSkipList

/-! ### What a visitor is shown -/

section Visitors

variable {S A : Type}

/-- The items that a visitor is shown: up to the first one that it refuses. -/
def shownTo (visitor : S → A → Bool × S) : List A → S → List A
  | [], _ => []
  | item :: items, state =>
      let (goOn, state) := visitor state item
      item :: if goOn then shownTo visitor items state else []

/-- The state of a visitor after some items, whatever it answered. -/
def stateAfter (visitor : S → A → Bool × S) (items : List A) (state : S) : S :=
  items.foldl (fun state item => (visitor state item).2) state

/-- **The visitor, watched**: it answers as before, and what it is shown is recorded, the latest
first. -/
def watched (visitor : S → A → Bool × S) (state : S × List A) (item : A) : Bool × S × List A :=
  let (goOn, after) := visitor state.1 item
  (goOn, after, item :: state.2)

/-- The visitor refuses the last of the items, after it was shown the others. -/
def RefusesLast (visitor : S → A → Bool × S) (state : S) (items : List A) : Prop :=
  ∃ before item, items = before ++ [item] ∧
    (visitor (stateAfter visitor before state) item).1 = false

/-- **A visit to `items` stops after `shown`**: this is the shortest part of the items from the
start the last of which is refused, or all of them if there is no such part. -/
structure StopsAfter (visitor : S → A → Bool × S) (state : S) (items shown : List A) : Prop where
  isPrefix : shown <+: items
  refused : RefusesLast visitor state shown ∨ shown = items
  shortest : ∀ shorter, shorter <+: shown → shorter ≠ shown → ¬ RefusesLast visitor state shorter

variable {visitor : S → A → Bool × S} {state : S}

theorem not_refusesLast_nil : ¬ RefusesLast visitor state [] := by
  rintro ⟨before, item, hitems, _⟩
  simp at hitems

/-- Whether the last item is refused is seen after the first one. -/
theorem refusesLast_cons_iff {item : A} {items : List A} (hne : items ≠ []) :
    RefusesLast visitor state (item :: items) ↔
      RefusesLast visitor (visitor state item).2 items := by
  constructor
  · rintro ⟨before, last, hitems, hrefused⟩
    cases before with
    | nil => simp [hne] at hitems
    | cons first before =>
        obtain ⟨rfl, rfl⟩ := List.cons.inj hitems
        exact ⟨before, last, rfl, hrefused⟩
  · rintro ⟨before, last, rfl, hrefused⟩
    exact ⟨item :: before, last, rfl, hrefused⟩

theorem refusesLast_singleton_iff {item : A} :
    RefusesLast visitor state [item] ↔ (visitor state item).1 = false := by
  constructor
  · rintro ⟨before, last, hitems, hrefused⟩
    obtain ⟨rfl, hlast⟩ := List.append_inj' (show [] ++ [item] = before ++ [last] from hitems) rfl
    obtain rfl := List.singleton_inj.1 hlast
    exact hrefused
  · intro hrefused
    exact ⟨[], item, rfl, hrefused⟩

/-- A visit stops after an item that is refused. -/
theorem stopsAfter_of_refused {item : A} (h : (visitor state item).1 = false) (items : List A) :
    StopsAfter visitor state (item :: items) [item] where
  isPrefix := ⟨items, rfl⟩
  refused := Or.inl (refusesLast_singleton_iff.2 h)
  shortest shorter hprefix hne := by
    rcases List.prefix_cons_iff.1 hprefix with rfl | ⟨rest, rfl, hrest⟩
    · exact not_refusesLast_nil
    · exact absurd (by rw [List.prefix_nil.1 hrest]) hne

/-- A visit goes on after an item that is not refused. -/
theorem StopsAfter.cons {item : A} {items shown : List A} (hgo : (visitor state item).1 = true)
    (h : StopsAfter visitor (visitor state item).2 items shown) :
    StopsAfter visitor state (item :: items) (item :: shown) where
  isPrefix := (List.prefix_cons_inj item).2 h.isPrefix
  refused := by
    rcases h.refused with hrefused | rfl
    · have hne : shown ≠ [] := fun hnil => not_refusesLast_nil (hnil ▸ hrefused)
      exact Or.inl ((refusesLast_cons_iff hne).2 hrefused)
    · exact Or.inr rfl
  shortest shorter hprefix hne hlast := by
    rcases List.prefix_cons_iff.1 hprefix with rfl | ⟨rest, rfl, hrest⟩
    · exact not_refusesLast_nil hlast
    · -- the first item is not refused, so it is not the last one of these
      have hnil : rest ≠ [] := by
        rintro rfl
        rw [refusesLast_singleton_iff, hgo] at hlast
        cases hlast
      have hshorter : rest ≠ shown := fun he => hne (by rw [he])
      exact h.shortest rest hrest hshorter ((refusesLast_cons_iff hnil).1 hlast)

/-- **What a visitor is shown** is what it takes for an item to be refused. -/
theorem stopsAfter_shownTo (visitor : S → A → Bool × S) (items : List A) (state : S) :
    StopsAfter visitor state items (shownTo visitor items state) := by
  induction items generalizing state with
  | nil =>
      refine ⟨List.prefix_rfl, Or.inr rfl, ?_⟩
      exact fun shorter hprefix hne => absurd (List.prefix_nil.1 hprefix) hne
  | cons item items ih =>
      cases hgo : (visitor state item).1 with
      | false =>
          have hshown : shownTo visitor (item :: items) state = [item] := by simp [shownTo, hgo]
          rw [hshown]
          exact stopsAfter_of_refused hgo items
      | true =>
          have hshown : shownTo visitor (item :: items) state =
              item :: shownTo visitor items (visitor state item).2 := by simp [shownTo, hgo]
          rw [hshown]
          exact (ih _).cons hgo

/-- A visit stops in only one place. -/
theorem StopsAfter.unique {items shown shown' : List A} (h : StopsAfter visitor state items shown)
    (h' : StopsAfter visitor state items shown') : shown = shown' := by
  wlog hle : shown.length ≤ shown'.length generalizing shown shown'
  · exact (this h' h (by omega)).symm
  have hprefix := List.prefix_of_prefix_length_le h.isPrefix h'.isPrefix hle
  rcases h.refused with hrefused | rfl
  · by_contra hne
    exact h'.shortest shown hprefix hne hrefused
  · exact hprefix.eq_of_length (le_antisymm hle h'.isPrefix.length_le)

/-- **Watching a visitor does not disturb it**, and records what it is shown. -/
theorem visitAll_watched (visitor : S → A → Bool × S) (items : List A) (state : S)
    (seen : List A) :
    visitAll (watched visitor) items (state, seen) =
      (visitAll visitor items state, (shownTo visitor items state).reverse ++ seen) := by
  induction items generalizing state seen with
  | nil => rfl
  | cons item items ih =>
      cases hgo : (visitor state item).1 with
      | false => simp [visitAll, shownTo, watched, hgo]
      | true => simp [visitAll, shownTo, watched, hgo, ih]

/-- The last state of a visitor is the one after what it was shown. -/
theorem visitAll_eq_stateAfter (visitor : S → A → Bool × S) (items : List A) (state : S) :
    visitAll visitor items state = stateAfter visitor (shownTo visitor items state) state := by
  induction items generalizing state with
  | nil => rfl
  | cons item items ih =>
      cases hgo : (visitor state item).1 with
      | false => simp [visitAll, shownTo, stateAfter, hgo]
      | true =>
          simp only [visitAll, shownTo, hgo, if_true, ih]
          rfl

/-- A visitor that accepts some items and refuses the next one, whatever its state, is shown these
and the next one. -/
theorem shownTo_append {accepted rest : List A}
    (haccepted : ∀ item ∈ accepted, ∀ state, (visitor state item).1 = true)
    (hrest : ∀ item ∈ rest.head?, ∀ state, (visitor state item).1 = false) (state : S) :
    shownTo visitor (accepted ++ rest) state = accepted ++ rest.take 1 := by
  induction accepted generalizing state with
  | nil =>
      cases rest with
      | nil => rfl
      | cons item rest => simp [shownTo, hrest item rfl state]
  | cons item accepted ih =>
      obtain ⟨hitem, haccepted⟩ := List.forall_mem_cons.1 haccepted
      simp [shownTo, hitem state, ih haccepted]

end Visitors

/-! ### Visitors that look for a target -/

section Targets

variable {K V : Type} {target : Target K} {S : Type} {visitor : S → K × V → Bool × S}
  {behind rest : List (K × V)}

/-- A visitor that refuses what is not below the target is shown what is below it, and one more. -/
theorem shownTo_below
    (hjudge : ∀ state entry, (visitor state entry).1 = decide (target entry.1 = .lt))
    (hbehind : ∀ entry ∈ behind, target entry.1 = .lt)
    (hrest : ∀ entry ∈ rest, target entry.1 ≠ .lt) (state : S) :
    shownTo visitor (behind ++ rest) state = behind ++ rest.take 1 := by
  refine shownTo_append ?_ ?_ state
  · intro entry hentry state
    simp [hjudge, hbehind entry hentry]
  · intro entry hentry state
    simp [hjudge, hrest entry (List.mem_of_mem_head? hentry)]

/-- **How many entries a visitor is shown** that refuses what is not below the target. -/
theorem length_shownTo_below
    (hjudge : ∀ state entry, (visitor state entry).1 = decide (target entry.1 = .lt))
    (hbehind : ∀ entry ∈ behind, target entry.1 = .lt)
    (hrest : ∀ entry ∈ rest, target entry.1 ≠ .lt) (state : S) :
    (shownTo visitor (behind ++ rest) state).length =
      min (behind ++ rest).length
        (1 + (behind ++ rest).countP fun entry => target entry.1 = .lt) := by
  rw [countP_below hbehind hrest, shownTo_below hjudge hbehind hrest]
  simp only [List.length_append, List.length_take]
  omega

end Targets

namespace SkipList

variable {K V R : Type}

/-! ### Visits to a list -/

/-- **The visitor is shown the entries `shown`**: these are recorded if it is watched, its last
state is the one after them, and there the visit stops. -/
structure IsShown (list : SkipList K V R) {S : Type} (visitor : S → K × V → Bool × S) (state : S)
    (entries shown : List (K × V)) : Prop where
  ascend_eq : list.ascend visitor state = .ok (stateAfter visitor shown state)
  watched_eq : list.ascend (watched visitor) (state, []) =
    .ok (stateAfter visitor shown state, shown.reverse)
  stops : StopsAfter visitor state entries shown
  /-- There is no other place where it could stop. -/
  only : ∀ other, StopsAfter visitor state entries other → other = shown

/-- **Visitors are shown the entries in ascending order**, up to the first one that they refuse. -/
structure VisitsInOrder [Ord K] (list : SkipList K V R) (entries : List (K × V)) : Prop where
  entries_eq : list.entries = .ok entries
  size_eq : list.size = entries.length
  sorted : Dictionary.Sorted entries
  /-- Every visitor is shown some entries; if it refuses what is not below a target, these are as
  many as there are below it and one more, and as the rank of the target tells if it is met. -/
  visits : ∀ (S : Type) (visitor : S → K × V → Bool × S) (state : S), ∃ shown,
    list.IsShown visitor state entries shown ∧
    ∀ target : Target K, target.Agrees →
      (∀ state entry, (visitor state entry).1 = decide (target entry.1 = .lt)) →
      shown.length = min list.size (1 + entries.countP fun entry => target entry.1 = .lt) ∧
      ((∃ entry ∈ entries, target entry.1 = .eq) → list.rank target = .ok shown.length)
  /-- So it is with a visitor that records the entries while they are below a target. -/
  whileBelow : ∀ target : Target K, ∃ shown,
    list.IsShown (recordWhileBelow target) [] entries shown ∧
    list.ascendWhileBelow target = .ok shown

theorem Holds.isShown {list : SkipList K V R} {sites : List (Site K V)} {vacant : List NodeId}
    (h : list.Holds sites vacant) {S : Type} (visitor : S → K × V → Bool × S) (state : S) :
    list.IsShown visitor state (entriesOf sites) (shownTo visitor (entriesOf sites) state) where
  ascend_eq := by rw [h.ascend_eq, visitAll_eq_stateAfter]
  watched_eq := by
    rw [h.ascend_eq, visitAll_watched, visitAll_eq_stateAfter, List.append_nil]
  stops := stopsAfter_shownTo visitor (entriesOf sites) state
  only _ hother := hother.unique (stopsAfter_shownTo visitor (entriesOf sites) state)

/-- What is recorded is what was shown, the latest first. -/
theorem stateAfter_recordWhileBelow (target : Target K) (entries seen : List (K × V)) :
    stateAfter (recordWhileBelow target) entries seen = entries.reverse ++ seen := by
  induction entries generalizing seen with
  | nil => rfl
  | cons entry entries ih =>
      have hrest := ih (entry :: seen)
      rw [List.reverse_cons, List.append_assoc]
      exact hrest

variable [Ord K]

namespace Represents

variable {list : SkipList K V R} {sites : List (Site K V)} {vacant : List NodeId}

/-- **A visitor that refuses what is not below a target** is shown as many entries as the rank of
the target tells. -/
theorem shown_below (h : list.Represents sites vacant) {target : Target K}
    (hagrees : target.Agrees) {S : Type} {visitor : S → K × V → Bool × S}
    (hjudge : ∀ state entry, (visitor state entry).1 = decide (target entry.1 = .lt)) (state : S) :
    (shownTo visitor (entriesOf sites) state).length =
        min list.size (1 + (entriesOf sites).countP fun entry => target entry.1 = .lt) ∧
      ((∃ entry ∈ entriesOf sites, target entry.1 = .eq) →
        list.rank target = .ok (shownTo visitor (entriesOf sites) state).length) := by
  rw [h.size_eq, ← length_entriesOf, h.rank_eq hagrees]
  rcases exists_parted hagrees h.sorted with
    ⟨behind, ahead, rfl, hparted⟩ | ⟨behind, met, ahead, rfl, hmet, hparted⟩
  · have hparts := hparted.entriesOf
    rw [entriesOf_append]
    refine ⟨length_shownTo_below hjudge hparts.below hparts.above_not_lt state, ?_⟩
    rintro ⟨entry, hentry, heq⟩
    exact absurd heq (hparts.unmet entry hentry)
  · -- the entry that meets the target is the one that is shown last
    have hparts := hparted.entriesOf
    have hrest : ∀ entry ∈ met.entry :: entriesOf ahead, target entry.1 ≠ .lt :=
      hparts.met_not_lt hmet
    have hindex : (entriesOf behind ++ met.entry :: entriesOf ahead).findIdx?
        (fun entry => target entry.1 = .eq) = some (entriesOf behind).length :=
      hparts.findIdx?_present hmet
    rw [entriesOf_append, entriesOf_cons]
    refine ⟨length_shownTo_below hjudge hparts.below hrest state, fun _ => ?_⟩
    rw [shownTo_below hjudge hparts.below hrest, Dictionary.rank, hindex]
    simp

/-- **Visitors are shown the entries of the row.** -/
theorem visits (h : list.Represents sites vacant) :
    list.VisitsInOrder (entriesOf sites) where
  entries_eq := h.entries_eq
  size_eq := by rw [h.size_eq, length_entriesOf]
  sorted := List.pairwise_map.2 h.sorted
  visits S visitor state :=
    ⟨_, h.isShown visitor state, fun target hagrees hjudge => h.shown_below hagrees hjudge state⟩
  whileBelow target := by
    have hshown := h.isShown (recordWhileBelow target) []
    refine ⟨_, hshown, ?_⟩
    rw [ascendWhileBelow, hshown.ascend_eq, stateAfter_recordWhileBelow]
    simp

end Represents

/-- **In lists that can be reached, visitors are shown the entries in ascending order**, up to the
first one that they refuse. -/
theorem Reachable.visitsInOrder [Std.TransOrd K] [Printable K] [Printable V] [BEq V]
    [WordSource R] {list : SkipList K V R} (h : list.Reachable) :
    ∃ entries, list.VisitsInOrder entries := by
  obtain ⟨sites, vacant, hrow⟩ := h.represents
  exact ⟨entriesOf sites, hrow.visits⟩

/-- Visitors of the list at the end of the small run. -/
theorem smallList_visitsInOrder :
    smallList.Reachable ∧ smallList.VisitsInOrder [(1, 10), (3, 31), (6, 60), (8, 80)] := by
  obtain ⟨entries, hvisits⟩ := smallList_reachable.visitsInOrder
  obtain rfl := Except.ok.inj (hvisits.entries_eq.symm.trans smallList_entries)
  exact ⟨smallList_reachable, hvisits⟩

end SkipList

end IndexedSkipList
