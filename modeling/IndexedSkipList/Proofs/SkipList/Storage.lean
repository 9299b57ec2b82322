/-
**No slot is lost.**

A pool grows only when no slot is vacant, and a slot that a node leaves is vacant at once.  So the
number of slots is never more than there have been entries at one time: it is the largest number of
entries since the list was built or cleared last.  Of these slots as many are occupied as there are
entries now, and the free list runs through all the others.

This is seen from the rows alone.  A list that holds a row has a slot for each site and for each
vacant id; a site that is put in takes a vacant id if there is one, and a site that is taken out
leaves one behind.  A batch goes through the states of its single changes, and what is the largest
number is looked up in these.

Main definitions:

* `Pool.occupied` — the number of slots with a node;
* `SkipList.Stores` — what the slots of a list hold;
* `SkipList.Grown` — a pool that has grown no further than it had to;
* `SkipList.peak`, `SkipList.peakAfter`, `SkipList.peaks` — the largest number of entries in some
  states, and since the last clearing after one command and after each command of a run;
* `SkipList.StoresPeaks` — the slots of a list through a run.

Main results:

* `Pool.Houses.occupied_eq` — as many slots are occupied as there are sites;
* `SkipList.Intact.grown_single` — a single command lets the pool grow no further than it has to;
* `SkipList.Intact.slots_step` — the number of slots after any command;
* `SkipList.run_stores_peaks` — **there are as many slots as there have been entries at one time**.
-/

import IndexedSkipList.Proofs.SkipList.Parts

set_option relaxedAutoImplicit false
set_option autoImplicit false

namespace IndexedSkipList

/-! ### Counting the occupied slots -/

/-- The slot holds a node. -/
def Slot.isOccupied {K V : Type} : Slot K V → Bool
  | .occupied _ => true
  | .vacant _ => false

namespace Pool

variable {K V : Type}

/-- The number of slots with a node. -/
def occupied (pool : Pool K V) : Nat := pool.slots.countP Slot.isOccupied

/-- What an array holds is counted by its indices. -/
theorem countP_eq_length_filter_range {A : Type} (items : Array A) (p : A → Bool) :
    items.countP p = ((List.range items.size).filter fun i => items[i]?.any p).length := by
  have hitems : items.toList.map some = (List.range items.size).map fun i => items[i]? := by
    refine List.ext_getElem (by simp) ?_
    intro i hi hi'
    have hlt : i < items.size := by simpa using hi
    simp [hlt]
  calc items.countP p = (items.toList.map some).countP (Option.any p) := by
        rw [List.countP_map, ← Array.countP_toList]
        rfl
    _ = _ := by
        rw [hitems, List.countP_map, List.countP_eq_length_filter]
        rfl

theorem isOccupied_iff_exists_node (pool : Pool K V) (i : Nat) :
    pool.slots[i]?.any Slot.isOccupied = true ↔ ∃ node, pool.node? ⟨i⟩ = some node := by
  simp only [node?_eq_some_iff]
  cases hslot : pool.slots[i]? with
  | none => simp
  | some slot =>
      cases slot with
      | occupied node => simp [Slot.isOccupied]
      | vacant next => simp [Slot.isOccupied]

/-- **As many slots are occupied as there are sites** in the row that the pool houses. -/
theorem Houses.occupied_eq {pool : Pool K V} {sites : List (Site K V)} {vacant : List NodeId}
    (h : pool.Houses sites vacant) : pool.occupied = sites.length := by
  have hindices : ((sites.map (·.id)).map NodeId.index).Nodup :=
    h.nodup.map fun a b hab => by
      by_contra hne
      exact NodeId.index_ne hne hab
  -- the numbers of the occupied slots are those of the ids of the sites
  have hperm : ((sites.map (·.id)).map NodeId.index).Perm
      ((List.range pool.slots.size).filter fun i => pool.slots[i]?.any Slot.isOccupied) := by
    refine (List.perm_ext_iff_of_nodup hindices (List.nodup_range.filter _)).2 fun i => ?_
    rw [List.mem_filter, List.mem_range, isOccupied_iff_exists_node, ← h.mem_ids_iff]
    constructor
    · intro hi
      obtain ⟨id, hid, rfl⟩ := List.mem_map.1 hi
      obtain ⟨node, hnode⟩ := (h.mem_ids_iff id).1 hid
      exact ⟨index_lt_of_node? hnode, hid⟩
    · intro hi
      exact List.mem_map.2 ⟨⟨i⟩, hi.2, rfl⟩
  rw [occupied, countP_eq_length_filter_range, ← hperm.length_eq, List.length_map, List.length_map]

end Pool

namespace SkipList

variable {K V R : Type}

/-! ### The slots of a list -/

/-- **What the slots of a list hold**: there are `most` of them, each entry has one, and the free
list runs through exactly the others. -/
structure Stores (list : SkipList K V R) (most : Nat) : Prop where
  slots_eq : list.lanes.pool.slots.size = most
  occupied_eq : list.lanes.pool.occupied = list.size
  free : ∃ vacant, list.lanes.pool.Threaded vacant ∧ list.size + vacant.length = most

/-- There is a slot for each site and for each vacant id. -/
theorem Holds.slots_eq {list : SkipList K V R} {sites : List (Site K V)} {vacant : List NodeId}
    (h : list.Holds sites vacant) :
    list.lanes.pool.slots.size = sites.length + vacant.length :=
  h.lanes.houses.length_add_length.symm

theorem Intact.stores {list : SkipList K V R} (h : list.Intact) :
    list.Stores list.lanes.pool.slots.size := by
  obtain ⟨sites, vacant, hrow⟩ := h
  constructor
  · rfl
  · rw [hrow.lanes.houses.occupied_eq, hrow.size_eq]
  · exact ⟨vacant, hrow.lanes.houses.threaded, by rw [hrow.slots_eq, hrow.size_eq]⟩

theorem Intact.size_le_slots {list : SkipList K V R} (h : list.Intact) :
    list.size ≤ list.lanes.pool.slots.size := by
  obtain ⟨vacant, _, hlength⟩ := h.stores.free
  omega

/-- The pool has grown at most to the number of entries there are now. -/
def Grown (list after : SkipList K V R) : Prop :=
  after.lanes.pool.slots.size = max list.lanes.pool.slots.size after.size

theorem Intact.grown_self {list : SkipList K V R} (h : list.Intact) : list.Grown list :=
  (Nat.max_eq_left h.size_le_slots).symm

/-- How the pool has grown is seen from the rows before and after. -/
theorem Holds.grown {list after : SkipList K V R} {sites sites' : List (Site K V)}
    {vacant vacant' : List NodeId} (h : list.Holds sites vacant) (h' : after.Holds sites' vacant')
    (hlength : sites'.length + vacant'.length =
      max (sites.length + vacant.length) sites'.length) : list.Grown after := by
  rw [Grown, h.slots_eq, h'.slots_eq, h'.size_eq]
  exact hlength

namespace Intact

variable {list : SkipList K V R}

theorem grown_insert [Ord K] [WordSource R] (h : list.Intact) (hroom : list.size < Pool.capacity)
    (key : K) (value : V) :
    ∃ outcome, list.insert key value = .ok outcome ∧ list.Grown outcome.after := by
  obtain ⟨sites, vacant, hrow⟩ := h
  rw [hrow.size_eq] at hroom
  obtain ⟨outcome, houtcome, ⟨behind, site, ahead, rfl, hafter, _⟩ |
    ⟨behind, site, ahead, rfl, hafter, _⟩⟩ := hrow.insert_cases hroom key value
  · refine ⟨outcome, houtcome, hrow.grown hafter ?_⟩
    -- a vacant id is taken, or there is none and a slot is added
    simp only [List.length_append, List.length_cons, List.length_tail]
    omega
  · refine ⟨outcome, houtcome, hrow.grown hafter ?_⟩
    simp only [List.length_append, List.length_cons]
    omega

theorem grown_replace (h : list.Intact) (target : Target K) (value : V) :
    ∃ outcome, list.replace target value = .ok outcome ∧ list.Grown outcome.after := by
  obtain ⟨sites, vacant, hrow⟩ := id h
  obtain ⟨outcome, houtcome, _, hkept | ⟨behind, site, ahead, rfl, hafter⟩⟩ :=
    hrow.replace_cases target value
  · exact ⟨outcome, houtcome, hkept.symm ▸ h.grown_self⟩
  · refine ⟨outcome, houtcome, hrow.grown hafter ?_⟩
    simp only [List.length_append, List.length_cons]
    omega

theorem grown_removeEntry (h : list.Intact) (target : Target K) :
    ∃ outcome, list.removeEntry target = .ok outcome ∧ list.Grown outcome.after := by
  obtain ⟨sites, vacant, hrow⟩ := id h
  obtain ⟨outcome, houtcome, ⟨hkept, _⟩ | ⟨behind, site, ahead, rfl, hafter, _⟩⟩ :=
    hrow.removeEntry_cases target
  · exact ⟨outcome, houtcome, hkept.symm ▸ h.grown_self⟩
  · refine ⟨outcome, houtcome, hrow.grown hafter ?_⟩
    -- the slot that is left behind makes up for the site that is gone
    simp only [List.length_append, List.length_cons]
    omega

theorem grown_remove (h : list.Intact) (target : Target K) :
    ∃ outcome, list.remove target = .ok outcome ∧ list.Grown outcome.after := by
  obtain ⟨outcome, houtcome, hgrown⟩ := h.grown_removeEntry target
  exact ⟨{ outcome with answer := outcome.answer.isSome },
    by simp [SkipList.remove, houtcome], hgrown⟩

end Intact

/-! ### Single commands -/

/-- What is known of some list after a change is known of the list after it. -/
theorem good_after {A : Type} {good : SkipList K V R → Prop}
    {result : Except Fault (Outcome (SkipList K V R) A)} {outcome : Outcome (SkipList K V R) A}
    (h : ∃ one, result = .ok one ∧ good one.after) (hresult : result = .ok outcome) :
    good outcome.after := by
  obtain ⟨one, hone, hgood⟩ := h
  obtain rfl := Except.ok.inj (hone.symm.trans hresult)
  exact hgood

variable [Ord K] [Printable K] [Printable V] [BEq V] [WordSource R]

/-- **The pool grows no further than a single command needs.** -/
theorem Intact.grown_single {list : SkipList K V R} (h : list.Intact)
    (hroom : list.size < Pool.capacity) {command : Command K V} (hsingle : Single command)
    {outcome : Outcome (SkipList K V R) (Answer K V)} (hstep : list.step command = .ok outcome) :
    list.Grown outcome.after := by
  cases command with
  | insert key value =>
      exact good_after (exists_changing list.Grown (h.grown_insert hroom key value)) hstep
  | replace target value =>
      exact good_after (exists_changing list.Grown (h.grown_replace target value)) hstep
  | remove target =>
      exact good_after (exists_changing list.Grown (h.grown_remove target)) hstep
  | removeEntry target =>
      exact good_after (exists_changing list.Grown (h.grown_removeEntry target)) hstep
  | clear => exact absurd rfl hsingle.2
  | insertAll items | insertEach items | removeEach items =>
      exact absurd hsingle (not_single_of_map rfl (by simp))
  | _ =>
      rw [(of_answering hstep).1]
      exact h.grown_self

/-! ### The largest number of entries -/

/-- The largest number of entries in some states of a list, and at least `most`. -/
def peak (most : Nat) (states : List (SkipList K V R)) : Nat :=
  states.foldl (fun most state => max most state.size) most

/-- **The largest number of entries since the last clearing**, after one more command, where `most`
is what it was before the command.  A batch goes through the states of its single changes. -/
def peakAfter (list : SkipList K V R) (most : Nat) : Command K V → Nat
  | .clear => 0
  | command => peak most (list.states command.parts)

/-- The largest number of entries since the last clearing, after each command of a run. -/
def peaks (list : SkipList K V R) (most : Nat) : List (Command K V) → List Nat
  | [] => []
  | command :: commands =>
      match list.step command with
      | .ok outcome =>
          list.peakAfter most command :: outcome.after.peaks (list.peakAfter most command) commands
      | .error _ => []

namespace Intact

variable {list : SkipList K V R} {commands rest : List (Command K V)}

/-- **After a run of single commands there are as many slots** as there were before, or as there
have been entries on the way. -/
theorem slots_last (h : list.Intact) (hsingle : ∀ command ∈ commands, Single command)
    (hroom : list.Roomy (commands ++ rest)) :
    (list.last commands).lanes.pool.slots.size =
      peak list.lanes.pool.slots.size (list.states commands) := by
  induction commands generalizing list with
  | nil => exact (Nat.max_eq_left h.size_le_slots).symm
  | cons command commands ih =>
      obtain ⟨hfirst, hsingle⟩ := List.forall_mem_cons.1 hsingle
      have hparts : list.Roomy (command.parts ++ (commands ++ rest)) := by rwa [hfirst.1]
      obtain ⟨outcome, hstep, hready⟩ := h.step hparts
      have hgrown : outcome.after.lanes.pool.slots.size = _ :=
        h.grown_single hroom.size_lt hfirst hstep
      have hsize := h.size_le_slots
      have hsize' := hready.1.size_le_slots
      calc (list.last (command :: commands)).lanes.pool.slots.size
          = (outcome.after.last commands).lanes.pool.slots.size := by rw [last_cons hstep]
        _ = peak outcome.after.lanes.pool.slots.size (outcome.after.states commands) :=
            ih hready.1 hsingle hready.2
        _ = peak (max outcome.after.lanes.pool.slots.size outcome.after.size)
              ((outcome.after.states commands).tail) := rfl
        _ = peak (max (max list.lanes.pool.slots.size list.size) outcome.after.size)
              ((outcome.after.states commands).tail) := by
            congr 1
            omega
        _ = peak list.lanes.pool.slots.size (list.states (command :: commands)) := by
            rw [states_cons hstep]
            rfl

/-- **After a command there are as many slots** as there have been entries since the last
clearing. -/
theorem slots_step (h : list.Intact) {command : Command K V}
    (hroom : list.Roomy (command.parts ++ rest))
    {outcome : Outcome (SkipList K V R) (Answer K V)} (hstep : list.step command = .ok outcome) :
    outcome.after.lanes.pool.slots.size =
      list.peakAfter list.lanes.pool.slots.size command := by
  by_cases hclear : command = .clear
  · subst hclear
    obtain rfl := Except.ok.inj hstep
    rfl
  · have hpeak : list.peakAfter list.lanes.pool.slots.size command =
        peak list.lanes.pool.slots.size (list.states command.parts) := by
      cases command with
      | clear => exact absurd rfl hclear
      | _ => rfl
    rw [hpeak, ← (sumsUp_parts hstep).last_eq]
    exact h.slots_last (fun part hpart => single_of_mem_parts hclear hpart) hroom

/-- **In a run from an intact list no slot is lost.** -/
theorem run_stores (h : list.Intact) (hroom : list.Roomy (commands.flatMap Command.parts)) :
    List.Forall₂ (Succeeds fun outcome most => outcome.after.Stores most)
      (list.run commands) (list.peaks list.lanes.pool.slots.size commands) := by
  induction commands generalizing list with
  | nil => exact .nil
  | cons command commands ih =>
      rw [List.flatMap_cons] at hroom
      obtain ⟨outcome, hstep, hready⟩ := h.step hroom
      have hslots := h.slots_step hroom hstep
      simp only [SkipList.run, peaks, hstep]
      constructor
      · exact ⟨outcome, rfl, hslots ▸ hready.1.stores⟩
      · rw [← hslots]
        exact ih hready.1 hready.2

end Intact

/-- **The slots of the list are the most that there have been entries**, at first and after every
command of the run; every command is answered. -/
structure StoresPeaks (list : SkipList K V R) (commands : List (Command K V)) : Prop where
  start : list.Stores 0
  results : List.Forall₂ (Succeeds fun outcome most => outcome.after.Stores most)
    (list.run commands) (list.peaks 0 commands)

/-- **No slot is lost**, whatever the order of the keys and whatever is done, as long as there are
fewer entries than ids at every moment: after every command there are as many slots as there have
been entries since the list was built or cleared last, as many of them are occupied as there are
entries now, and the free list runs through all others. -/
theorem run_stores_peaks (policy : HeightPolicy) (hpolicy : policy.validate = .ok ()) (source : R)
    (commands : List (Command K V))
    (hroom : (blank policy source : SkipList K V R).Roomy (commands.flatMap Command.parts)) :
    (blank policy source : SkipList K V R).StoresPeaks commands := by
  have hblank := intact_blank (K := K) (V := V) hpolicy source
  exact ⟨hblank.stores, hblank.run_stores hroom⟩

/-- A run that fills a list, takes keys out and others in, clears the list and fills it again. -/
def tidalRun : List (Command Nat Nat) :=
  [.insertAll [(5, 50), (3, 30), (8, 80), (3, 31)], .removeEach [.of 3, .of 8, .of 4],
    .insert 9 90, .clear, .insertEach [(2, 20), (7, 70)], .removeEntry (.of 2), .insert 4 40]

/-- In this run no slot is lost; there are never more of them than three, and two at the end. -/
theorem tidalRun_stores_peaks :
    (blank {} smallWords : SkipList Nat Nat CyclicWords).Roomy (tidalRun.flatMap Command.parts) ∧
    (blank {} smallWords : SkipList Nat Nat CyclicWords).peaks 0 tidalRun =
      [3, 3, 3, 0, 2, 2, 2] ∧
    (blank {} smallWords : SkipList Nat Nat CyclicWords).StoresPeaks tidalRun := by
  have hroom : (blank {} smallWords : SkipList Nat Nat CyclicWords).Roomy
      (tidalRun.flatMap Command.parts) := by
    unfold Roomy
    decide +kernel
  have hpeaks : (blank {} smallWords : SkipList Nat Nat CyclicWords).peaks 0 tidalRun =
      [3, 3, 3, 0, 2, 2, 2] := by
    decide +kernel
  exact ⟨hroom, hpeaks, run_stores_peaks {} HeightPolicy.validate_default smallWords tidalRun hroom⟩

end SkipList

end IndexedSkipList
