/-
**No command fails.**

As long as there are fewer entries than ids at every moment, no command of a run fails: no link
leads to a vacant slot, no node is released twice, no place beyond a tower, beyond the head or
beyond the room of a path is asked for, and no counter falls below zero or grows too large.

None of this depends on the order of the keys.  A comparison that is not transitive, or a target
that judges the keys in its own way, may lead a search astray, but every search ends somewhere in
the row that the list holds, and there a node can be put in or taken out like anywhere else.  So a
list stays intact, which is to say that it goes on to hold a row, only that the row need not be
sorted.

What happens between the single changes of a command that makes several is looked at in the run of
the single changes, one after the other.

Main definitions:

* `SkipList.Intact` — the list holds some row;
* `Command.parts` — the single changes that a command consists of;
* `SkipList.Roomy` — at no moment of a run are there as many entries as ids;
* `SkipList.RunSucceeds` — no command of a run fails.

Main results:

* `SkipList.Holds.insert_cases`, `SkipList.Holds.replace_cases`,
  `SkipList.Holds.removeEntry_cases` — what changes do to the row, wherever a search ends;
* `SkipList.Intact.insert`, `SkipList.Intact.replace`, `SkipList.Intact.removeEntry` — changes
  succeed and leave the list intact;
* `SkipList.Intact.step` — **so does every command**;
* `SkipList.run_succeeds` — **no command of a run fails**.
-/

import IndexedSkipList.Proofs.SkipList.Runs

set_option relaxedAutoImplicit false
set_option autoImplicit false

namespace IndexedSkipList

variable {K V R : Type}

namespace SkipList

/-! ### Searches that may be led astray -/

namespace Holds

variable {list : SkipList K V R} {sites : List (Site K V)} {vacant : List NodeId}

/-- **Every search ends before a site that meets the target, or before none that does.** -/
theorem search_cases (h : list.Holds sites vacant) (target : Target K) :
    (∃ behind ahead, sites = behind ++ ahead ∧
      list.stopsBelow target = .ok (stopsAt list.height behind) ∧
      ∀ site ∈ ahead.head?, target site.key ≠ .eq) ∨
    ∃ behind site ahead, sites = behind ++ site :: ahead ∧
      list.stopsBelow target = .ok (stopsAt list.height behind) ∧ target site.key = .eq := by
  obtain ⟨behind, ahead, hsites, hstops⟩ := h.stopsBelow_within target
  cases ahead with
  | nil => exact Or.inl ⟨behind, [], hsites, hstops, by simp⟩
  | cons site ahead =>
      by_cases hmet : target site.key = .eq
      · exact Or.inr ⟨behind, site, ahead, hsites, hstops, hmet⟩
      · exact Or.inl ⟨behind, site :: ahead, hsites, hstops, by simpa using hmet⟩

/-- What is found under a target is a node of the list. -/
theorem find?_within (h : list.Holds sites vacant) (target : Target K) :
    list.find? target = .ok none ∨
      ∃ id node, list.find? target = .ok (some id) ∧ list.lanes.pool.get id = .ok node := by
  rcases h.search_cases target with
    ⟨behind, ahead, rfl, hstops, hunmet⟩ | ⟨behind, site, ahead, rfl, hstops, hmet⟩
  · exact Or.inl (by simp [find?, hstops, h.matching?_unmet rfl hunmet])
  · obtain ⟨node, hnode, _⟩ := h.lanes.houses.exists_node
      (show site ∈ behind ++ site :: ahead by simp)
    exact Or.inr ⟨site.id, node, by simp [find?, hstops, h.matching?_met rfl hmet],
      Pool.get_eq_ok_iff.2 hnode⟩

/-! ### Questions -/

theorem get?_within (h : list.Holds sites vacant) (target : Target K) :
    ∃ value, list.get? target = .ok value := by
  rcases h.find?_within target with hnone | ⟨id, node, hfind, hnode⟩
  · exact ⟨none, by simp [get?, hnone]⟩
  · exact ⟨some node.value, by simp [get?, hfind, hnode]⟩

theorem entry?_within (h : list.Holds sites vacant) (target : Target K) :
    ∃ found, list.entry? target = .ok found := by
  rcases h.find?_within target with hnone | ⟨id, node, hfind, hnode⟩
  · exact ⟨none, by simp [ entry?, hnone]⟩
  · exact ⟨some node.entry, by simp [ entry?, hfind, hnode]⟩

theorem contains_within (h : list.Holds sites vacant) (target : Target K) :
    ∃ yes, list.contains target = .ok yes := by
  refine Fault.exists_bind_ok ?_ fun _ => ⟨_, rfl⟩
  rcases h.find?_within target with hnone | ⟨id, node, hfind, _⟩
  · exact ⟨none, hnone⟩
  · exact ⟨some id, hfind⟩

/-- A rank fits a counter, since it is at most the number of entries. -/
theorem rank_within (h : list.Holds sites vacant) (target : Target K) :
    ∃ rank, list.rank target = .ok rank := by
  rcases h.search_cases target with
    ⟨behind, ahead, rfl, hstops, hunmet⟩ | ⟨behind, site, ahead, rfl, hstops, hmet⟩
  · exact ⟨0, by simp [rank, hstops, h.matching?_unmet rfl hunmet]⟩
  · have hlt := h.length_lt_bound
    rw [List.length_append, List.length_cons] at hlt
    have hadd : Counter.add behind.length 1 = .ok (behind.length + 1) :=
      Counter.add_eq_ok (by omega)
    have hmatching := h.matching?_met rfl hmet
    rw [h.base_eq rfl] at hmatching
    refine ⟨behind.length + 1, ?_⟩
    simp only [rank, hstops, Fault.ok_bind, h.base_eq rfl, hmatching, stopAfter_rank, hadd]

theorem getEach_within (h : list.Holds sites vacant) (targets : List (Target K)) :
    ∃ values, list.getEach targets = .ok values :=
  Fault.exists_mapM_ok fun target _ => h.get?_within target

theorem rankEach_within (h : list.Holds sites vacant) (targets : List (Target K)) :
    ∃ ranks, list.rankEach targets = .ok ranks :=
  Fault.exists_mapM_ok fun target _ => h.rank_within target

theorem ranks_within [Ord K] (h : list.Holds sites vacant) : ∃ ranks, list.ranks = .ok ranks := by
  rw [ranks, h.entries_eq, Fault.ok_bind]
  exact h.rankEach_within _

theorem agreesAt_within [Ord K] [BEq V] (h : list.Holds sites vacant) (place : Nat)
    (entry : K × V) : ∃ agrees, list.agreesAt place entry = .ok agrees := by
  rw [agreesAt, h.select_eq, Fault.ok_bind]
  exact Fault.exists_bind_ok (h.rank_within (.of entry.1)) fun _ => ⟨_, rfl⟩

theorem audit_within [Ord K] [BEq V] (h : list.Holds sites vacant) :
    ∃ found, list.audit = .ok found := by
  rw [audit, h.entries_eq, Fault.ok_bind]
  refine Fault.exists_bind_ok (Fault.exists_mapM_ok fun item _ => ?_) fun _ => ⟨_, rfl⟩
  exact Fault.exists_bind_ok (h.agreesAt_within item.2 item.1) fun _ => ⟨_, rfl⟩

/-! ### Changes -/

/-- **What setting a key does**: a site is put in somewhere, or the value of one is written over. -/
theorem insert_cases [Ord K] [WordSource R] (h : list.Holds sites vacant)
    (hroom : sites.length < Pool.capacity) (key : K) (value : V) :
    ∃ outcome, list.insert key value = .ok outcome ∧
      ((∃ behind site ahead, sites = behind ++ ahead ∧
        outcome.after.Holds (behind ++ site :: ahead) vacant.tail ∧
        outcome.events =
          if list.height < site.height then [.grew list.height site.height] else []) ∨
      ∃ behind site ahead, sites = behind ++ site :: ahead ∧
        outcome.after.Holds (behind ++ { site with value } :: ahead) vacant ∧
        outcome.events = []) := by
  rcases h.search_cases (.of key) with
    ⟨behind, ahead, rfl, hstops, hunmet⟩ | ⟨behind, site, ahead, rfl, hstops, hmet⟩
  · obtain ⟨site, rfl, rfl, hid, hdraw⟩ := list.exists_newSite vacant key value
    obtain ⟨after, hinsert, hafter, _⟩ := h.insert_unmet hstops hunmet hroom hid hdraw
    exact ⟨_, hinsert, Or.inl ⟨behind, site, ahead, rfl, hafter, rfl⟩⟩
  · obtain ⟨after, hinsert, hafter, _⟩ := h.insert_met hstops hmet value
    exact ⟨_, hinsert, Or.inr ⟨behind, site, ahead, rfl, hafter, rfl⟩⟩

/-- **What writing through a target does**: nothing, or the value of a site is written over. -/
theorem replace_cases (h : list.Holds sites vacant) (target : Target K) (value : V) :
    ∃ outcome, list.replace target value = .ok outcome ∧ outcome.events = [] ∧
      (outcome.after = list ∨ ∃ behind site ahead, sites = behind ++ site :: ahead ∧
        outcome.after.Holds (behind ++ { site with value } :: ahead) vacant) := by
  rcases h.search_cases target with
    ⟨behind, ahead, rfl, hstops, hunmet⟩ | ⟨behind, site, ahead, rfl, hstops, hmet⟩
  · exact ⟨_, h.replace_unmet hstops hunmet value, rfl, Or.inl rfl⟩
  · obtain ⟨after, hreplace, hafter, _⟩ := h.replace_met hstops hmet value
    exact ⟨_, hreplace, rfl, Or.inr ⟨behind, site, ahead, rfl, hafter⟩⟩

/-- **What removing a key does**: nothing, or a site is taken out. -/
theorem removeEntry_cases (h : list.Holds sites vacant) (target : Target K) :
    ∃ outcome, list.removeEntry target = .ok outcome ∧
      ((outcome.after = list ∧ outcome.events = []) ∨
      ∃ behind site ahead, sites = behind ++ site :: ahead ∧
        outcome.after.Holds (behind ++ ahead) (site.id :: vacant) ∧
        outcome.events = if outcome.after.height ≠ list.height then
          [.shrank list.height outcome.after.height] else []) := by
  rcases h.search_cases target with
    ⟨behind, ahead, rfl, hstops, hunmet⟩ | ⟨behind, site, ahead, rfl, hstops, hmet⟩
  · exact ⟨_, h.removeEntry_unmet hstops hunmet, Or.inl ⟨rfl, rfl⟩⟩
  · obtain ⟨after, hremove, hafter, _⟩ := h.removeEntry_met hstops hmet
    exact ⟨_, hremove, Or.inr ⟨behind, site, ahead, rfl, hafter, rfl⟩⟩

end Holds

/-! ### Single changes -/

/-- **The list holds some row**, whether its keys are in order or not. -/
def Intact (list : SkipList K V R) : Prop := ∃ sites vacant, list.Holds sites vacant

/-- A list with nothing in it holds the empty row. -/
theorem intact_blank {policy : HeightPolicy} (h : policy.validate = .ok ()) (source : R) :
    (blank policy source : SkipList K V R).Intact :=
  ⟨[], [], holds_blank h source⟩

namespace Intact

variable {list : SkipList K V R}

theorem replace (h : list.Intact) (target : Target K) (value : V) :
    ∃ outcome, list.replace target value = .ok outcome ∧ outcome.after.Intact := by
  obtain ⟨sites, vacant, hrow⟩ := id h
  obtain ⟨outcome, houtcome, _, hkept | ⟨_, _, _, _, hafter⟩⟩ := hrow.replace_cases target value
  · exact ⟨outcome, houtcome, hkept ▸ h⟩
  · exact ⟨outcome, houtcome, _, _, hafter⟩

/-- **Removing a key succeeds**, also where a search for it is led astray. -/
theorem removeEntry (h : list.Intact) (target : Target K) :
    ∃ outcome, list.removeEntry target = .ok outcome ∧ outcome.after.Intact := by
  obtain ⟨sites, vacant, hrow⟩ := id h
  obtain ⟨outcome, houtcome, ⟨hkept, _⟩ | ⟨_, _, _, _, hafter, _⟩⟩ := hrow.removeEntry_cases target
  · exact ⟨outcome, houtcome, hkept ▸ h⟩
  · exact ⟨outcome, houtcome, _, _, hafter⟩

theorem remove (h : list.Intact) (target : Target K) :
    ∃ outcome, list.remove target = .ok outcome ∧ outcome.after.Intact := by
  obtain ⟨outcome, houtcome, hafter⟩ := h.removeEntry target
  exact ⟨{ outcome with answer := outcome.answer.isSome },
    by simp [SkipList.remove, houtcome], hafter⟩

/-- **Setting a value succeeds**, as long as there are ids left. -/
theorem insert [Ord K] [WordSource R] (h : list.Intact) (hroom : list.size < Pool.capacity)
    (key : K) (value : V) :
    ∃ outcome, list.insert key value = .ok outcome ∧ outcome.after.Intact := by
  obtain ⟨sites, vacant, hrow⟩ := h
  rw [hrow.size_eq] at hroom
  obtain ⟨outcome, houtcome, ⟨_, _, _, _, hafter, _⟩ | ⟨_, _, _, _, hafter, _⟩⟩ :=
    hrow.insert_cases hroom key value
  · exact ⟨outcome, houtcome, _, _, hafter⟩
  · exact ⟨outcome, houtcome, _, _, hafter⟩

theorem clear (h : list.Intact) : list.clear.Intact := by
  obtain ⟨sites, vacant, hrow⟩ := h
  exact ⟨[], [], hrow.clear⟩

/-- A visit succeeds, whoever visits. -/
theorem ascend (h : list.Intact) {S : Type} (visitor : S → K × V → Bool × S) (state : S) :
    ∃ state', list.ascend visitor state = .ok state' := by
  obtain ⟨sites, vacant, hrow⟩ := h
  exact ⟨_, hrow.ascend_eq visitor state⟩

end Intact

end SkipList

/-! ### Commands as single changes -/

/-- **The single changes of a command that makes several**; other commands are their only part. -/
def Command.parts : Command K V → List (Command K V)
  | .insertAll new => new.map fun (key, value) => .insert key value
  | .insertEach new => new.map fun (key, value) => .insert key value
  | .removeEach targets => targets.map .remove
  | command => [command]

namespace SkipList

variable [Ord K] [Printable K] [Printable V] [BEq V] [WordSource R]

/-- **At no moment of the run are there as many entries as ids.** -/
def Roomy (list : SkipList K V R) (commands : List (Command K V)) : Prop :=
  ∀ state ∈ list.states commands, state.size < Pool.capacity

/-- The list is intact and has room for a run of the commands. -/
def Ready (commands : List (Command K V)) (list : SkipList K V R) : Prop :=
  list.Intact ∧ list.Roomy commands

variable {list : SkipList K V R} {commands : List (Command K V)}

/-- After the first command, the states are those of the run of the others. -/
theorem states_cons {command : Command K V} {outcome : Outcome (SkipList K V R) (Answer K V)}
    (h : list.step command = .ok outcome) :
    list.states (command :: commands) = list :: outcome.after.states commands := by
  simp [states, run, h, Except.toOption]

theorem Roomy.size_lt (h : list.Roomy commands) : list.size < Pool.capacity :=
  h list (List.mem_cons_self ..)

theorem Roomy.after {command : Command K V} {outcome : Outcome (SkipList K V R) (Answer K V)}
    (h : list.Roomy (command :: commands)) (hstep : list.step command = .ok outcome) :
    outcome.after.Roomy commands := by
  rw [Roomy, states_cons hstep] at h
  exact fun state hstate => h state (List.mem_cons_of_mem _ hstate)

omit [Ord K] [Printable K] [Printable V] [BEq V] [WordSource R] in
/-- A change with another form of its answer succeeds as well, and leaves a list that is as good. -/
theorem exists_changing {A B : Type} {change : Except Fault (Outcome (SkipList K V R) A)}
    {f : A → B} (good : SkipList K V R → Prop)
    (h : ∃ outcome, change = .ok outcome ∧ good outcome.after) :
    ∃ outcome, changing f change = .ok outcome ∧ good outcome.after := by
  obtain ⟨outcome, rfl, hgood⟩ := h
  exact ⟨_, rfl, hgood⟩

namespace Intact

/-- **A batch of changes succeeds** if each of its changes does.  The batch has the states of the
commands `part item` that make its changes one by one. -/
theorem changeEach {A B : Type}
    {change : SkipList K V R → A → Except Fault (Outcome (SkipList K V R) B)} {counts : B → Bool}
    {part : A → Command K V} {answer : B → Answer K V}
    (hpart : ∀ (list : SkipList K V R) item,
      list.step (part item) = changing answer (change list item))
    (hchange : ∀ (list : SkipList K V R) item, list.Intact → list.size < Pool.capacity →
      ∃ outcome, change list item = .ok outcome ∧ outcome.after.Intact)
    (h : list.Intact) {items : List A} (hroom : list.Roomy (items.map part ++ commands))
    (batch : Batch) (events : List Event) :
    ∃ outcome, changeEach change counts items { answer := batch, after := list, events } =
      .ok outcome ∧ outcome.after.Ready commands := by
  induction items generalizing list batch events with
  | nil => exact ⟨_, rfl, h, hroom⟩
  | cons item items ih =>
      -- the list after one change is the one after its part, so the room is known there
      obtain ⟨one, hone, hintact⟩ := hchange list item h hroom.size_lt
      have hstep : list.step (part item) = .ok { one with answer := answer one.answer } := by
        rw [hpart, hone]
        rfl
      obtain ⟨rest, hrest, hafter⟩ := ih hintact (hroom.after hstep)
        (batch.record (counts one.answer) one.after.height) (events ++ one.events)
      refine ⟨rest, ?_, hafter⟩
      rw [SkipList.changeEach, hone, Fault.ok_bind]
      exact hrest

/-- **Setting several values succeeds**, as long as there are ids left. -/
theorem insertAll (h : list.Intact) {entries : List (K × V)}
    (hroom : list.Roomy ((Command.insertAll entries).parts ++ commands)) :
    ∃ outcome, list.insertAll entries = .ok outcome ∧ outcome.after.Ready commands := by
  induction entries generalizing list with
  | nil => exact ⟨_, rfl, h, hroom⟩
  | cons entry entries ih =>
      obtain ⟨key, value⟩ := entry
      obtain ⟨one, hone, hintact⟩ := h.insert hroom.size_lt key value
      have hstep : list.step (.insert key value) =
          .ok { one with answer := .value one.answer } := by
        rw [step, hone]
        rfl
      obtain ⟨rest, hrest, hafter⟩ := ih hintact (hroom.after hstep)
      refine ⟨{ rest with events := one.events ++ rest.events }, ?_, hafter⟩
      rw [SkipList.insertAll, hone, Fault.ok_bind, hrest]
      rfl

/-! ### Commands -/

omit [Ord K] [Printable K] [Printable V] [BEq V] [WordSource R] in
/-- A question that has an answer leaves the list intact. -/
theorem answering (h : list.Intact) {A : Type} {question : Except Fault A}
    {answer : A → Answer K V} (hquestion : ∃ a, question = .ok a) :
    ∃ outcome, list.answering answer question = .ok outcome ∧ outcome.after.Intact := by
  obtain ⟨a, rfl⟩ := hquestion
  exact ⟨_, rfl, h⟩

/-- After a command that is its only part, the run goes on as it does in the run of the parts. -/
theorem of_single {command : Command K V} (hroom : list.Roomy (command.parts ++ commands))
    (hparts : command.parts = [command])
    (hstep : ∃ outcome, list.step command = .ok outcome ∧ outcome.after.Intact) :
    ∃ outcome, list.step command = .ok outcome ∧ outcome.after.Ready commands := by
  obtain ⟨outcome, hstep, hintact⟩ := hstep
  rw [hparts] at hroom
  exact ⟨outcome, hstep, hintact, hroom.after hstep⟩

/-- **Every command succeeds and leaves the list intact**, as long as there are ids left. -/
theorem step (h : list.Intact) {command : Command K V}
    (hroom : list.Roomy (command.parts ++ commands)) :
    ∃ outcome, list.step command = .ok outcome ∧ outcome.after.Ready commands := by
  obtain ⟨sites, vacant, hrow⟩ := id h
  -- batches go through their parts; every other command is its only part
  cases command with
  | insertAll new =>
      exact exists_changing (f := fun _ => Answer.nothing) (Ready commands) (h.insertAll hroom)
  | insertEach new =>
      exact exists_changing (Ready commands) (h.changeEach (fun _ _ => rfl)
        (fun _ entry h hroom => h.insert hroom entry.1 entry.2) hroom {} [])
  | removeEach targets =>
      exact exists_changing (Ready commands) (h.changeEach (fun _ _ => rfl)
        (fun _ target h _ => h.remove target) hroom {} [])
  | insert key value =>
      exact of_single hroom rfl (exists_changing Intact (h.insert hroom.size_lt key value))
  | replace target value =>
      exact of_single hroom rfl (exists_changing Intact (h.replace target value))
  | remove target => exact of_single hroom rfl (exists_changing Intact (h.remove target))
  | removeEntry target => exact of_single hroom rfl (exists_changing Intact (h.removeEntry target))
  | clear => exact of_single hroom rfl ⟨_, rfl, h.clear⟩
  | get target => exact of_single hroom rfl (h.answering (hrow.get?_within target))
  | entry target => exact of_single hroom rfl (h.answering (hrow.entry?_within target))
  | contains target => exact of_single hroom rfl (h.answering (hrow.contains_within target))
  | rank target => exact of_single hroom rfl (h.answering (hrow.rank_within target))
  | rankEach targets => exact of_single hroom rfl (h.answering (hrow.rankEach_within targets))
  | getEach targets => exact of_single hroom rfl (h.answering (hrow.getEach_within targets))
  | ranks => exact of_single hroom rfl (h.answering hrow.ranks_within)
  | audit => exact of_single hroom rfl (h.answering hrow.audit_within)
  | select place => exact of_single hroom rfl (h.answering ⟨_, hrow.select_eq place⟩)
  | selectEach first last =>
      exact of_single hroom rfl (h.answering ⟨_, hrow.selectEach_eq first last⟩)
  | first => exact of_single hroom rfl (h.answering ⟨_, hrow.first?_eq⟩)
  | last => exact of_single hroom rfl (h.answering ⟨_, hrow.last?_eq⟩)
  | isEmpty => exact of_single hroom rfl (h.answering ⟨_, rfl⟩)
  | policy => exact of_single hroom rfl (h.answering ⟨_, rfl⟩)
  | entries => exact of_single hroom rfl (h.answering ⟨_, hrow.entries_eq⟩)
  | ascendUpTo count => exact of_single hroom rfl (h.answering ⟨_, hrow.ascendUpTo_eq count⟩)
  | ascendWhileBelow target =>
      exact of_single hroom rfl (h.answering ⟨_, hrow.ascendWhileBelow_eq target⟩)
  | print block => exact of_single hroom rfl (h.answering ⟨_, hrow.printed_eq⟩)
  | scan commands => exact of_single hroom rfl (h.answering ⟨_, hrow.scan_eq commands⟩)

/-! ### Runs -/

/-- **A run from an intact list succeeds**, and all its lists are intact. -/
theorem run (h : list.Intact) (hroom : list.Roomy (commands.flatMap Command.parts)) :
    ∃ outcomes : List (Outcome (SkipList K V R) (Answer K V)),
      list.run commands = outcomes.map .ok ∧ outcomes.length = commands.length ∧
      ∀ state ∈ list.states commands, state.Intact := by
  induction commands generalizing list with
  | nil => exact ⟨[], rfl, rfl, by simpa [states, SkipList.run] using h⟩
  | cons command commands ih =>
      rw [List.flatMap_cons] at hroom
      obtain ⟨one, hstep, hintact, hrest⟩ := h.step hroom
      obtain ⟨outcomes, hrun, hlength, hstates⟩ := ih hintact hrest
      refine ⟨one :: outcomes, by simp [SkipList.run, hstep, hrun], by simp [hlength], ?_⟩
      rw [states_cons hstep]
      exact List.forall_mem_cons.2 ⟨h, hstates⟩

end Intact

/-- **No command of the run fails**, nor does a visit to the entries before it, between two commands
or after it, whoever visits them. -/
structure RunSucceeds (list : SkipList K V R) (commands : List (Command K V)) : Prop where
  answered : ∃ outcomes : List (Outcome (SkipList K V R) (Answer K V)),
    list.run commands = outcomes.map .ok ∧ outcomes.length = commands.length
  visited : ∀ state ∈ list.states commands,
    ∀ (S : Type) (visitor : S → K × V → Bool × S) (before : S),
      ∃ after, state.ascend visitor before = .ok after

/-- **No command of a run fails**, whatever the order of the keys and whatever is asked, as long as
there are fewer entries than ids at every moment.  Nor does a visit to the entries on the way. -/
theorem run_succeeds (policy : HeightPolicy) (hpolicy : policy.validate = .ok ()) (source : R)
    (commands : List (Command K V))
    (hroom : (blank policy source : SkipList K V R).Roomy (commands.flatMap Command.parts)) :
    (blank policy source : SkipList K V R).RunSucceeds commands := by
  obtain ⟨outcomes, hrun, hlength, hstates⟩ := (intact_blank hpolicy source).run hroom
  constructor
  · exact ⟨outcomes, hrun, hlength⟩
  · intro state hstate S visitor before
    exact (hstates state hstate).ascend visitor before

/-- No command of the small run fails. -/
theorem smallRun_succeeds :
    (blank {} smallWords : SkipList Nat Nat CyclicWords).Roomy (smallRun.flatMap Command.parts) ∧
      (blank {} smallWords : SkipList Nat Nat CyclicWords).RunSucceeds smallRun := by
  have hroom : (blank {} smallWords : SkipList Nat Nat CyclicWords).Roomy
      (smallRun.flatMap Command.parts) := by
    unfold Roomy
    decide +kernel
  exact ⟨hroom, run_succeeds {} HeightPolicy.validate_default smallWords smallRun hroom⟩

end SkipList

end IndexedSkipList
