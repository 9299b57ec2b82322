/-
**Runs follow the references, and what can be reached represents a row.**

What holds for one command holds for a run, by induction on the commands: a list that shows a
profile follows it through the whole run, and so it gives the answers that the dictionary knows and
goes through the entries that the dictionary goes through.  A run starts with a list without entries
whose policy is accepted; its targets agree with the order of the keys, and at no time are there as
many entries as ids.

Main definitions:

* `SkipList.states` — the list at the start of a run and after each of its commands;
* `SkipList.Reachable` — the lists that runs lead to.

Main results:

* `Dictionary.sorted_history` — the dictionary is sorted after every command;
* `Profile.run_history` — the profile refines the dictionary through every run;
* `SkipList.Shows.run` — **a list follows its profile through every run**;
* `SkipList.run_meets` — **a list refines the dictionary through every run**;
* `SkipList.Reachable.represents` — **reachable lists represent rows**.
-/

import IndexedSkipList.Proofs.SkipList.Simulation
import IndexedSkipList.Proofs.Trace

set_option relaxedAutoImplicit false
set_option autoImplicit false

namespace IndexedSkipList

variable {K V R : Type} [Ord K] [Printable K] [Printable V] [BEq V]

/-! ### The references -/

namespace Dictionary

omit [Printable K] [Printable V] [BEq V] in
@[simp] theorem length_history (entries : List (K × V)) (commands : List (Command K V)) :
    (history entries commands).length = commands.length := by
  induction commands generalizing entries with
  | nil => rfl
  | cons command commands ih => exact congrArg (· + 1) (ih _)

omit [Printable K] [Printable V] [BEq V] in
/-- **After every command the entries are sorted.** -/
theorem sorted_history [Std.TransOrd K] {entries : List (K × V)} (h : Sorted entries)
    (commands : List (Command K V)) :
    ∀ moment ∈ history entries commands, Sorted (after moment.2 moment.1) := by
  induction commands generalizing entries with
  | nil => simp [history]
  | cons command commands ih =>
      have hafter := sorted_after h command
      exact List.forall_mem_cons.2 ⟨hafter, ih hafter⟩

end Dictionary

namespace Profile

variable [WordSource R]

/-- **The profile refines the dictionary through every run.** -/
theorem run_history (profile : Profile K V R) (commands : List (Command K V)) :
    List.Forall₂ (fun outcome moment =>
        outcome.after.entries = Dictionary.after moment.2 moment.1 ∧
        ∀ answer, Dictionary.answer? moment.2 moment.1 = some answer → outcome.answer = answer)
      (profile.run commands) (Dictionary.history profile.entries commands) := by
  induction commands generalizing profile with
  | nil => exact .nil
  | cons command commands ih =>
      refine .cons ⟨entries_step profile command, fun _ => answer_step profile command⟩ ?_
      rw [← entries_step]
      exact ih _

/-- The columns fit if the entries do. -/
theorem fits_run {profile : Profile K V R} {commands : List (Command K V)}
    (h : ∀ moment ∈ Dictionary.history profile.entries commands,
      (Dictionary.after moment.2 moment.1).length < Pool.capacity) :
    ∀ outcome ∈ profile.run commands, outcome.after.Fits := by
  intro outcome houtcome
  obtain ⟨moment, hmoment, hentries, _⟩ :=
    exists_of_forall₂ (profile.run_history commands) houtcome
  rw [Fits, ← length_entries, hentries]
  exact h moment hmoment

end Profile

/-! ### Lists -/

namespace SkipList

omit [Printable K] [Printable V] [BEq V] in
/-- A list without entries shows the profile without columns. -/
theorem shows_blank {policy : HeightPolicy} (h : policy.validate = .ok ()) (source : R) :
    (blank policy source : SkipList K V R).Shows { columns := [], policy, source } :=
  ⟨[], [], represents_blank h source, rfl⟩

variable [WordSource R]

/-- **A list follows its profile through every run.** -/
theorem Shows.run [Std.TransOrd K] {list : SkipList K V R} {profile : Profile K V R}
    (h : list.Shows profile) {commands : List (Command K V)}
    (hlawful : ∀ command ∈ commands, command.Lawful)
    (hfits : ∀ outcome ∈ profile.run commands, outcome.after.Fits) :
    List.Forall₂ Follows (list.run commands) (profile.run commands) := by
  induction commands generalizing list profile with
  | nil => exact .nil
  | cons command commands ih =>
      obtain ⟨hfirst, hrest⟩ := List.forall_mem_cons.1 hfits
      obtain ⟨hlawful, hlawfulrest⟩ := List.forall_mem_cons.1 hlawful
      obtain ⟨after, hstep, hafter⟩ := h.step hlawful hfirst
      rw [SkipList.run, hstep]
      exact .cons ⟨after, rfl, hafter⟩ (ih hafter hlawfulrest hrest)

/-- The outcome of a command is what the dictionary says: the list represents the entries after the
command, and the answer is that of the dictionary, where the dictionary knows one. -/
def Meets (outcome : Outcome (SkipList K V R) (Answer K V))
    (moment : Command K V × List (K × V)) : Prop :=
  ∃ sites vacant, outcome.after.Represents sites vacant ∧
    entriesOf sites = Dictionary.after moment.2 moment.1 ∧
    ∀ answer, Dictionary.answer? moment.2 moment.1 = some answer → outcome.answer = answer

/-- **A list refines the dictionary through every run**, and no command of the run fails. -/
theorem run_meets [Std.TransOrd K] {policy : HeightPolicy} (hpolicy : policy.validate = .ok ())
    (source : R) {commands : List (Command K V)} (hlawful : ∀ command ∈ commands, command.Lawful)
    (hfits : Dictionary.Fits commands) :
    ∃ outcomes, (blank policy source : SkipList K V R).run commands = outcomes.map .ok ∧
      List.Forall₂ Meets outcomes (Dictionary.history [] commands) := by
  have hprofile := Profile.run_history (R := R) { columns := [], policy, source } commands
  have hshows := (shows_blank (K := K) (V := V) hpolicy source).run hlawful
    (Profile.fits_run (by exact hfits))
  refine exists_map_ok (forall₂_comp ?_ hshows hprofile)
  rintro result outcome moment ⟨after, rfl, sites, vacant, hrow, hafter⟩ ⟨hentries, hanswer⟩
  refine ⟨_, rfl, sites, vacant, hrow, ?_, hanswer⟩
  rw [← hentries, hafter, entries_profileOf]

/-! ### Reachable lists -/

/-- The list at the start of a run and after each of its commands. -/
def states (list : SkipList K V R) (commands : List (Command K V)) : List (SkipList K V R) :=
  list :: (list.run commands).filterMap fun result => result.toOption.map (·.after)

/-- Where no command fails, each state but the first is that of an outcome. -/
theorem exists_outcome_of_mem_states {list state : SkipList K V R} {commands : List (Command K V)}
    {outcomes : List (Outcome (SkipList K V R) (Answer K V))}
    (hrun : list.run commands = outcomes.map .ok) (hmem : state ∈ list.states commands) :
    state = list ∨ ∃ outcome ∈ outcomes, outcome.after = state := by
  rcases List.mem_cons.1 hmem with rfl | hmem
  · exact Or.inl rfl
  · obtain ⟨result, hresult, hafter⟩ := List.mem_filterMap.1 hmem
    rw [hrun] at hresult
    obtain ⟨outcome, houtcome, rfl⟩ := List.mem_map.1 hresult
    exact Or.inr ⟨outcome, houtcome, Option.some.inj hafter⟩

/-- **The list is one that a run leads to**: it starts without entries and with an accepted policy,
the targets agree with the order of the keys, and at no time are there as many entries as ids. -/
def Reachable (list : SkipList K V R) : Prop :=
  ∃ (policy : HeightPolicy) (source : R) (commands : List (Command K V)),
    policy.validate = .ok () ∧ (∀ command ∈ commands, command.Lawful) ∧
    Dictionary.Fits commands ∧ list ∈ (blank policy source).states commands

/-- A reachable list represents a row, and there are ids for more entries than the row has. -/
theorem Reachable.exists_row [Std.TransOrd K] {list : SkipList K V R} (h : list.Reachable) :
    ∃ sites vacant, list.Represents sites vacant ∧ sites.length < Pool.capacity := by
  obtain ⟨policy, source, commands, hpolicy, hlawful, hfits, hmem⟩ := h
  obtain ⟨outcomes, hrun, hmeets⟩ := run_meets hpolicy source hlawful hfits
  rcases exists_outcome_of_mem_states hrun hmem with rfl | ⟨outcome, houtcome, rfl⟩
  · exact ⟨[], [], represents_blank hpolicy source, show 0 < Pool.capacity by decide⟩
  · obtain ⟨moment, hmoment, sites, vacant, hrow, hentries, _⟩ := exists_of_forall₂ hmeets houtcome
    refine ⟨sites, vacant, hrow, ?_⟩
    rw [← length_entriesOf, hentries]
    exact hfits moment hmoment

/-- **Reachable lists represent rows.** -/
theorem Reachable.represents [Std.TransOrd K] {list : SkipList K V R} (h : list.Reachable) :
    ∃ sites vacant, list.Represents sites vacant := by
  obtain ⟨sites, vacant, hrow, _⟩ := h.exists_row
  exact ⟨sites, vacant, hrow⟩

/-! ### A small run -/

/-- Words by which heights differ. -/
def smallWords : CyclicWords :=
  { words := #[0, 0, 0xffffffff, 0xffffffff, 0, 0xffffffff, 0xffffffff, 0xffffffff] }

/-- A run that sets keys, writes over one, takes keys out, the tallest of them too, and asks. -/
def smallRun : List (Command Nat Nat) :=
  [.insert 5 50, .insert 3 30, .insertAll [(8, 80), (1, 10)], .insert 3 31, .rank (.of 8),
    .remove (.of 5), .removeEntry (.of 7), .select 2, .scan [.next, .nth 4, .count], .insert 6 60]

theorem smallRun_lawful : ∀ command ∈ smallRun, command.Lawful := by
  simp [smallRun, Command.Lawful, Command.targets, Target.agrees_of]

theorem smallRun_fits : Dictionary.Fits smallRun := by
  unfold Dictionary.Fits
  decide

/-- The list at the end of the small run. -/
def smallList : SkipList Nat Nat CyclicWords :=
  ((blank {} smallWords).states smallRun).getLast (by simp [states])

theorem smallList_reachable : smallList.Reachable :=
  ⟨{}, smallWords, smallRun, HeightPolicy.validate_default, smallRun_lawful, smallRun_fits,
    List.getLast_mem _⟩

theorem smallList_entries : smallList.entries = .ok [(1, 10), (3, 31), (6, 60), (8, 80)] := by
  decide +kernel

end SkipList

end IndexedSkipList
