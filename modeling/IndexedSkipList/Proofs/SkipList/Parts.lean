/-
**Batches and the single changes they are made of.**

A run goes through moments: before each command there is a list, and the command has an outcome.  A
batch is one command, but it goes through the moments of its single changes; it ends where their run
ends, and reports what they report, one after the other.  So whatever is known of single commands
and goes on from each to the next one is known of batches.

Main definitions:

* `Moment`, `SkipList.moments` — the list before a command, the command and its outcome, in a run;
* `SkipList.last`, `SkipList.log` — the list at the end of a run, and the events on the way;
* `SkipList.Single` — a command that is no batch and does not drop the entries.

Main results:

* `SkipList.single_of_mem_parts` — every command but clearing consists of single ones;
* `SkipList.sumsUp_insertAll`, `SkipList.sumsUp_batch` — batches of changes;
* `SkipList.sumsUp_parts` — **a command amounts to the run of its parts**.
-/

import IndexedSkipList.Proofs.SkipList.Safety

set_option relaxedAutoImplicit false
set_option autoImplicit false

namespace IndexedSkipList

variable {K V R : Type}

/-- A moment of a run: the list before a command, the command and its outcome. -/
structure Moment (K V R : Type) where
  before : SkipList K V R
  command : Command K V
  outcome : Outcome (SkipList K V R) (Answer K V)

namespace SkipList

/-! ### Single commands -/

/-- A question leaves the list as it is, and is not reported. -/
theorem of_answering {A B : Type} {list : SkipList K V R} {answer : A → B}
    {question : Except Fault A} {outcome : Outcome (SkipList K V R) B}
    (h : list.answering answer question = .ok outcome) :
    outcome.after = list ∧ outcome.events = [] := by
  obtain ⟨a, _, h⟩ := Fault.bind_eq_ok_iff.1 h
  obtain rfl := Except.ok.inj h
  exact ⟨rfl, rfl⟩

/-- What is known of the list after a change and of its events is known in whatever form the answer
is given. -/
theorem of_changing {A B : Type} {answer : A → B}
    {change : Except Fault (Outcome (SkipList K V R) A)} {outcome : Outcome (SkipList K V R) B}
    (good : SkipList K V R → List Event → Prop) (h : changing answer change = .ok outcome)
    (hgood : ∀ one, change = .ok one → good one.after one.events) :
    good outcome.after outcome.events := by
  obtain ⟨one, hone, h⟩ := Fault.bind_eq_ok_iff.1 h
  obtain rfl := Except.ok.inj h
  exact hgood one hone

/-- The command is its own only part, and does not drop the entries. -/
def Single (command : Command K V) : Prop := command.parts = [command] ∧ command ≠ .clear

/-- Every command but clearing consists of single ones. -/
theorem single_of_mem_parts {command part : Command K V} (hclear : command ≠ .clear)
    (hpart : part ∈ command.parts) : Single part := by
  cases command with
  | clear => exact absurd rfl hclear
  | insertAll items | insertEach items | removeEach items =>
      obtain ⟨item, _, rfl⟩ := List.mem_map.1 hpart
      exact ⟨rfl, by simp⟩
  | _ =>
      obtain rfl := List.mem_singleton.1 hpart
      exact ⟨rfl, hclear⟩

/-- A batch is not among the changes it is made of. -/
theorem not_single_of_map {A : Type} {command : Command K V} {part : A → Command K V}
    {items : List A} (hparts : command.parts = items.map part)
    (hpart : ∀ item, part item ≠ command) : ¬ Single command := by
  rintro ⟨hself, _⟩
  rw [hparts, List.map_eq_singleton_iff] at hself
  obtain ⟨item, _, hitem⟩ := hself
  exact hpart item hitem

/-! ### Runs, moment by moment -/

variable [Ord K] [Printable K] [Printable V] [BEq V] [WordSource R]
variable {list : SkipList K V R} {command : Command K V} {commands : List (Command K V)}
  {outcome : Outcome (SkipList K V R) (Answer K V)}

/-- **The moments of a run**, up to the first fault. -/
def moments (list : SkipList K V R) : List (Command K V) → List (Moment K V R)
  | [] => []
  | command :: commands =>
      match list.step command with
      | .ok outcome => { before := list, command, outcome } :: outcome.after.moments commands
      | .error _ => []

theorem moments_cons (h : list.step command = .ok outcome) (commands : List (Command K V)) :
    list.moments (command :: commands) =
      { before := list, command, outcome } :: outcome.after.moments commands := by
  simp only [moments, h]

/-- The list at the end of a run, or before the command that fails. -/
def last (list : SkipList K V R) (commands : List (Command K V)) : SkipList K V R :=
  (list.states commands).getLast (by simp [states])

theorem last_cons (h : list.step command = .ok outcome) (commands : List (Command K V)) :
    list.last (command :: commands) = outcome.after.last commands := by
  simp only [last, states_cons h]
  exact List.getLast_cons _

/-- The events of a run, in their order. -/
def log (list : SkipList K V R) (commands : List (Command K V)) : List Event :=
  (list.moments commands).flatMap fun moment => moment.outcome.events

theorem log_cons (h : list.step command = .ok outcome) (commands : List (Command K V)) :
    list.log (command :: commands) = outcome.events ++ outcome.after.log commands := by
  rw [log, moments_cons h, List.flatMap_cons]
  rfl

/-! ### Batches -/

/-- **The run of the commands ends at `after` and reports `events`.** -/
structure SumsUp (list : SkipList K V R) (commands : List (Command K V)) (after : SkipList K V R)
    (events : List Event) : Prop where
  last_eq : list.last commands = after
  log_eq : list.log commands = events

theorem sumsUp_nil (list : SkipList K V R) : list.SumsUp [] list [] := ⟨rfl, rfl⟩

/-- One command more at the beginning. -/
theorem SumsUp.cons {after : SkipList K V R} {events : List Event}
    (hstep : list.step command = .ok outcome) (h : outcome.after.SumsUp commands after events) :
    list.SumsUp (command :: commands) after (outcome.events ++ events) where
  last_eq := (last_cons hstep commands).trans h.last_eq
  log_eq := by rw [log_cons hstep, h.log_eq]

theorem sumsUp_insertAll {entries : List (K × V)} {outcome : Outcome (SkipList K V R) Unit}
    (h : list.insertAll entries = .ok outcome) :
    list.SumsUp (Command.insertAll entries).parts outcome.after outcome.events := by
  induction entries generalizing list outcome with
  | nil =>
      obtain rfl := Except.ok.inj h
      exact sumsUp_nil list
  | cons entry entries ih =>
      obtain ⟨key, value⟩ := entry
      rw [insertAll] at h
      obtain ⟨one, hone, h⟩ := Fault.bind_eq_ok_iff.1 h
      obtain ⟨rest, hrest, h⟩ := Fault.bind_eq_ok_iff.1 h
      obtain rfl := Except.ok.inj h
      have hstep : list.step (.insert key value) =
          .ok { one with answer := .value one.answer } := by
        rw [step, hone]
        rfl
      exact .cons hstep (ih hrest)

/-- A batch of changes adds its events to those that there were before. -/
theorem sumsUp_changeEach {A B : Type}
    {change : SkipList K V R → A → Except Fault (Outcome (SkipList K V R) B)} {counts : B → Bool}
    {part : A → Command K V} {answer : B → Answer K V}
    (hpart : ∀ (list : SkipList K V R) item,
      list.step (part item) = changing answer (change list item))
    {items : List A} {batch : Batch} {events : List Event}
    {outcome : Outcome (SkipList K V R) Batch}
    (h : changeEach change counts items { answer := batch, after := list, events } = .ok outcome) :
    ∃ more, outcome.events = events ++ more ∧
      list.SumsUp (items.map part) outcome.after more := by
  induction items generalizing list batch events with
  | nil =>
      obtain rfl := Except.ok.inj h
      exact ⟨[], (List.append_nil events).symm, sumsUp_nil list⟩
  | cons item items ih =>
      rw [changeEach] at h
      obtain ⟨one, hone, h⟩ := Fault.bind_eq_ok_iff.1 h
      have hstep : list.step (part item) = .ok { one with answer := answer one.answer } := by
        rw [hpart, hone]
        rfl
      obtain ⟨more, hevents, hrest⟩ := ih h
      exact ⟨one.events ++ more, by rw [hevents, List.append_assoc], .cons hstep hrest⟩

/-- A batch of changes that starts without events has those of its changes. -/
theorem sumsUp_batch {A B : Type}
    {change : SkipList K V R → A → Except Fault (Outcome (SkipList K V R) B)} {counts : B → Bool}
    {part : A → Command K V} {answer : B → Answer K V}
    (hpart : ∀ (list : SkipList K V R) item,
      list.step (part item) = changing answer (change list item))
    {items : List A} {outcome : Outcome (SkipList K V R) Batch}
    (h : changeEach change counts items { answer := {}, after := list } = .ok outcome) :
    list.SumsUp (items.map part) outcome.after outcome.events := by
  obtain ⟨more, hevents, hsums⟩ := sumsUp_changeEach hpart h
  rw [hevents]
  exact hsums

/-- **A command amounts to the run of its parts.** -/
theorem sumsUp_parts (h : list.step command = .ok outcome) :
    list.SumsUp command.parts outcome.after outcome.events := by
  cases command with
  | insertAll new =>
      have hchange : changing (fun _ => Answer.nothing) (list.insertAll new) = .ok outcome := h
      exact of_changing (list.SumsUp _) hchange fun one hone => sumsUp_insertAll hone
  | insertEach new =>
      exact of_changing (list.SumsUp _) h fun one hone => sumsUp_batch (fun _ _ => rfl) hone
  | removeEach targets =>
      exact of_changing (list.SumsUp _) h fun one hone => sumsUp_batch (fun _ _ => rfl) hone
  | _ =>
      have hsums := SumsUp.cons h (sumsUp_nil outcome.after)
      rwa [List.append_nil] at hsums

end SkipList

end IndexedSkipList
