/-
**The events of a run tell its heights.**

A list reports when levels come into use and when they go out of use.  Where this is reported, the
change is not done yet, or only in part: the height that is drawn is compared with the height that
the list has, and the levels that have lost their last node are counted off one by one.  In the end
a key that is set reports exactly if the height after it is greater than before, a key that is
removed reports exactly if it is less, and what is reported are these two heights.  Nothing else
reports anything, though clearing a list brings the height back to zero.

So whoever reads the events of a run, and knows when the list was cleared, knows the height at every
time: each event goes on from the height where the one before it ended, and where the list was built
or cleared in between, from zero.  It is enough to read the lines that are written of the events,
for the two heights can be read off a line.

Main definitions:

* `Event.isChange` — the event is that the height changed;
* `Command.reports` — what a single command has to report, by the heights before and after it;
* `Command.lines` — the lines that are to be written of it, word for word;
* `Event.follow`, `replay` — the heights that events tell, if they go on from each other;
* `Moment.Told`, `SkipList.Told` — a command and a run are told by their events.

Main results:

* `Event.eq_of_map_line` — lines tell events;
* `SkipList.Intact.traced_insert`, `SkipList.Intact.traced_removeEntry` — single changes;
* `SkipList.Intact.traced_run` — **the events of single commands go on from each other**;
* `SkipList.run_told` — **the events of a run tell its heights**.
-/

import IndexedSkipList.Proofs.SkipList.Storage

set_option relaxedAutoImplicit false
set_option autoImplicit false

namespace IndexedSkipList

variable {K V R : Type}

/-! ### What lines tell -/

/-- A number ends where there is a blank behind it. -/
theorem toDigits_append_blank {a a' : Nat} {rest rest' : List Char}
    (h : Nat.toDigits 10 a ++ ' ' :: rest = Nat.toDigits 10 a' ++ ' ' :: rest') :
    a = a' ∧ rest = rest' := by
  have hdigits : ∀ n rest, (Nat.toDigits 10 n ++ ' ' :: rest).takeWhile Char.isDigit =
      Nat.toDigits 10 n := by
    intro n rest
    rw [List.takeWhile_append_of_pos fun c hc =>
      Nat.isDigit_of_mem_toDigits (by decide) (by decide) hc]
    simp
  have hsame : Nat.toDigits 10 a = Nat.toDigits 10 a' := by
    rw [← hdigits a rest, h, hdigits a' rest']
  constructor
  · have hvalue := congrArg (Nat.ofDigitChars 10 · 0) hsame
    simpa only [Nat.ofDigitChars_ten_toDigits] using hvalue
  · rw [hsame] at h
    exact (List.cons.inj (List.append_cancel_left h)).2

/-- The characters of a line that tells of two heights. -/
theorem toList_heights (text : String) (before after : Nat) :
    (text ++ toString before ++ " -> " ++ toString after).toList =
      text.toList ++ (Nat.toDigits 10 before ++
        ' ' :: '-' :: '>' :: ' ' :: Nat.toDigits 10 after) := by
  simp

/-- The two heights can be read off a line. -/
theorem heights_of_line {text : String} {before after before' after' : Nat}
    (h : text ++ toString before ++ " -> " ++ toString after =
      text ++ toString before' ++ " -> " ++ toString after') :
    before = before' ∧ after = after' := by
  have hchars := congrArg String.toList h
  rw [toList_heights, toList_heights] at hchars
  obtain ⟨hbefore, hrest⟩ := toDigits_append_blank (List.append_cancel_left hchars)
  simp only [List.cons.injEq, true_and] at hrest
  have hvalue := congrArg (Nat.ofDigitChars 10 · 0) hrest
  exact ⟨hbefore, by simpa only [Nat.ofDigitChars_ten_toDigits] using hvalue⟩

namespace Event

/-- The event is that the number of levels in use changed. -/
def isChange : Event → Bool
  | .built _ => false
  | .grew _ _ | .shrank _ _ => true

theorem line_grew (before after : Nat) : (grew before after).line =
    "TRACE skip map height grew " ++ toString before ++ " -> " ++ toString after := rfl

theorem line_shrank (before after : Nat) : (shrank before after).line =
    "TRACE skip map height shrank " ++ toString before ++ " -> " ++ toString after := rfl

theorem line_grew_ne_line_shrank (before after before' after' : Nat) :
    (grew before after).line ≠ (shrank before' after').line := by
  intro h
  have hchars := congrArg String.toList h
  rw [line_grew, line_shrank, toList_heights, toList_heights] at hchars
  simp at hchars

/-- **A change of the height is told by its line.** -/
theorem eq_of_line {event event' : Event} (h : event.isChange) (h' : event'.isChange)
    (hline : event.line = event'.line) : event = event' := by
  cases event with
  | built policy => exact absurd h Bool.false_ne_true
  | grew before after =>
      cases event' with
      | built policy => exact absurd h' Bool.false_ne_true
      | grew before' after' =>
          rw [line_grew, line_grew] at hline
          obtain ⟨rfl, rfl⟩ := heights_of_line hline
          rfl
      | shrank before' after' => exact absurd hline (line_grew_ne_line_shrank _ _ _ _)
  | shrank before after =>
      cases event' with
      | built policy => exact absurd h' Bool.false_ne_true
      | grew before' after' => exact absurd hline.symm (line_grew_ne_line_shrank _ _ _ _)
      | shrank before' after' =>
          rw [line_shrank, line_shrank] at hline
          obtain ⟨rfl, rfl⟩ := heights_of_line hline
          rfl

/-- Changes one after the other are told by their lines. -/
theorem eq_of_map_line {events events' : List Event} (h : ∀ event ∈ events, event.isChange)
    (h' : ∀ event ∈ events', event.isChange) (hlines : events.map line = events'.map line) :
    events = events' := by
  induction events generalizing events' with
  | nil => exact (List.map_eq_nil_iff.1 hlines.symm).symm
  | cons event events ih =>
      cases events' with
      | nil => cases hlines
      | cons event' events' =>
          obtain ⟨hfirst, hrest⟩ := List.forall_mem_cons.1 h
          obtain ⟨hfirst', hrest'⟩ := List.forall_mem_cons.1 h'
          obtain ⟨hline, hlines⟩ := List.cons.inj hlines
          rw [eq_of_line hfirst hfirst' hline, ih hrest hrest' hlines]

end Event

/-! ### What is to be reported -/

/-- **What a single command has to report**, by the number of levels in use before it and after
it. -/
def Command.reports (before after : Nat) : Command K V → List Event
  | .insert _ _ => if before < after then [.grew before after] else []
  | .remove _ | .removeEntry _ => if after < before then [.shrank before after] else []
  | _ => []

/-- **The lines that are to be written of a single command**, by the number of levels in use before
it and after it. -/
def Command.lines (before after : Nat) : Command K V → List String
  | .insert _ _ =>
      if before < after then
        ["TRACE skip map height grew " ++ toString before ++ " -> " ++ toString after]
      else []
  | .remove _ | .removeEntry _ =>
      if after < before then
        ["TRACE skip map height shrank " ++ toString before ++ " -> " ++ toString after]
      else []
  | _ => []

/-- The lines are those of the events. -/
theorem Command.map_line_reports (command : Command K V) (before after : Nat) :
    (command.reports before after).map Event.line = command.lines before after := by
  cases command with
  | insert key value =>
      by_cases hlt : before < after
      · simp only [reports, lines, hlt, if_true, List.map_cons, List.map_nil, Event.line_grew]
      · simp only [reports, lines, hlt, if_false, List.map_nil]
  | remove target | removeEntry target =>
      by_cases hlt : after < before
      · simp only [reports, lines, hlt, if_true, List.map_cons, List.map_nil, Event.line_shrank]
      · simp only [reports, lines, hlt, if_false, List.map_nil]
  | _ => rfl

/-- The height after an event, if it goes on from `height` and is about a change. -/
def Event.follow (height : Nat) : Event → Option Nat
  | .built _ => none
  | .grew before after => if before = height ∧ before < after then some after else none
  | .shrank before after => if before = height ∧ after < before then some after else none

/-- Only changes go on from each other. -/
theorem Event.isChange_of_follow {events : List Event} {height after : Nat}
    (h : events.foldlM follow height = some after) : ∀ event ∈ events, event.isChange := by
  induction events generalizing height with
  | nil => simp
  | cons event events ih =>
      rw [List.foldlM_cons] at h
      obtain ⟨next, hnext, hrest⟩ := Option.bind_eq_some_iff.1 h
      refine List.forall_mem_cons.2 ⟨?_, ih hrest⟩
      cases event with
      | built policy => cases hnext
      | grew _ _ | shrank _ _ => rfl

/-- The height after a command, as its events tell it.  Clearing sets it back to zero. -/
def Command.follow (height : Nat) (events : List Event) : Command K V → Option Nat
  | .clear => events.foldlM Event.follow 0
  | _ => events.foldlM Event.follow height

/-- **The heights that the events of a run tell**, one after each command, if all events go on from
each other. -/
def replay (height : Nat) : List (Command K V × List Event) → Option (List Nat)
  | [] => some []
  | (command, events) :: rest => do
      let after ← command.follow height events
      let heights ← replay after rest
      pure (after :: heights)

/-- **The events are what a single command has to report**, and tell the height after it. -/
structure Command.Traces (command : Command K V) (before after : Nat) (events : List Event) :
    Prop where
  events_eq : events = command.reports before after
  follow_eq : events.foldlM Event.follow before = some after

/-- What sets a key can only bring levels into use. -/
theorem Command.traces_insert {before after : Nat} (h : before ≤ after) (key : K) (value : V) :
    (Command.insert key value).Traces before after
      (if before < after then [.grew before after] else []) where
  events_eq := rfl
  follow_eq := by
    by_cases hlt : before < after
    · simp [hlt, Event.follow]
    · obtain rfl : before = after := by omega
      simp

/-- What removes a key can only bring levels out of use. -/
theorem Command.traces_removeEntry {before after : Nat} (h : after ≤ before) (target : Target K) :
    (Command.removeEntry target : Command K V).Traces before after
      (if after < before then [.shrank before after] else []) where
  events_eq := rfl
  follow_eq := by
    by_cases hlt : after < before
    · simp [hlt, Event.follow]
    · obtain rfl : before = after := by omega
      simp

/-- Where nothing is to be reported, the height is the same. -/
theorem Command.traces_nil {command : Command K V} {height : Nat}
    (h : command.reports height height = []) : command.Traces height height [] :=
  ⟨h.symm, rfl⟩

namespace SkipList

namespace Intact

variable {list : SkipList K V R}

/-! ### Single changes -/

/-- **Setting a key reports what it does to the height.** -/
theorem traced_insert [Ord K] [WordSource R] (h : list.Intact) (hroom : list.size < Pool.capacity)
    {key : K} {value : V} {outcome : Outcome (SkipList K V R) (Option V)}
    (houtcome : list.insert key value = .ok outcome) :
    (Command.insert key value).Traces list.height outcome.after.height outcome.events := by
  obtain ⟨sites, vacant, hrow⟩ := h
  rw [hrow.size_eq] at hroom
  obtain ⟨one, hone, hcases⟩ := hrow.insert_cases hroom key value
  obtain rfl := Except.ok.inj (hone.symm.trans houtcome)
  rcases hcases with
    ⟨behind, site, ahead, rfl, hafter, hevents⟩ | ⟨behind, site, ahead, rfl, hafter, hevents⟩
  · -- the new node is the tallest one, or the tallest one is among the others
    have hheight : one.after.height = max list.height site.height := by
      rw [hafter.height_eq, tallest_middle, hrow.height_eq]
    have hle : list.height ≤ one.after.height := by
      rw [hheight]
      exact Nat.le_max_left _ _
    have hsame : (if list.height < site.height then [Event.grew list.height site.height]
        else []) = if list.height < one.after.height then [.grew list.height one.after.height]
          else [] := by
      rw [hheight]
      by_cases hlt : list.height < site.height
      · simp [hlt, Nat.max_eq_right hlt.le]
      · simp [hlt, Nat.max_eq_left (Nat.not_lt.1 hlt)]
    rw [hevents, hsame]
    exact Command.traces_insert hle key value
  · have hheight : one.after.height = list.height := by
      rw [hafter.height_eq, hrow.height_eq, tallest_middle, tallest_middle]
    rw [hevents, hheight]
    exact Command.traces_nil (by simp [Command.reports])

/-- **Removing a key reports what it does to the height**, once if several levels go out of use. -/
theorem traced_removeEntry (h : list.Intact) {target : Target K}
    {outcome : Outcome (SkipList K V R) (Option (K × V))}
    (houtcome : list.removeEntry target = .ok outcome) :
    (Command.removeEntry target : Command K V).Traces list.height outcome.after.height
      outcome.events := by
  obtain ⟨sites, vacant, hrow⟩ := h
  obtain ⟨one, hone, hcases⟩ := hrow.removeEntry_cases target
  obtain rfl := Except.ok.inj (hone.symm.trans houtcome)
  rcases hcases with ⟨hkept, hevents⟩ | ⟨behind, site, ahead, rfl, hafter, hevents⟩
  · rw [hkept, hevents]
    exact Command.traces_nil (by simp [Command.reports])
  · have hle : one.after.height ≤ list.height := by
      rw [hafter.height_eq, hrow.height_eq, tallest_middle]
      exact Nat.le_max_left _ _
    have htraces := Command.traces_removeEntry (V := V) hle target
    simp only [lt_iff_le_and_ne, hle, true_and] at htraces
    rwa [hevents]

theorem traced_replace (h : list.Intact) {target : Target K} {value : V}
    {outcome : Outcome (SkipList K V R) (Option V)}
    (houtcome : list.replace target value = .ok outcome) :
    (Command.replace target value).Traces list.height outcome.after.height outcome.events := by
  obtain ⟨sites, vacant, hrow⟩ := h
  obtain ⟨one, hone, hevents, hcases⟩ := hrow.replace_cases target value
  obtain rfl := Except.ok.inj (hone.symm.trans houtcome)
  have hheight : one.after.height = list.height := by
    rcases hcases with hkept | ⟨behind, site, ahead, rfl, hafter⟩
    · rw [hkept]
    · rw [hafter.height_eq, hrow.height_eq, tallest_middle, tallest_middle]
  rw [hevents, hheight]
  exact Command.traces_nil rfl

end Intact

/-! ### Single commands -/

variable [Ord K] [Printable K] [Printable V] [BEq V] [WordSource R]

namespace Intact

variable {list : SkipList K V R} {command : Command K V} {commands rest : List (Command K V)}
  {outcome : Outcome (SkipList K V R) (Answer K V)}

omit [Ord K] [Printable K] [Printable V] [BEq V] [WordSource R] in
theorem traces_of_changing {A : Type} {answer : A → Answer K V}
    {change : Except Fault (Outcome (SkipList K V R) A)} {height : Nat}
    (hchange : changing answer change = .ok outcome)
    (h : ∀ one, change = .ok one → command.Traces height one.after.height one.events) :
    command.Traces height outcome.after.height outcome.events :=
  of_changing (fun after events => command.Traces height after.height events) hchange h

/-- **A single command reports what it does to the height.** -/
theorem traced_single (h : list.Intact) (hroom : list.size < Pool.capacity)
    (hsingle : Single command) (hstep : list.step command = .ok outcome) :
    command.Traces list.height outcome.after.height outcome.events := by
  cases command with
  | insert key value => exact traces_of_changing hstep fun one hone => h.traced_insert hroom hone
  | replace target value => exact traces_of_changing hstep fun one hone => h.traced_replace hone
  | removeEntry target => exact traces_of_changing hstep fun one hone => h.traced_removeEntry hone
  | remove target =>
      refine traces_of_changing hstep fun one hone => ?_
      -- it is the same change, and only tells less of what was taken out
      obtain ⟨taken, htaken, hone⟩ := Fault.bind_eq_ok_iff.1 hone
      obtain rfl := Except.ok.inj hone
      have htraces := h.traced_removeEntry htaken
      exact ⟨htraces.events_eq, htraces.follow_eq⟩
  | clear => exact absurd rfl hsingle.2
  | insertAll items | insertEach items | removeEach items =>
      exact absurd hsingle (not_single_of_map rfl (by simp))
  | _ =>
      obtain ⟨hafter, hevents⟩ := of_answering hstep
      rw [hafter, hevents]
      exact Command.traces_nil rfl

/-- **The events of single commands go on from each other**, and lead from the height before them to
the height after them. -/
theorem traced_run (h : list.Intact) (hsingle : ∀ command ∈ commands, Single command)
    (hroom : list.Roomy (commands ++ rest)) :
    (list.moments commands).map (·.command) = commands ∧
    (∀ moment ∈ list.moments commands, moment.outcome.events =
      moment.command.reports moment.before.height moment.outcome.after.height) ∧
    (list.log commands).foldlM Event.follow list.height = some (list.last commands).height := by
  -- the events of the first command lead to the height that those of the others start from
  induction commands generalizing list with
  | nil => exact ⟨rfl, by simp [moments], rfl⟩
  | cons command commands ih =>
      obtain ⟨hfirst, hsingle⟩ := List.forall_mem_cons.1 hsingle
      have hparts : list.Roomy (command.parts ++ (commands ++ rest)) := by rwa [hfirst.1]
      obtain ⟨outcome, hstep, hready⟩ := h.step hparts
      have htraces := h.traced_single hroom.size_lt hfirst hstep
      obtain ⟨hcommands, hreports, hfollow⟩ := ih hready.1 hsingle hready.2
      rw [moments_cons hstep, log_cons hstep, last_cons hstep]
      refine ⟨?_, ?_, ?_⟩
      · rw [List.map_cons, hcommands]
      · exact List.forall_mem_cons.2 ⟨htraces.events_eq, hreports⟩
      · rw [List.foldlM_append, htraces.follow_eq]
        exact hfollow

end Intact

end SkipList

/-! ### Runs -/

/-- **A command is told by its events**: they are those of its single changes, one after the other,
and each of these reports what it does to the height. -/
structure Moment.Told [Ord K] [Printable K] [Printable V] [BEq V] [WordSource R]
    (moment : Moment K V R) : Prop where
  step_eq : moment.before.step moment.command = .ok moment.outcome
  /-- None of the single changes fails, -/
  parts_eq : (moment.before.moments moment.command.parts).map (·.command) = moment.command.parts
  /-- their run ends where the command ends, and has the same events, -/
  sumsUp : moment.before.SumsUp moment.command.parts moment.outcome.after moment.outcome.events
  /-- and of these each has its own, by the heights before it and after it. -/
  reports : ∀ part ∈ moment.before.moments moment.command.parts, part.outcome.events =
    part.command.reports part.before.height part.outcome.after.height
  /-- The lines that are written say so word for word, with the height before a change first, -/
  written : moment.outcome.events.map Event.line =
    (moment.before.moments moment.command.parts).flatMap fun part =>
      part.command.lines part.before.height part.outcome.after.height
  /-- and tell the events. -/
  lines : ∀ events : List Event, (∀ event ∈ events, event.isChange) →
    events.map Event.line = moment.outcome.events.map Event.line → events = moment.outcome.events

namespace SkipList

variable [Ord K] [Printable K] [Printable V] [BEq V] [WordSource R]

/-- Where each command of a run reports what it has to, the right lines are written. -/
theorem map_line_log {list : SkipList K V R} {commands : List (Command K V)}
    (h : ∀ moment ∈ list.moments commands, moment.outcome.events =
      moment.command.reports moment.before.height moment.outcome.after.height) :
    (list.log commands).map Event.line = (list.moments commands).flatMap fun moment =>
      moment.command.lines moment.before.height moment.outcome.after.height := by
  rw [log, List.map_flatMap]
  refine List.flatMap_congr fun moment hmoment => ?_
  rw [h moment hmoment, Command.map_line_reports]

/-- **A run is told by its events**: no command fails, each is told by its events, and from the
events and the clearings alone one knows the height after each command. -/
structure Told (list : SkipList K V R) (commands : List (Command K V)) : Prop where
  run_eq : list.run commands = (list.moments commands).map fun moment => .ok moment.outcome
  commands_eq : (list.moments commands).map (·.command) = commands
  told : ∀ moment ∈ list.moments commands, moment.Told
  replay_eq : replay list.height
      ((list.moments commands).map fun moment => (moment.command, moment.outcome.events)) =
    some ((list.moments commands).map fun moment => moment.outcome.after.height)

namespace Intact

variable {list : SkipList K V R} {command : Command K V} {commands rest : List (Command K V)}
  {outcome : Outcome (SkipList K V R) (Answer K V)}

/-- **A command is told by its events**, and they tell the height after it. -/
theorem told_step (h : list.Intact) (hroom : list.Roomy (command.parts ++ rest))
    (hstep : list.step command = .ok outcome) :
    Moment.Told { before := list, command, outcome } ∧
      command.follow list.height outcome.events = some outcome.after.height := by
  by_cases hclear : command = .clear
  · subst hclear
    have hmoments := moments_cons hstep []
    obtain rfl := Except.ok.inj hstep
    have hparts : (list.moments (Command.clear : Command K V).parts).map (·.command) = [.clear] :=
      congrArg (List.map (·.command)) hmoments
    have hreports : ∀ part ∈ list.moments (Command.clear : Command K V).parts,
        part.outcome.events =
          part.command.reports part.before.height part.outcome.after.height := by
      intro part hpart
      rw [show (Command.clear : Command K V).parts = [.clear] from rfl, hmoments] at hpart
      obtain rfl := List.mem_singleton.1 hpart
      rfl
    refine ⟨⟨hstep, hparts, sumsUp_parts hstep, hreports, ?_, ?_⟩, rfl⟩
    · exact map_line_log hreports
    · intro events _ hlines
      exact List.map_eq_nil_iff.1 hlines
  · have hsums := sumsUp_parts hstep
    obtain ⟨hparts, hreports, hfollow⟩ :=
      h.traced_run (fun part hpart => single_of_mem_parts hclear hpart) hroom
    rw [hsums.log_eq, hsums.last_eq] at hfollow
    refine ⟨⟨hstep, hparts, hsums, hreports, ?_, ?_⟩, ?_⟩
    · rw [← hsums.log_eq]
      exact map_line_log hreports
    · intro events hchanges hlines
      exact Event.eq_of_map_line hchanges (Event.isChange_of_follow hfollow) hlines
    · rw [← hfollow]
      cases command with
      | clear => exact absurd rfl hclear
      | _ => rfl

/-- **A run from an intact list is told by its events.** -/
theorem told_run (h : list.Intact) (hroom : list.Roomy (commands.flatMap Command.parts)) :
    list.Told commands := by
  induction commands generalizing list with
  | nil => exact ⟨rfl, rfl, by simp [moments], rfl⟩
  | cons command commands ih =>
      rw [List.flatMap_cons] at hroom
      obtain ⟨outcome, hstep, hready⟩ := h.step hroom
      obtain ⟨htold, hfollow⟩ := h.told_step hroom hstep
      obtain ⟨hrun, hcommands, hrest, hreplay⟩ := ih hready.1 hready.2
      constructor
      · simp only [SkipList.run, hstep, hrun, moments_cons hstep, List.map_cons]
      · rw [moments_cons hstep, List.map_cons, hcommands]
      · rw [moments_cons hstep]
        exact List.forall_mem_cons.2 ⟨htold, hrest⟩
      · simp only [moments_cons hstep, List.map_cons, replay, hfollow, Option.bind_eq_bind,
          Option.bind_some, hreplay, Option.pure_def]

end Intact

/-- **The events of a run tell its heights**, whatever the order of the keys and whatever is done,
as long as there are fewer entries than ids at every moment. -/
theorem run_told (policy : HeightPolicy) (hpolicy : policy.validate = .ok ()) (source : R)
    (commands : List (Command K V))
    (hroom : (blank policy source : SkipList K V R).Roomy (commands.flatMap Command.parts)) :
    (blank policy source : SkipList K V R).height = 0 ∧
      (blank policy source : SkipList K V R).Told commands := by
  constructor
  · rfl
  · exact (intact_blank hpolicy source).told_run hroom

/-- The lines of the small run and the tidal run after it, in which the list grows and shrinks, is
cleared, grows and shrinks again. -/
theorem smallRun_tidalRun_told :
    (blank {} smallWords : SkipList Nat Nat CyclicWords).Roomy
      ((smallRun ++ tidalRun).flatMap Command.parts) ∧
    (blank {} smallWords : SkipList Nat Nat CyclicWords).log (smallRun ++ tidalRun) =
      [.grew 0 3, .shrank 3 2, .grew 2 3, .grew 0 2, .shrank 2 1] ∧
    ((blank {} smallWords : SkipList Nat Nat CyclicWords).log
        (smallRun ++ tidalRun)).map Event.line =
      ["TRACE skip map height grew 0 -> 3", "TRACE skip map height shrank 3 -> 2",
        "TRACE skip map height grew 2 -> 3", "TRACE skip map height grew 0 -> 2",
        "TRACE skip map height shrank 2 -> 1"] ∧
    (blank {} smallWords : SkipList Nat Nat CyclicWords).Told (smallRun ++ tidalRun) := by
  have hroom : (blank {} smallWords : SkipList Nat Nat CyclicWords).Roomy
      ((smallRun ++ tidalRun).flatMap Command.parts) := by
    unfold Roomy
    decide +kernel
  have hlog : (blank {} smallWords : SkipList Nat Nat CyclicWords).log (smallRun ++ tidalRun) =
      [.grew 0 3, .shrank 3 2, .grew 2 3, .grew 0 2, .shrank 2 1] := by
    decide +kernel
  refine ⟨hroom, hlog, ?_, ?_⟩
  · rw [hlog]
    decide +kernel
  · exact (run_told {} HeightPolicy.validate_default smallWords (smallRun ++ tidalRun) hroom).2

end SkipList

end IndexedSkipList
