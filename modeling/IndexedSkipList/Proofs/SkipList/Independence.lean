/-
**What a list answers does not depend on how it was reached.**

Two lists may have come about by different commands.  Then their nodes live under different ids,
other slots of their pools are vacant, and the links of their heads that are not in use say
different things.  None of this can be observed: if the columns of the two lists are the same in
their order, if their policies are the same, and if their sources deliver the same words from now
on, then every command gives the same answer in both, causes the same events, draws as many words,
and leaves both with the same columns.

A profile knows of the columns, the policy and the source alone, and a list follows the profile that
it shows.  So it is enough to look at two profiles that differ in their source only, and there in
nothing but its type.

Main definitions:

* `SkipList.columns` — the columns of a list, read along its base;
* `Profile.Twins` — profiles that differ in nothing but the source that their words come from;
* `SkipList.Alike` — lists that cannot be told apart;
* `SkipList.RunsAlike` — nor can they on the way through a run.

Main results:

* `SkipList.Holds.columns_eq` — the columns that are read are those of the row;
* `Profile.Twins.step`, `Profile.Twins.run` — twins remain twins;
* `SkipList.Reachable.run_alike` — **lists with the same columns cannot be told apart**.
-/

import IndexedSkipList.Proofs.HeightPolicy
import IndexedSkipList.Proofs.SkipList.Runs

set_option relaxedAutoImplicit false
set_option autoImplicit false

namespace IndexedSkipList

variable {K V R R' : Type}

/-! ### Reading the columns -/

namespace Lanes

/-- The columns from a node on, read along the base; `moves` of them at most. -/
def columnsFrom (lanes : Lanes K V) : (moves : Nat) → Option NodeId →
    Except Fault (List (Column K V))
  | _, none => pure []
  | 0, some _ => throw .endless
  | moves + 1, some id => do
      let node ← lanes.pool.get id
      let link ← Tower.link node.tower 0
      let rest ← columnsFrom lanes moves link.next
      pure ({ key := node.key, value := node.value, height := node.height } :: rest)

/-- The columns from a site on are those of the sites ahead. -/
theorem Represents.columnsFrom_eq {lanes : Lanes K V} {height : Nat}
    {sites behind ahead : List (Site K V)} {vacant : List NodeId}
    (h : lanes.Represents height sites vacant) (hsites : sites = behind ++ ahead) :
    lanes.columnsFrom ahead.length (ahead.head?.map (·.id)) = .ok (ahead.map (·.toColumn)) := by
  induction ahead generalizing behind with
  | nil => rfl
  | cons site ahead ih =>
      have hbehind : sites = (behind ++ [site]) ++ ahead := by simp [hsites]
      obtain ⟨node, l, hnode, hkey, hvalue, hheight, hown, hnext⟩ := h.exists_node_base hsites
      simp only [List.length_cons, List.head?_cons, Option.map_some, columnsFrom, hnode,
        Fault.ok_bind, hown, hnext, ih hbehind, Fault.pure_eq_ok, List.map_cons, hkey, hvalue,
        hheight]

end Lanes

namespace SkipList

/-- **The columns of the list**, in their order. -/
def columns (list : SkipList K V R) : Except Fault (List (Column K V)) := do
  let link ← Tower.link list.lanes.head 0
  list.lanes.columnsFrom list.size link.next

/-- **The columns that are read are those of the row.** -/
theorem Holds.columns_eq {list : SkipList K V R} {sites : List (Site K V)} {vacant : List NodeId}
    (h : list.Holds sites vacant) : list.columns = .ok (sites.map (·.toColumn)) := by
  obtain ⟨l, hlink, hnext⟩ := h.lanes.link?_base h.head_pos (List.nil_append sites).symm
  have hhead : Tower.link list.lanes.head 0 = .ok l := Tower.link_eq_ok_iff.2 hlink
  rw [columns, hhead, Fault.ok_bind, hnext, h.size_eq]
  exact h.lanes.columnsFrom_eq (List.nil_append sites).symm

end SkipList

namespace Dictionary

/-- From these entries on, there are at no time as many entries as there are ids. -/
def FitsFrom [Ord K] (entries : List (K × V)) (commands : List (Command K V)) : Prop :=
  ∀ moment ∈ history entries commands, (after moment.2 moment.1).length < Pool.capacity

end Dictionary

/-! ### Profiles with other sources -/

/-- Two outcomes with the same answer and the same events, and states after them that are
related. -/
structure Outcome.Matches {S S' A : Type} (related : S → S' → Prop) (outcome : Outcome S A)
    (outcome' : Outcome S' A) : Prop where
  answer_eq : outcome'.answer = outcome.answer
  events_eq : outcome'.events = outcome.events
  after : related outcome.after outcome'.after

theorem Outcome.Matches.mapAnswer {S S' A B : Type} {related : S → S' → Prop}
    {outcome : Outcome S A} {outcome' : Outcome S' A} (h : outcome.Matches related outcome')
    {f : A → B} : (outcome.mapAnswer f).Matches related (outcome'.mapAnswer f) where
  answer_eq := congrArg f h.answer_eq
  events_eq := h.events_eq
  after := h.after

namespace Profile

variable [WordSource R] [WordSource R']

/-- **Profiles that differ in nothing but the source that their words come from**: as many words
have been drawn from both sources since they were `start` and `start'`. -/
inductive Twins (start : R) (start' : R') : Profile K V R → Profile K V R' → Prop where
  | intro (columns : List (Column K V)) (policy : HeightPolicy) (count : Nat) :
      Twins start start' { columns, policy, source := WordSource.skip count start }
        { columns, policy, source := WordSource.skip count start' }

namespace Twins

variable {start : R} {start' : R'} {profile : Profile K V R} {profile' : Profile K V R'}

theorem columns_eq (h : profile.Twins start start' profile') :
    profile'.columns = profile.columns := by
  cases h
  rfl

theorem policy_eq (h : profile.Twins start start' profile') : profile'.policy = profile.policy := by
  cases h
  rfl

theorem entries_eq (h : profile.Twins start start' profile') :
    profile'.entries = profile.entries := by
  rw [entries, h.columns_eq, entries]

theorem height_eq (h : profile.Twins start start' profile') : profile'.height = profile.height := by
  rw [height, h.columns_eq, height]

/-- As many words have been drawn from both sources. -/
theorem drawn_eq (h : profile.Twins start start' profile') :
    ∃ count, profile.source = WordSource.skip count start ∧
      profile'.source = WordSource.skip count start' := by
  obtain ⟨columns, policy, count⟩ := h
  exact ⟨count, rfl, rfl⟩

theorem write (h : profile.Twins start start' profile') (target : Target K) (value : V) :
    (profile.write target value).Twins start start' (profile'.write target value) := by
  obtain ⟨columns, policy, count⟩ := h
  exact ⟨_, policy, count⟩

theorem clear (h : profile.Twins start start' profile') :
    Twins start start' ({ profile with columns := [] } : Profile K V R)
      { profile' with columns := [] } := by
  obtain ⟨columns, policy, count⟩ := h
  exact ⟨[], policy, count⟩

theorem erase (h : profile.Twins start start' profile') (target : Target K) :
    (profile.erase target).Matches (Twins start start') (profile'.erase target) := by
  obtain ⟨columns, policy, count⟩ := h
  exact ⟨rfl, rfl, _, policy, count⟩

theorem remove (h : profile.Twins start start' profile') (target : Target K) :
    (profile.remove target).Matches (Twins start start') (profile'.remove target) :=
  (h.erase target).mapAnswer

section Setting

variable [Ord K] (hwords : ∀ n, WordSource.word start' n = WordSource.word start n)
include hwords

/-- **A column that is put in is as tall in both**, and as many words are drawn for it. -/
theorem place (h : profile.Twins start start' profile') (key : K) (value : V) :
    (profile.place key value).Matches (Twins start start') (profile'.place key value) := by
  obtain ⟨columns, policy, count⟩ := h
  have hword : WordSource.word (WordSource.skip count start') =
      WordSource.word (WordSource.skip count start) := by
    funext n
    rw [WordSource.word_skip, WordSource.word_skip, hwords]
  simp only [Profile.place, HeightPolicy.drawHeight_eq, hword, ← WordSource.skip_add]
  exact ⟨rfl, rfl, _, policy, _⟩

theorem insert (h : profile.Twins start start' profile') (key : K) (value : V) :
    (profile.insert key value).Matches (Twins start start') (profile'.insert key value) := by
  unfold Profile.insert
  rw [h.entries_eq]
  cases Dictionary.get? profile.entries (.of key) with
  | none => exact h.place hwords key value
  | some old => exact ⟨rfl, rfl, h.write (.of key) value⟩

theorem insertAll (h : profile.Twins start start' profile') (entries : List (K × V)) :
    (profile.insertAll entries).Matches (Twins start start') (profile'.insertAll entries) := by
  induction entries generalizing profile profile' with
  | nil => exact ⟨rfl, rfl, h⟩
  | cons entry entries ih =>
      obtain ⟨key, value⟩ := entry
      have hone := h.insert hwords key value
      have hrest := ih hone.after
      refine ⟨rfl, ?_, hrest.after⟩
      simp only [Profile.insertAll, hone.events_eq, hrest.events_eq]

end Setting

/-- A batch of changes does the same to twins if each of its changes does. -/
theorem changeEach {A B : Type} {change : Profile K V R → A → Outcome (Profile K V R) B}
    {change' : Profile K V R' → A → Outcome (Profile K V R') B}
    (hchange : ∀ (profile : Profile K V R) (profile' : Profile K V R') (item : A),
      profile.Twins start start' profile' →
        (change profile item).Matches (Twins start start') (change' profile' item))
    {counts : B → Bool} {items : List A} {outcome : Outcome (Profile K V R) Batch}
    {outcome' : Outcome (Profile K V R') Batch}
    (h : outcome.Matches (Twins start start') outcome') :
    (Profile.changeEach change counts items outcome).Matches (Twins start start')
      (Profile.changeEach change' counts items outcome') := by
  induction items generalizing outcome outcome' with
  | nil => exact h
  | cons item items ih =>
      have hone := hchange _ _ item h.after
      refine ih ⟨?_, ?_, hone.after⟩
      · simp only [h.answer_eq, hone.answer_eq, hone.after.height_eq]
      · simp only [h.events_eq, hone.events_eq]

variable [Ord K] [Printable K] [Printable V] [BEq V]
  (hwords : ∀ n, WordSource.word start' n = WordSource.word start n)
include hwords

/-- **Twins remain twins at every command**, and give the same answer and the same events. -/
theorem step (h : profile.Twins start start' profile') (command : Command K V) :
    (profile.step command).Matches (Twins start start') (profile'.step command) := by
  have hentries := h.entries_eq
  cases command with
  | insert key value => exact (h.insert hwords key value).mapAnswer
  | insertAll entries =>
      exact (h.insertAll hwords entries).mapAnswer (f := fun _ => Answer.nothing)
  | replace target value => exact ⟨by simp only [Profile.step, hentries], rfl, h.write target value⟩
  | remove target => exact (h.remove target).mapAnswer
  | removeEntry target => exact (h.erase target).mapAnswer
  | policy =>
      cases h
      exact ⟨rfl, rfl, _, _, _⟩
  | clear => exact ⟨rfl, rfl, h.clear⟩
  | insertEach entries =>
      have hstart : ({ answer := {}, after := profile } : Outcome _ Batch).Matches
          (Twins start start') { answer := {}, after := profile' } := ⟨rfl, rfl, h⟩
      exact (changeEach (fun _ _ entry hmid => hmid.insert hwords entry.1 entry.2) hstart).mapAnswer
  | removeEach targets =>
      have hstart : ({ answer := {}, after := profile } : Outcome _ Batch).Matches
          (Twins start start') { answer := {}, after := profile' } := ⟨rfl, rfl, h⟩
      exact (changeEach (fun _ _ target hmid => hmid.remove target) hstart).mapAnswer
  | _ => exact ⟨by simp only [Profile.step, hentries], rfl, h⟩

/-- **Twins remain twins through every run.** -/
theorem run (h : profile.Twins start start' profile') (commands : List (Command K V)) :
    List.Forall₂ (Outcome.Matches (Twins start start')) (profile.run commands)
      (profile'.run commands) := by
  induction commands generalizing profile profile' with
  | nil => exact .nil
  | cons command commands ih =>
      have hfirst := h.step hwords command
      exact .cons hfirst (ih hfirst.after)

end Twins

end Profile

/-! ### Lists that were reached in different ways -/

namespace SkipList

variable [WordSource R] [WordSource R']

/-- **Two lists that cannot be told apart**, since their sources were `start` and `start'`: they
have the same columns, and so the same entries, as many of them and as many levels in use; and as
many words have been drawn from both sources. -/
structure Alike (start : R) (start' : R') (list : SkipList K V R) (list' : SkipList K V R') :
    Prop where
  columns_eq : ∃ columns, list.columns = .ok columns ∧ list'.columns = .ok columns
  size_eq : list'.size = list.size
  height_eq : list'.height = list.height
  policy_eq : list'.policy = list.policy
  drawn_eq : ∃ count, list.source = WordSource.skip count start ∧
    list'.source = WordSource.skip count start'
  /-- Every visitor is shown the same. -/
  ascend_eq : ∀ {S : Type} (visitor : S → K × V → Bool × S) (state : S),
    list'.ascend visitor state = list.ascend visitor state

variable [Ord K] {list : SkipList K V R} {list' : SkipList K V R'} {start : R} {start' : R'}

/-- Lists that show twins cannot be told apart. -/
theorem Shows.alike {profile : Profile K V R} {profile' : Profile K V R'} (h : list.Shows profile)
    (h' : list'.Shows profile') (htwins : profile.Twins start start' profile') :
    Alike start start' list list' := by
  obtain ⟨sites, vacant, hrow, rfl⟩ := h
  obtain ⟨sites', vacant', hrow', rfl⟩ := h'
  have hcolumns : sites'.map (·.toColumn) = sites.map (·.toColumn) := htwins.columns_eq
  have hentries := htwins.entries_eq
  have hheight := htwins.height_eq
  rw [entries_profileOf, entries_profileOf] at hentries
  rw [height_profileOf, height_profileOf] at hheight
  exact
    { columns_eq := ⟨_, hrow.columns_eq, by rw [hrow'.columns_eq, hcolumns]⟩
      size_eq := by rw [hrow.size_eq, hrow'.size_eq, ← length_entriesOf, hentries, length_entriesOf]
      height_eq := by rw [hrow.height_eq, hrow'.height_eq, hheight]
      policy_eq := htwins.policy_eq
      drawn_eq := htwins.drawn_eq
      ascend_eq := fun visitor state => by rw [hrow.ascend_eq, hrow'.ascend_eq, hentries] }

/-- What two lists do by profiles whose outcomes match, they do alike. -/
theorem Follows.alike {A : Type} {result : Except Fault (Outcome (SkipList K V R) A)}
    {result' : Except Fault (Outcome (SkipList K V R') A)} {reference : Outcome (Profile K V R) A}
    {reference' : Outcome (Profile K V R') A} (h : Follows result reference)
    (h' : Follows result' reference')
    (hmatches : reference.Matches (Profile.Twins start start') reference') :
    ∃ outcome outcome', result = .ok outcome ∧ result' = .ok outcome' ∧
      outcome.Matches (Alike start start') outcome' := by
  obtain ⟨after, rfl, hafter⟩ := h
  obtain ⟨after', rfl, hafter'⟩ := h'
  refine ⟨_, _, rfl, rfl, hmatches.answer_eq, hmatches.events_eq, ?_⟩
  exact hafter.alike hafter' hmatches.after

variable [Std.TransOrd K] [Printable K] [Printable V] [BEq V]

/-- A list that was reached shows the columns that are read from it. -/
theorem Reachable.shows (h : list.Reachable) {columns : List (Column K V)}
    (hcolumns : list.columns = .ok columns) :
    list.Shows { columns, policy := list.policy, source := list.source } := by
  obtain ⟨sites, vacant, hrow⟩ := h.represents
  rw [hrow.columns_eq] at hcolumns
  obtain rfl := Except.ok.inj hcolumns
  exact ⟨sites, vacant, hrow, rfl⟩

/-- **The two lists run alike.**  They cannot be told apart; every command of the run is answered by
both, with the same answer and the same events, and after it they cannot be told apart either.  What
is cleared is a list that was just built, with the policy and the source of that moment. -/
structure RunsAlike (list : SkipList K V R) (list' : SkipList K V R')
    (commands : List (Command K V)) : Prop where
  alike : Alike list.source list'.source list list'
  results : List.Forall₂ (fun result result' =>
      ∃ outcome outcome', result = .ok outcome ∧ result' = .ok outcome' ∧
        outcome.Matches (Alike list.source list'.source) outcome')
    (list.run commands) (list'.run commands)
  clear_eq : list.clear = blank list.policy list.source

/-- **Lists with the same columns cannot be told apart**, however they were reached, if they have
the same policy and their sources deliver the same words from now on: they run alike, have the same
columns after every command, and have drawn as many words. -/
theorem Reachable.run_alike (h : list.Reachable) (h' : list'.Reachable)
    {columns : List (Column K V)} (hcolumns : list.columns = .ok columns)
    (hcolumns' : list'.columns = .ok columns) (hpolicy : list'.policy = list.policy)
    (hwords : ∀ n, WordSource.word list'.source n = WordSource.word list.source n)
    (commands : List (Command K V)) (hlawful : ∀ command ∈ commands, command.Lawful)
    (hfits : Dictionary.FitsFrom (columns.map Column.entry) commands) :
    list.RunsAlike list' commands := by
  have hshows := h.shows hcolumns
  have hshows' := h'.shows hcolumns'
  have htwins : Profile.Twins list.source list'.source
      { columns, policy := list.policy, source := list.source }
      { columns, policy := list'.policy, source := list'.source } := by
    rw [hpolicy]
    exact .intro columns list.policy 0
  have hfollows := hshows.run hlawful (Profile.fits_run hfits)
  have hfollows' := hshows'.run hlawful (Profile.fits_run hfits)
  -- from one list to its profile, from there to the other profile, and to the other list
  have hmatched := forall₂_comp (t := fun result outcome' => ∃ outcome, Follows result outcome ∧
      outcome.Matches (Profile.Twins list.source list'.source) outcome')
    (fun _ outcome _ hresult houtcome => ⟨outcome, hresult, houtcome⟩) hfollows
    (htwins.run hwords commands)
  refine ⟨hshows.alike hshows' htwins, forall₂_comp ?_ hmatched hfollows'.flip, ?_⟩
  · rintro result outcome' result' ⟨outcome, hresult, houtcome⟩ hresult'
    exact hresult.alike hresult' houtcome
  · obtain ⟨sites, vacant, hrow⟩ := h.represents
    exact hrow.clear_eq_blank

/-! ### Two ways to the same columns -/

/-- Words that give the heights three, two and one. -/
def descendingWords : CyclicWords :=
  { words := #[0, 0, 0xffffffff, 0, 0xffffffff, 0xffffffff] }

/-- A run that takes out its first key, the tallest one, in the end. -/
def lateRun : List (Command Nat Nat) :=
  [.insert 8 80, .insert 1 10, .insert 2 20, .remove (.of 8)]

/-- A run that takes out its first key at once, so that the others live elsewhere. -/
def earlyRun : List (Command Nat Nat) :=
  [.insert 8 80, .remove (.of 8), .insert 1 10, .insert 2 20]

/-- The list at the end of a run. -/
def endOf (commands : List (Command Nat Nat)) : SkipList Nat Nat CyclicWords :=
  ((blank {} descendingWords).states commands).getLast (by simp [states])

theorem endOf_reachable {commands : List (Command Nat Nat)}
    (hlawful : ∀ command ∈ commands, command.Lawful) (hfits : Dictionary.Fits commands) :
    (endOf commands).Reachable :=
  ⟨{}, descendingWords, commands, HeightPolicy.validate_default, hlawful, hfits,
    List.getLast_mem _⟩

theorem lateRun_reachable : (endOf lateRun).Reachable :=
  endOf_reachable (by simp [lateRun, Command.Lawful, Command.targets, Target.agrees_of])
    (by unfold Dictionary.Fits; decide)

theorem earlyRun_reachable : (endOf earlyRun).Reachable :=
  endOf_reachable (by simp [earlyRun, Command.Lawful, Command.targets, Target.agrees_of])
    (by unfold Dictionary.Fits; decide)

/-- Both runs lead to the same columns, though the lists are not the same. -/
theorem columns_endOf :
    endOf earlyRun ≠ endOf lateRun ∧
      (endOf lateRun).columns = .ok [⟨1, 10, 2⟩, ⟨2, 20, 1⟩] ∧
      (endOf earlyRun).columns = .ok [⟨1, 10, 2⟩, ⟨2, 20, 1⟩] := by
  refine ⟨?_, ?_, ?_⟩
  · decide +kernel
  · decide +kernel
  · decide +kernel

/-- The small run goes on alike from both. -/
theorem smallRun_alike :
    endOf earlyRun ≠ endOf lateRun ∧ (endOf lateRun).RunsAlike (endOf earlyRun) smallRun := by
  have hsource : (endOf earlyRun).source = (endOf lateRun).source := by decide +kernel
  have hfits : Dictionary.FitsFrom [(1, 10), (2, 20)] smallRun := by
    unfold Dictionary.FitsFrom
    decide
  refine ⟨columns_endOf.1, ?_⟩
  exact lateRun_reachable.run_alike earlyRun_reachable columns_endOf.2.1 columns_endOf.2.2
    (by decide +kernel) (fun n => by rw [hsource]) smallRun smallRun_lawful hfits

end SkipList

end IndexedSkipList
