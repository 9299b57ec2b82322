/-
**A list follows its profile.**

Batches of questions, visits, sessions with a cursor, the printed form and the audit ask nothing of
a list but single entries, places and the entries in their order.  So each is answered by the
entries of the row, in the way the dictionary answers it.

A list shows a profile if it represents a row with the columns of the profile, and has its policy
and its source.  Whatever the profile does at a command the list does as well: the command succeeds,
the answer and the events are those of the profile, and the list shows the profile that comes after.

For a command that sets several entries it is enough that the entries fit in the end, because
setting entries takes none away.

Main definitions:

* `profileOf` — the profile of a row;
* `SkipList.Shows` — the list shows the profile;
* `SkipList.Follows` — an operation does what the profile does.

Main results:

* `SkipList.Holds.selectEach_eq`, `SkipList.Represents.rankEach_eq`,
  `SkipList.Represents.getEach_eq`, `SkipList.Represents.ranks_eq` — batches of questions;
* `SkipList.Holds.scan_eq` — sessions with a cursor;
* `SkipList.Represents.audit_eq` — the audit;
* `SkipList.Shows.insert`, `SkipList.Shows.removeEntry` — the changes;
* `SkipList.Shows.step` — **a list follows its profile at every command**.
-/

import IndexedSkipList.Proofs.SkipList.Changes
import IndexedSkipList.Proofs.SkipList.Reference

set_option relaxedAutoImplicit false
set_option autoImplicit false

namespace IndexedSkipList

variable {K V R : Type}

/-! ### Questions that go through many entries -/

namespace SkipList

namespace Holds

variable {list : SkipList K V R} {sites : List (Site K V)} {vacant : List NodeId}

theorem isEmpty_eq (h : list.Holds sites vacant) :
    list.isEmpty = (entriesOf sites).isEmpty := by
  rw [isEmpty, h.size_eq, ← length_entriesOf]
  cases entriesOf sites <;> rfl

theorem selectEach_eq (h : list.Holds sites vacant) (first last : Nat) :
    list.selectEach first last =
      .ok ((List.range' first (last + 1 - first)).map (Dictionary.select (entriesOf sites))) :=
  Fault.mapM_eq_ok fun place _ => h.select_eq place

theorem ascendUpTo_eq (h : list.Holds sites vacant) (count : Nat) :
    list.ascendUpTo count =
      .ok (visitAll (recordUpTo count) (entriesOf sites) (0, [])).2.reverse := by
  simp [ascendUpTo, h.ascend_eq]

theorem ascendWhileBelow_eq (h : list.Holds sites vacant) (target : Target K) :
    list.ascendWhileBelow target =
      .ok (visitAll (recordWhileBelow target) (entriesOf sites) []).reverse := by
  simp [ascendWhileBelow, h.ascend_eq]

theorem printed_eq [Printable K] [Printable V] (h : list.Holds sites vacant) :
    list.printed = .ok (Dictionary.printed (entriesOf sites)) := by
  simp [printed, h.entries_eq, Dictionary.printed]

/-- **A session with a cursor** is answered as by a reader of the entries. -/
theorem scan_eq (h : list.Holds sites vacant) (commands : List Scan.Command) :
    (do let cursor ← list.cursor
        Scan.run list.lanes { cursor } commands) =
      .ok (Reader.run { ahead := entriesOf sites } commands) := by
  rw [h.cursor_eq, Fault.ok_bind]
  exact h.lanes.scan_run_eq ⟨⟨[], sites, rfl, rfl, rfl⟩, .nil⟩ commands

end Holds

namespace Represents

variable [Ord K] {list : SkipList K V R} {sites : List (Site K V)} {vacant : List NodeId}

theorem rankEach_eq (h : list.Represents sites vacant) {targets : List (Target K)}
    (hagrees : ∀ target ∈ targets, target.Agrees) :
    list.rankEach targets = .ok (targets.map (Dictionary.rank (entriesOf sites))) :=
  Fault.mapM_eq_ok fun target htarget => h.rank_eq (hagrees target htarget)

theorem getEach_eq (h : list.Represents sites vacant) {targets : List (Target K)}
    (hagrees : ∀ target ∈ targets, target.Agrees) :
    list.getEach targets = .ok (targets.map (Dictionary.get? (entriesOf sites))) :=
  Fault.mapM_eq_ok fun target htarget => h.get?_eq (hagrees target htarget)

/-- The ranks of the keys of all entries. -/
theorem ranks_eq [Std.TransOrd K] (h : list.Represents sites vacant) :
    list.ranks = .ok ((entriesOf sites).map fun entry =>
      Dictionary.rank (entriesOf sites) (.of entry.1)) := by
  rw [ranks, h.entries_eq, Fault.ok_bind, h.rankEach_eq, List.map_map]
  · rfl
  · intro target htarget
    obtain ⟨entry, _, rfl⟩ := List.mem_map.1 htarget
    exact Target.agrees_of entry.1

theorem agreesAt_eq [Std.TransOrd K] [BEq V] (h : list.Represents sites vacant) (place : Nat)
    (entry : K × V) :
    list.agreesAt place entry = .ok (Dictionary.agreesAt (entriesOf sites) place entry) := by
  simp only [agreesAt, h.select_eq, h.rank_eq (Target.agrees_of entry.1), Fault.ok_bind]
  rfl

/-- **The audit** finds the places at which the entries do not agree with themselves. -/
theorem audit_eq [Std.TransOrd K] [BEq V] (h : list.Represents sites vacant) :
    list.audit =
      .ok ((entriesOf sites).length, Dictionary.disagreements (entriesOf sites)) := by
  have hverdict : ∀ item ∈ (entriesOf sites).zipIdx 1,
      (do pure (item.2, ← list.agreesAt item.2 item.1)) =
        Except.ok (item.2, Dictionary.agreesAt (entriesOf sites) item.2 item.1) :=
    fun item _ => by simp [h.agreesAt_eq]
  rw [audit, h.entries_eq, Fault.ok_bind]
  exact congrArg (· >>= _) (Fault.mapM_eq_ok hverdict)

end Represents

end SkipList

/-! ### The profile of a row -/

/-- The profile with the columns of a row. -/
def profileOf (sites : List (Site K V)) (policy : HeightPolicy) (source : R) : Profile K V R where
  columns := sites.map (·.toColumn)
  policy
  source

section ProfileOf

variable {behind ahead sites : List (Site K V)} {site : Site K V} {target : Target K}
  {policy : HeightPolicy} {source : R}

@[simp] theorem entries_profileOf : (profileOf sites policy source).entries = entriesOf sites := by
  simp [profileOf, Profile.entries, entriesOf, Function.comp_def]

@[simp] theorem height_profileOf :
    (profileOf sites policy source).height = tallest (sites.map (·.height)) := by
  simp [profileOf, Profile.height, Function.comp_def]

theorem write_profileOf (sites : List (Site K V)) (policy : HeightPolicy) (source : R)
    (target : Target K) (value : V) :
    (profileOf sites policy source).write target value =
      profileOf (changeIn (fun site => target site.key) ({ · with value }) sites) policy
        source := by
  have hcolumns : (changeIn (fun site : Site K V => target site.key) ({ · with value }) sites).map
      (·.toColumn) = changeIn (fun column => target column.key) ({ · with value })
        (sites.map (·.toColumn)) :=
    map_changeIn (fun site : Site K V => site.toColumn) (fun column => target column.key)
      (fun _ => rfl) sites
  simp only [Profile.write, profileOf, hcolumns]

theorem erase_profileOf :
    ((profileOf sites policy source).erase target).after =
      profileOf (dropFrom (fun site => target site.key) sites) policy source := by
  simp only [Profile.erase, profileOf]
  rw [map_dropFrom (fun site : Site K V => site.toColumn) fun column => target column.key]

theorem place_profileOf [Ord K] [WordSource R]
    (h : Parted (fun other => compare other.key site.key) behind ahead) {source' : R}
    (hdraw : policy.drawHeight source = (site.height, source')) :
    (profileOf (behind ++ ahead) policy source).place site.key site.value =
      { answer := none
        after := profileOf (behind ++ site :: ahead) policy source'
        events := if tallest ((behind ++ ahead).map (·.height)) < site.height then
          [.grew (tallest ((behind ++ ahead).map (·.height))) site.height] else [] } := by
  have hcolumns := map_placeIn (fun site : Site K V => site.toColumn)
    (fun column => compare column.key site.key) site (behind ++ ahead)
  rw [h.placeIn_eq] at hcolumns
  simp only [Profile.place, height_profileOf]
  simp only [profileOf, hdraw, hcolumns]

end ProfileOf

namespace SkipList

variable [Ord K]

/-- **The list shows the profile**: it represents a row with these columns. -/
def Shows (list : SkipList K V R) (profile : Profile K V R) : Prop :=
  ∃ sites vacant, list.Represents sites vacant ∧ profile = profileOf sites list.policy list.source

/-- **An operation does what the profile does**: it succeeds with the same answer and the same
events, and the list after it shows the profile after it. -/
def Follows {A : Type} (result : Except Fault (Outcome (SkipList K V R) A))
    (reference : Outcome (Profile K V R) A) : Prop :=
  ∃ after, result = .ok { answer := reference.answer, after, events := reference.events } ∧
    after.Shows reference.after

/-- The same operation with another form of its answer. -/
theorem Follows.changing {A B : Type} {result : Except Fault (Outcome (SkipList K V R) A)}
    {reference : Outcome (Profile K V R) A} (h : Follows result reference) {f : A → B} :
    Follows (changing f result) (reference.mapAnswer f) := by
  obtain ⟨after, rfl, hafter⟩ := h
  exact ⟨after, rfl, hafter⟩

namespace Shows

variable {list : SkipList K V R} {profile : Profile K V R} {target : Target K}

/-- A question is answered, and leaves the list as it is. -/
theorem answering {A B : Type} (h : list.Shows profile) {question : Except Fault A} {a : A}
    (hquestion : question = .ok a) {f : A → B} :
    Follows (list.answering f question) { answer := f a, after := profile } := by
  subst hquestion
  exact ⟨list, rfl, h⟩

/-! ### Single changes -/

theorem replace (h : list.Shows profile) (hagrees : target.Agrees) (value : V) :
    Follows (list.replace target value)
      { answer := Dictionary.get? profile.entries target
        after := profile.write target value } := by
  obtain ⟨sites, vacant, hlist, rfl⟩ := h
  rcases exists_parted hagrees hlist.sorted with
    ⟨behind, ahead, rfl, hparted⟩ | ⟨behind, site, ahead, rfl, hmet, hparted⟩
  · refine ⟨list, ?_, behind ++ ahead, vacant, hlist, ?_⟩
    · rw [hlist.replace_absent hparted, entries_profileOf, Dictionary.get?,
        find?_entriesOf_absent hparted]
      rfl
    · rw [write_profileOf, hparted.changeIn_absent]
  · obtain ⟨after, hafter, hrow, hpolicy, hsource⟩ := hlist.replace_present hparted hmet value
    refine ⟨after, ?_, _, vacant, hrow, ?_⟩
    · rw [hafter, entries_profileOf, Dictionary.get?, find?_entriesOf_present hparted hmet]
      rfl
    · rw [write_profileOf, hparted.changeIn_present hmet, hpolicy, hsource]

theorem removeEntry (h : list.Shows profile) (hagrees : target.Agrees) :
    Follows (list.removeEntry target) (profile.erase target) := by
  obtain ⟨sites, vacant, hlist, rfl⟩ := h
  rcases exists_parted hagrees hlist.sorted with
    ⟨behind, ahead, rfl, hparted⟩ | ⟨behind, site, ahead, rfl, hmet, hparted⟩
  · have hafter : ((profileOf (behind ++ ahead) list.policy list.source).erase target).after =
        profileOf (behind ++ ahead) list.policy list.source := by
      rw [erase_profileOf, hparted.dropFrom_absent]
    refine ⟨list, ?_, behind ++ ahead, vacant, hlist, hafter⟩
    rw [hlist.removeEntry_absent hparted]
    simp [Profile.erase, find?_entriesOf_absent hparted] at hafter ⊢
    simp [hafter]
  · obtain ⟨after, hremove, hrow, hpolicy, hsource, _⟩ := hlist.removeEntry_present hparted hmet
    have hafter :
        ((profileOf (behind ++ site :: ahead) list.policy list.source).erase target).after =
          profileOf (behind ++ ahead) after.policy after.source := by
      rw [erase_profileOf, hparted.dropFrom_present hmet, hpolicy, hsource]
    refine ⟨after, ?_, behind ++ ahead, _, hrow, hafter⟩
    rw [hremove]
    simp only [Profile.erase] at hafter ⊢
    rw [hafter]
    simp [find?_entriesOf_present hparted hmet, hrow.height_eq, hlist.height_eq]

theorem remove (h : list.Shows profile) (hagrees : target.Agrees) :
    Follows (list.remove target) (profile.remove target) := (h.removeEntry hagrees).changing

variable [WordSource R] [Std.TransOrd K]

/-- **Setting a value**, if the entries fit afterwards. -/
theorem insert (h : list.Shows profile) (key : K) (value : V)
    (hfits : (profile.insert key value).after.Fits) :
    Follows (list.insert key value) (profile.insert key value) := by
  obtain ⟨sites, vacant, hlist, rfl⟩ := h
  rcases exists_parted (Target.agrees_of key) hlist.sorted with
    ⟨behind, ahead, rfl, hparted⟩ | ⟨behind, site, ahead, rfl, hmet, hparted⟩
  · obtain ⟨site, rfl, rfl, hid, hdraw⟩ := list.exists_newSite vacant key value
    have habsent :
        (profileOf (behind ++ ahead) list.policy list.source).insert site.key site.value =
          (profileOf (behind ++ ahead) list.policy list.source).place site.key site.value := by
      rw [Profile.insert, entries_profileOf, Dictionary.get?, find?_entriesOf_absent hparted]
      rfl
    rw [habsent, place_profileOf hparted hdraw, ← hlist.height_eq] at hfits ⊢
    have hroom : (behind ++ ahead).length < Pool.capacity := by
      simp only [Profile.Fits, profileOf, List.length_map, List.length_append,
        List.length_cons] at hfits ⊢
      omega
    obtain ⟨after, hafter, hrow, hpolicy, hsource, _⟩ :=
      hlist.insert_absent hparted hroom hid hdraw
    exact ⟨after, hafter, _, _, hrow, by rw [hpolicy, hsource]⟩
  · have hpresent : (profileOf (behind ++ site :: ahead) list.policy list.source).insert key value =
        { answer := some site.value
          after :=
            profileOf (behind ++ { site with value } :: ahead) list.policy list.source } := by
      have hwrite := write_profileOf (behind ++ site :: ahead) list.policy list.source (.of key)
        value
      rw [hparted.changeIn_present hmet] at hwrite
      rw [Profile.insert, entries_profileOf, Dictionary.get?, find?_entriesOf_present hparted hmet]
      simp only [Option.map_some, hwrite]
      rfl
    obtain ⟨after, hafter, hrow, hpolicy, hsource⟩ := hlist.insert_present hparted hmet value
    rw [hpresent]
    exact ⟨after, hafter, _, vacant, hrow, by rw [hpolicy, hsource]⟩

/-! ### Several changes -/

/-- **Setting several values**, if the entries fit in the end. -/
theorem insertAll (h : list.Shows profile) (entries : List (K × V))
    (hfits : (profile.insertAll entries).after.Fits) :
    Follows (list.insertAll entries) (profile.insertAll entries) := by
  induction entries generalizing list profile with
  | nil => exact ⟨list, rfl, h⟩
  | cons entry entries ih =>
      obtain ⟨key, value⟩ := entry
      obtain ⟨mid, hmid, hmidshows⟩ := h.insert key value (Profile.fits_of_insertAll hfits)
      obtain ⟨after, hafter, haftershows⟩ := ih hmidshows hfits
      refine ⟨after, ?_, haftershows⟩
      simp only [SkipList.insertAll, hmid, Fault.ok_bind, hafter, Profile.insertAll]
      rfl

omit [WordSource R] [Std.TransOrd K] in
/-- **A batch of changes follows the profile** if each of its changes does.  What is asked of the
profiles on the way, `good`, need only be known in the end if it carries back over a change. -/
theorem changeEach {A B : Type}
    {change : SkipList K V R → A → Except Fault (Outcome (SkipList K V R) B)}
    {change' : Profile K V R → A → Outcome (Profile K V R) B} {counts : B → Bool}
    (good : Profile K V R → Prop)
    (hback : ∀ profile item, good (change' profile item).after → good profile) {items : List A}
    (hchange : ∀ item ∈ items, ∀ (list : SkipList K V R) (profile : Profile K V R),
      list.Shows profile → good (change' profile item).after →
        Follows (change list item) (change' profile item)) {batch : Batch} {events : List Event}
    (h : list.Shows profile)
    (hgood : good (Profile.changeEach change' counts items
      { answer := batch, after := profile, events }).after) :
    Follows (changeEach change counts items { answer := batch, after := list, events })
      (Profile.changeEach change' counts items { answer := batch, after := profile, events }) := by
  -- what is known in the end is carried back to every profile on the way
  have hgoodback : ∀ (items : List A) (outcome : Outcome (Profile K V R) Batch),
      good (Profile.changeEach change' counts items outcome).after → good outcome.after := by
    intro items
    induction items with
    | nil => exact fun _ hgood => hgood
    | cons item items ih => exact fun _ hgood => hback _ item (ih _ hgood)
  induction items generalizing list profile batch events with
  | nil => exact ⟨list, rfl, h⟩
  | cons item items ih =>
      have hone := hgoodback items _ hgood
      obtain ⟨mid, hmid, hmidshows⟩ := hchange item (List.mem_cons_self ..) list profile h hone
      obtain ⟨sites, vacant, hrow, hprofile⟩ := hmidshows
      have hheight : mid.height = (change' profile item).after.height := by
        rw [hprofile, height_profileOf, hrow.height_eq]
      have hrest := ih (fun item hitem => hchange item (List.mem_cons_of_mem _ hitem))
        ⟨sites, vacant, hrow, hprofile⟩ hgood
      unfold SkipList.changeEach Profile.changeEach
      simp only [hmid, Fault.ok_bind, hheight]
      exact hrest

/-! ### Commands -/

omit [WordSource R] [Std.TransOrd K] in
theorem clear (h : list.Shows profile) :
    list.clear.Shows { profile with columns := [] } := by
  obtain ⟨sites, vacant, hlist, rfl⟩ := h
  exact ⟨[], [], hlist.clear, rfl⟩

variable [Printable K] [Printable V] [BEq V]

/-- **A list follows its profile at every command**, if the entries fit afterwards. -/
theorem step (h : list.Shows profile) {command : Command K V} (hlawful : command.Lawful)
    (hfits : (profile.step command).after.Fits) :
    Follows (list.step command) (profile.step command) := by
  obtain ⟨sites, vacant, hlist, hprofile⟩ := id h
  have hentries : profile.entries = entriesOf sites := by rw [hprofile, entries_profileOf]
  have htarget : ∀ {target : Target K}, target ∈ command.targets → target.Agrees := hlawful _
  -- a question leaves the profile as it is; what has to be known is the answer
  cases command with
  | insert key value => exact (h.insert key value hfits).changing
  | insertAll entries => exact (h.insertAll entries hfits).changing (f := fun _ => Answer.nothing)
  | replace target value => exact (h.replace (htarget (.head _)) value).changing
  | remove target => exact (h.remove (htarget (.head _))).changing
  | removeEntry target => exact (h.removeEntry (htarget (.head _))).changing
  | clear => exact ⟨list.clear, rfl, h.clear⟩
  | insertEach entries =>
      refine (h.changeEach Profile.Fits (fun _ _ => Profile.fits_of_insert) ?_ hfits).changing
      exact fun entry _ list profile hshows hgood => hshows.insert entry.1 entry.2 hgood
  | removeEach targets =>
      refine (h.changeEach (fun _ => True) (fun _ _ _ => trivial) ?_ trivial).changing
      exact fun target hmem list profile hshows _ => hshows.remove (hlawful target hmem)
  | policy => exact h.answering (by rw [hprofile]; rfl)
  | isEmpty =>
      have hempty := hlist.isEmpty_eq
      rw [← hentries] at hempty
      exact h.answering (congrArg Except.ok hempty)
  | get target => exact h.answering (hentries ▸ hlist.get?_eq (htarget (.head _)))
  | entry target => exact h.answering (hentries ▸ hlist.entry?_eq (htarget (.head _)))
  | contains target => exact h.answering (hentries ▸ hlist.contains_eq (htarget (.head _)))
  | rank target => exact h.answering (hentries ▸ hlist.rank_eq (htarget (.head _)))
  | select place => exact h.answering (hentries ▸ hlist.select_eq place)
  | selectEach first last => exact h.answering (hentries ▸ hlist.selectEach_eq first last)
  | first => exact h.answering (hentries ▸ hlist.first?_eq)
  | last => exact h.answering (hentries ▸ hlist.last?_eq)
  | entries => exact h.answering (hentries ▸ hlist.entries_eq)
  | ascendUpTo count => exact h.answering (hentries ▸ hlist.ascendUpTo_eq count)
  | ascendWhileBelow target =>
      exact h.answering (hentries ▸ hlist.ascendWhileBelow_eq target)
  | print block => exact h.answering (hentries ▸ hlist.printed_eq)
  | ranks => exact h.answering (hentries ▸ hlist.ranks_eq)
  | audit => exact h.answering (hentries ▸ hlist.audit_eq)
  | rankEach targets => exact h.answering (hentries ▸ hlist.rankEach_eq hlawful)
  | getEach targets => exact h.answering (hentries ▸ hlist.getEach_eq hlawful)
  | scan commands => exact h.answering (hentries ▸ hlist.scan_eq commands)

end Shows

end SkipList

end IndexedSkipList
