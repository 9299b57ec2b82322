/-
**A cursor is a position.**

A cursor keeps two things, a link that leads on and a count of what is to come, and nothing in it
says that the two belong together.  They do: wherever a cursor of a list has been moved, it stands
at a position among the entries, the entries to come are those from this position on, and the count
is their number.  So a number in the place of the cursor, a bookmark, is enough to tell all answers.

Cursors are values, and so are bookmarks.  Of several that were copied from each other each goes on
from its own position, in whatever order they are moved; and one at the end stays there.

Main definitions:

* `Bookmark`, `Bookmark.step` — a position among the entries, with the positions that were put
  aside, and what is answered from it;
* `Cursor.StandsAt`, `Scan.StandsAt` — what a cursor at a position has to come, and where a session
  and the copies put aside in it stand;
* `Bookmark.stepJointly`, `Scan.stepJointly` — several bookmarks, and several sessions.

Main results:

* `Bookmark.step_reader` — a bookmark does what a reader of the entries from there on does;
* `Lanes.Represents.standsAt` — what is to come at a position of a row;
* `Scan.step_nth` — **to go to the entry behind some others is to go past them one by one**;
* `SkipList.Reachable.followsBookmarks` — **sessions with a cursor follow their bookmarks**.
-/

import IndexedSkipList.Proofs.SkipList.Runs

set_option relaxedAutoImplicit false
set_option autoImplicit false

namespace IndexedSkipList

variable {K V R : Type}

/-! ### Bookmarks -/

/-- A position among the entries of a list, and the positions that were put aside, the latest one
first. -/
structure Bookmark where
  position : Nat
  saved : List Nat := []

namespace Bookmark

/-- Answers one command from the entries. -/
def step (entries : List (K × V)) (bookmark : Bookmark) :
    Scan.Command → Scan.Answer K V × Bookmark
  | .next =>
      (.entry entries[bookmark.position]?,
        { bookmark with position := min (bookmark.position + 1) entries.length })
  | .nth count =>
      (.entry entries[bookmark.position + count]?,
        { bookmark with position := min (bookmark.position + count + 1) entries.length })
  | .remaining => (.number (entries.length - bookmark.position), bookmark)
  | .bounds =>
      (.bounds (entries.length - bookmark.position) (entries.length - bookmark.position), bookmark)
  | .rest => (.entries (entries.drop bookmark.position), bookmark)
  | .count =>
      (.number (entries.length - bookmark.position), { bookmark with position := entries.length })
  | .save => (.nothing, { bookmark with saved := bookmark.position :: bookmark.saved })
  | .restore =>
      match bookmark.saved with
      | [] => (.nothing, bookmark)
      | position :: saved => (.nothing, { position, saved })

/-- Answers one command to one of several bookmarks, or begins a further one where one of them
stands. -/
def stepJointly (entries : List (K × V)) :
    List Bookmark → Joint Scan.Command → Except Fault (Scan.Answer K V × List Bookmark) :=
  jointly (fun bookmark command => .ok (bookmark.step entries command))
    (fun bookmark => { position := bookmark.position }) .nothing

/-- A copy goes on from where it was made, also when the first one is at the end. -/
example :
    (trace (stepJointly [(1, 10), (3, 30), (5, 50)]) [{ position := 0 }]
      [.within 0 .next, .fork 0, .within 0 (.nth 5), .within 0 .next, .within 0 .bounds,
        .within 1 .remaining, .within 1 .next]).map (fun result => result.map (·.1)) =
      [.ok (.entry (some (1, 10))), .ok .nothing, .ok (.entry none), .ok (.entry none),
        .ok (.bounds 0 0), .ok (.number 2), .ok (.entry (some (3, 30)))] := by
  decide

/-- No position is behind the end. -/
def Within (entries : List (K × V)) (bookmark : Bookmark) : Prop :=
  bookmark.position ≤ entries.length ∧ ∀ position ∈ bookmark.saved, position ≤ entries.length

theorem within_step {entries : List (K × V)} {bookmark : Bookmark} (h : bookmark.Within entries)
    (command : Scan.Command) : (bookmark.step entries command).2.Within entries := by
  obtain ⟨hposition, hsaved⟩ := h
  cases command with
  | next => exact ⟨Nat.min_le_right .., hsaved⟩
  | nth count => exact ⟨Nat.min_le_right .., hsaved⟩
  | remaining => exact ⟨hposition, hsaved⟩
  | bounds => exact ⟨hposition, hsaved⟩
  | rest => exact ⟨hposition, hsaved⟩
  | count => exact ⟨Nat.le_refl _, hsaved⟩
  | save => exact ⟨hposition, List.forall_mem_cons.2 ⟨hposition, hsaved⟩⟩
  | restore =>
      obtain ⟨position, saved⟩ := bookmark
      cases saved with
      | nil => exact ⟨hposition, hsaved⟩
      | cons copy saved => exact List.forall_mem_cons.1 hsaved

/-- The reader that has the entries from each of the positions on. -/
def reader (entries : List (K × V)) (bookmark : Bookmark) : Reader K V where
  ahead := entries.drop bookmark.position
  saved := bookmark.saved.map fun position => entries.drop position

/-- Nothing comes behind the end. -/
theorem drop_min_length (entries : List (K × V)) (position : Nat) :
    entries.drop (min position entries.length) = entries.drop position := by
  rcases Nat.le_total position entries.length with hle | hle
  · rw [Nat.min_eq_left hle]
  · rw [Nat.min_eq_right hle, List.drop_length, List.drop_eq_nil_of_le hle]

/-- **A bookmark does what the reader of the entries from there on does.** -/
theorem step_reader (entries : List (K × V)) (bookmark : Bookmark) (command : Scan.Command) :
    (bookmark.reader entries).step command =
      ((bookmark.step entries command).1, (bookmark.step entries command).2.reader entries) := by
  obtain ⟨position, saved⟩ := bookmark
  cases command with
  | next =>
      simp only [Reader.step, step, reader, drop_min_length, List.head?_drop, List.tail_drop]
  | nth count =>
      simp only [Reader.step, step, reader, drop_min_length, List.getElem?_drop, List.drop_drop,
        Nat.add_assoc]
  | remaining => simp only [Reader.step, step, reader, List.length_drop]
  | bounds => simp only [Reader.step, step, reader, List.length_drop]
  | rest => rfl
  | count => simp only [Reader.step, step, reader, List.length_drop, List.drop_length]
  | save => rfl
  | restore =>
      cases saved with
      | nil => rfl
      | cons copy saved => rfl

end Bookmark

/-! ### Where a cursor stands -/

/-- **The cursor stands at a position among the entries**: those from there on are to come, and it
counts as many. -/
structure Cursor.StandsAt (lanes : Lanes K V) (entries : List (K × V)) (cursor : Cursor)
    (position : Nat) : Prop where
  position_le : position ≤ entries.length
  rest_eq : cursor.rest lanes = .ok (entries.drop position)
  remaining_eq : cursor.remaining = entries.length - position
  /-- Going to the end takes as many moves as the cursor counts. -/
  exhaust_eq : ∃ last, cursor.exhaust lanes = .ok (cursor.remaining, last)
  /-- Before the end a move shows the entry at the position. -/
  next?_eq : ∀ entry, entries[position]? = some entry →
    ∃ after, cursor.next? lanes = .ok (some (entry, after))
  /-- At the end there is no move, and nothing is to come. -/
  ended : position = entries.length → cursor.next? lanes = .ok none ∧ cursor.remaining = 0

/-- The cursor of a session stands at the position of the bookmark, and the copies put aside at
those that were put aside. -/
structure Scan.StandsAt (lanes : Lanes K V) (entries : List (K × V)) (scan : Scan)
    (bookmark : Bookmark) : Prop where
  cursor : scan.cursor.StandsAt lanes entries bookmark.position
  saved : List.Forall₂ (Cursor.StandsAt lanes entries) scan.saved bookmark.saved

/-- Answers one command to one of several sessions, or begins a further one with a copy of the
cursor of one of them. -/
def Scan.stepJointly (lanes : Lanes K V) :
    List Scan → Joint Scan.Command → Except Fault (Scan.Answer K V × List Scan) :=
  jointly (Scan.step lanes) (fun scan => { cursor := scan.cursor }) .nothing

/-- The session reads the entries of the row from the positions of the bookmark on. -/
def Scan.ReadsFrom (sites : List (Site K V)) (scan : Scan) (bookmark : Bookmark) : Prop :=
  scan.Reads sites (bookmark.reader (entriesOf sites)) ∧ bookmark.Within (entriesOf sites)

/-- A copy of the cursor reads from the same position on. -/
theorem Scan.ReadsFrom.fork {sites : List (Site K V)} {scan : Scan} {bookmark : Bookmark}
    (h : scan.ReadsFrom sites bookmark) :
    Scan.ReadsFrom sites { cursor := scan.cursor } { position := bookmark.position } := by
  obtain ⟨hreads, hwithin⟩ := h
  constructor
  · exact ⟨hreads.cursor, .nil⟩
  · exact ⟨hwithin.1, by simp⟩

namespace Lanes

namespace Represents

variable {lanes : Lanes K V} {height : Nat} {sites : List (Site K V)} {vacant : List NodeId}

/-- **What is to come at a position of a row.** -/
theorem standsAt (h : lanes.Represents height sites vacant) {cursor : Cursor} {position : Nat}
    (hposition : position ≤ (entriesOf sites).length)
    (hreads : cursor.Reads sites ((entriesOf sites).drop position)) :
    cursor.StandsAt lanes (entriesOf sites) position := by
  obtain ⟨behind, ahead, hsites, rfl, hentries⟩ := hreads
  have hlength : ahead.length = (entriesOf sites).length - position := by
    rw [← length_entriesOf ahead, ← hentries, List.length_drop]
  constructor
  · exact hposition
  · rw [h.rest_eq hsites, hentries]
  · exact hlength
  · exact ⟨_, h.exhaust_eq hsites⟩
  · intro entry hentry
    rw [← List.head?_drop, hentries] at hentry
    cases ahead with
    | nil => cases hentry
    | cons site ahead =>
        obtain rfl := Option.some.inj hentry
        exact ⟨_, h.next?_cons hsites⟩
  · intro hend
    have hnil : ahead = [] := List.eq_nil_of_length_eq_zero (by omega)
    subst hnil
    exact ⟨next?_nil, rfl⟩

/-- **A session answers as its bookmark does**, and is then where the bookmark is. -/
theorem scan_simulates (h : lanes.Represents height sites vacant) (scan : Scan)
    (bookmark : Bookmark) (command : Scan.Command) (hscan : scan.ReadsFrom sites bookmark) :
    Simulates (Scan.ReadsFrom sites) (scan.step lanes command)
      (.ok (bookmark.step (entriesOf sites) command)) := by
  obtain ⟨hreads, hwithin⟩ := hscan
  obtain ⟨after, hstep, hafter⟩ := h.scan_step_eq hreads command
  rw [Bookmark.step_reader] at hstep hafter
  rw [hstep]
  exact .answered ⟨hafter, Bookmark.within_step hwithin command⟩

/-- A session stands where it reads from. -/
theorem scan_standsAt (h : lanes.Represents height sites vacant) (scan : Scan)
    (bookmark : Bookmark) (hscan : scan.ReadsFrom sites bookmark) :
    scan.StandsAt lanes (entriesOf sites) bookmark := by
  obtain ⟨⟨hcursor, hcopies⟩, hposition, hpositions⟩ := hscan
  constructor
  · exact h.standsAt hposition hcursor
  · have hcopies := List.forall₂_map_right_iff.1 hcopies
    refine List.forall₂_iff_get.2 ⟨hcopies.length_eq, fun i hi hi' => ?_⟩
    exact h.standsAt (hpositions _ (List.get_mem ..)) (hcopies.get hi hi')

end Represents

end Lanes

/-! ### Skipping entries -/

namespace Scan

/-- The answer to `next`, from what the cursor does. -/
theorem step_next_of_error {lanes : Lanes K V} {scan : Scan} {fault : Fault}
    (h : scan.cursor.next? lanes = .error fault) : scan.step lanes .next = .error fault := by
  rw [step, h]
  rfl

theorem step_next_of_ended {lanes : Lanes K V} {scan : Scan}
    (h : scan.cursor.next? lanes = .ok none) :
    scan.step lanes .next = .ok (.entry none, scan) := by
  rw [step, h]
  rfl

theorem step_next_of_moved {lanes : Lanes K V} {scan : Scan} {entry : K × V} {cursor : Cursor}
    (h : scan.cursor.next? lanes = .ok (some (entry, cursor))) :
    scan.step lanes .next = .ok (.entry (some entry), { scan with cursor }) := by
  rw [step, h]
  rfl

/-- To skip no entries is to go to the next one. -/
theorem step_nth_zero (lanes : Lanes K V) (scan : Scan) :
    scan.step lanes (.nth 0) = scan.step lanes .next := by
  rw [step, step, Cursor.nth?, Cursor.skip, Fault.pure_eq_ok, Fault.ok_bind]
  cases scan.cursor.next? lanes with
  | error fault => rfl
  | ok found =>
      cases found with
      | none => rfl
      | some found => rfl

/-- The first entry to be skipped may be the one that cannot be read. -/
theorem step_nth_of_error {lanes : Lanes K V} {scan : Scan} {fault : Fault}
    (h : scan.cursor.next? lanes = .error fault) (count : Nat) :
    scan.step lanes (.nth (count + 1)) = .error fault := by
  rw [step, Cursor.nth?, Cursor.skip, h]
  rfl

/-- At the end, skipping entries leads nowhere else. -/
theorem step_nth_of_ended {lanes : Lanes K V} {scan : Scan}
    (h : scan.cursor.next? lanes = .ok none) (count : Nat) :
    scan.step lanes (.nth count) = .ok (.entry none, scan) := by
  have hskip : Cursor.skip lanes count scan.cursor = .ok scan.cursor := by
    cases count with
    | zero => rfl
    | succ count =>
        rw [Cursor.skip, h]
        rfl
  rw [step, Cursor.nth?, hskip, Fault.ok_bind, h]
  rfl

/-- Before the end, one entry less is to be skipped after a move. -/
theorem step_nth_of_moved {lanes : Lanes K V} {scan : Scan} {entry : K × V} {cursor : Cursor}
    (h : scan.cursor.next? lanes = .ok (some (entry, cursor))) (count : Nat) :
    scan.step lanes (.nth (count + 1)) = Scan.step lanes { scan with cursor } (.nth count) := by
  rw [step, step, Cursor.nth?, Cursor.skip, h]
  rfl

/-- **To go to the entry behind some others is to go past them one by one**, and then to the next:
the result is the last one of so many moves and one more, be it an entry, the end or a fault. -/
theorem step_nth (lanes : Lanes K V) (scan : Scan) (count : Nat) :
    (trace (step lanes) scan (List.replicate (count + 1) .next)).getLast? =
      some (scan.step lanes (.nth count)) := by
  induction count generalizing scan with
  | zero =>
      rw [step_nth_zero, List.replicate_one, trace]
      cases scan.step lanes .next <;> rfl
  | succ count ih =>
      rw [List.replicate_succ]
      cases hnext : scan.cursor.next? lanes with
      | error fault =>
          rw [step_nth_of_error hnext]
          exact getLast?_trace_of_error (step_next_of_error hnext) _
      | ok found =>
          cases found with
          | none =>
              -- the session is where it was, so what is left to skip ends there too
              rw [step_nth_of_ended hnext, ← step_nth_of_ended hnext count]
              exact getLast?_trace_of_ok (step_next_of_ended hnext) (ih scan)
          | some found =>
              obtain ⟨entry, cursor⟩ := found
              rw [step_nth_of_moved hnext]
              exact getLast?_trace_of_ok (step_next_of_moved hnext) (ih _)

end Scan

/-! ### Lists that can be reached -/

namespace SkipList

variable [Ord K]

/-- **Sessions with cursors of a list follow their bookmarks.**  They begin with one cursor before
the first entry; any number of others is begun on the way where one of them stands.  Whatever is
asked of any of them, in whatever order, the answer is that of its bookmark, and after it all of
them stand where their bookmarks are. -/
def FollowsBookmarks (list : SkipList K V R) (entries : List (K × V)) (start : Cursor) : Prop :=
  ∀ operations : List (Joint Scan.Command),
    List.Forall₂ (Simulates (List.Forall₂ (Scan.StandsAt list.lanes entries)))
      (trace (Scan.stepJointly list.lanes) [{ cursor := start }] operations)
      (trace (Bookmark.stepJointly entries) [{ position := 0 }] operations)

omit [Ord K] in
theorem Holds.follows {list : SkipList K V R} {sites : List (Site K V)}
    {vacant : List NodeId} (h : list.Holds sites vacant) :
    list.FollowsBookmarks (entriesOf sites) (Cursor.before sites) := by
  intro operations
  have hstart : Scan.ReadsFrom sites { cursor := Cursor.before sites } { position := 0 } := by
    constructor
    · exact ⟨⟨[], sites, rfl, rfl, rfl⟩, .nil⟩
    · exact ⟨Nat.zero_le _, by simp⟩
  have hsimulates := trace_simulates
    (fun scans bookmarks operation => jointly_simulates (Scan.Answer.nothing : Scan.Answer K V)
      h.lanes.scan_simulates (fun _ _ => Scan.ReadsFrom.fork) scans bookmarks operation)
    (List.Forall₂.cons hstart .nil) operations
  refine hsimulates.imp fun result reference hagree => ?_
  exact hagree.mono fun scans bookmarks hscans => hscans.imp h.lanes.scan_standsAt

variable [Std.TransOrd K] [Printable K] [Printable V] [BEq V] [WordSource R]

/-- **A cursor is a position**, in every list that can be reached: sessions with cursors of the list
follow their bookmarks, and to go to the entry behind some others is to go past them one by one. -/
theorem Reachable.followsBookmarks {list : SkipList K V R} (h : list.Reachable) :
    ∃ entries start, list.entries = .ok entries ∧ Dictionary.Sorted entries ∧
      list.size = entries.length ∧ list.cursor = .ok start ∧
      list.FollowsBookmarks entries start ∧
      ∀ (scan : Scan) (count : Nat),
        (trace (Scan.step list.lanes) scan (List.replicate (count + 1) .next)).getLast? =
          some (scan.step list.lanes (.nth count)) := by
  obtain ⟨sites, vacant, hrow⟩ := h.represents
  refine ⟨entriesOf sites, Cursor.before sites, hrow.entries_eq, ?_, ?_, hrow.cursor_eq,
    hrow.follows, ?_⟩
  · exact List.pairwise_map.2 hrow.sorted
  · rw [hrow.size_eq, length_entriesOf]
  · intro scan count
    exact Scan.step_nth list.lanes scan count

/-- The sessions with cursors of the list at the end of the small run follow their bookmarks among
its four entries. -/
theorem smallList_followsBookmarks :
    smallList.Reachable ∧ ∃ start, smallList.cursor = .ok start ∧
      smallList.FollowsBookmarks [(1, 10), (3, 31), (6, 60), (8, 80)] start := by
  obtain ⟨entries, start, hentries, _, _, hstart, hfollows, _⟩ :=
    smallList_reachable.followsBookmarks
  have hfour : smallList.entries = .ok [(1, 10), (3, 31), (6, 60), (8, 80)] := by decide +kernel
  obtain rfl := Except.ok.inj (hentries.symm.trans hfour)
  exact ⟨smallList_reachable, start, hstart, hfollows⟩

/-- A copy of a cursor goes on from where it was made, also when the first one is at the end. -/
example :
    (smallList.cursor.map fun start =>
      (trace (Scan.stepJointly smallList.lanes) [{ cursor := start }]
        [.within 0 .next, .fork 0, .within 0 (.nth 5), .within 0 .next, .within 0 .bounds,
          .within 1 .remaining, .within 1 .next]).map (fun result => result.map (·.1))) =
      .ok [.ok (.entry (some (1, 10))), .ok .nothing, .ok (.entry none), .ok (.entry none),
        .ok (.bounds 0 0), .ok (.number 3), .ok (.entry (some (3, 31)))] := by
  decide +kernel

end SkipList

end IndexedSkipList
