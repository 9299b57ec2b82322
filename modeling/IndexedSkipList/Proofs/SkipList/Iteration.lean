/-
**A cursor reads the row from where it stands.**

A cursor carries two things that nothing ties together: the node to go on with, and a count of the
entries to come.  In lanes that represent a row both are given by the sites ahead, and a move takes
one of them away.  So a cursor that starts before the row reads its entries in order, its count is
exact at every moment, and it never moves at the end.

What a session with a cursor answers is therefore what a reader of a list of entries answers, who
has nothing but the entries to come, and copies of such lists that were put aside.

Main definitions:

* `Cursor.before` — the cursor with given sites ahead;
* `visitAll` — a visit to the items of a list, which the visitor may break off;
* `Reader` — the entries to come, and the copies put aside.

Main results:

* `Lanes.Represents.next?_cons`, `Lanes.Represents.nth?_eq`, `Lanes.Represents.visit_eq`,
  `Lanes.Represents.exhaust_eq` — moves, visits and counts;
* `Lanes.Represents.scan_run_eq` — **a session answers as the reader does**;
* `SkipList.Holds.entries_eq`, `SkipList.Holds.ascend_eq` — all entries, and a visit to them.
-/

import IndexedSkipList.Proofs.SkipList.Represents
import IndexedSkipList.SkipList.Cursor

set_option relaxedAutoImplicit false
set_option autoImplicit false

namespace IndexedSkipList

variable {K V R : Type}

/-! ### Visits to a list -/

/-- Shows the items of a list to a visitor, one after the other, until it answers `false`. -/
def visitAll {S A : Type} (visitor : S → A → Bool × S) : List A → S → S
  | [], state => state
  | item :: items, state =>
      let (goOn, state) := visitor state item
      if goOn then visitAll visitor items state else state

/-- A visitor that collects what it is shown, and always goes on, collects everything. -/
theorem visitAll_collect {A : Type} (items seen : List A) :
    visitAll (fun seen item => (true, item :: seen)) items seen = items.reverse ++ seen := by
  induction items generalizing seen with
  | nil => rfl
  | cons item items ih => simp [visitAll, ih]

/-- A visitor that counts what it is shown, and always goes on, counts everything. -/
theorem visitAll_count {A : Type} (items : List A) (count : Nat) :
    visitAll (fun count _ => (true, count + 1)) items count = count + items.length := by
  induction items generalizing count with
  | nil => rfl
  | cons item items ih =>
      simp only [visitAll, if_true, ih, List.length_cons]
      omega

/-! ### Moving a cursor -/

/-- **The cursor that has the given sites ahead.** -/
def Cursor.before (ahead : List (Site K V)) : Cursor where
  next := ahead.head?.map (·.id)
  remaining := ahead.length

@[simp] theorem Cursor.before_remaining (ahead : List (Site K V)) :
    (Cursor.before ahead).remaining = ahead.length := rfl

namespace Lanes

namespace Represents

variable {lanes : Lanes K V} {height : Nat} {sites behind ahead : List (Site K V)}
  {vacant : List NodeId}

/-- The node of a site, and its link at the base, which leads to the next site. -/
theorem exists_node_base (h : lanes.Represents height sites vacant) {site : Site K V}
    (hsites : sites = behind ++ site :: ahead) :
    ∃ node l, lanes.pool.get site.id = .ok node ∧ node.key = site.key ∧ node.value = site.value ∧
      node.height = site.height ∧ Tower.link node.tower 0 = .ok l ∧
      l.next = ahead.head?.map (·.id) := by
  have hmem : site ∈ sites := by simp [hsites]
  have hbounds := h.bounds site hmem
  have hbehind : sites = (behind ++ [site]) ++ ahead := by simp [hsites]
  obtain ⟨l, hlink, hnext⟩ := h.link?_base (by have := h.height_le; omega) hbehind
  obtain ⟨node, hnode, hkey, hvalue, hsize⟩ := h.houses.exists_node hmem
  refine ⟨node, l, Pool.get_eq_ok_iff.2 hnode, hkey, hvalue, hsize, ?_, hnext⟩
  rw [placeAfter_concat] at hlink
  rw [Tower.link_eq_ok_iff]
  simpa [link?, tower?, hnode] using hlink

/-- There is no move at the end. -/
theorem next?_nil : (Cursor.before ([] : List (Site K V))).next? lanes = .ok none := rfl

/-- **A move takes one site away and shows its entry.** -/
theorem next?_cons (h : lanes.Represents height sites vacant) {site : Site K V}
    (hsites : sites = behind ++ site :: ahead) :
    (Cursor.before (site :: ahead)).next? lanes = .ok (some (site.entry, Cursor.before ahead)) := by
  obtain ⟨node, l, hnode, hkey, hvalue, _, hown, hnext⟩ := h.exists_node_base hsites
  have hentry : node.entry = site.entry := by simp [Node.entry, Column.entry, hkey, hvalue]
  have hcount : Counter.sub (site :: ahead).length 1 = .ok ahead.length :=
    Counter.sub_eq_ok (by simp)
  simp only [Cursor.next?, Cursor.before, List.head?_cons, Option.map_some, hnode, Fault.ok_bind,
    hown, hcount, Fault.pure_eq_ok, hentry, hnext]

/-- Moves take sites away, and end where there are none. -/
theorem skip_eq (h : lanes.Represents height sites vacant) (hsites : sites = behind ++ ahead)
    (count : Nat) :
    Cursor.skip lanes count (Cursor.before ahead) = .ok (Cursor.before (ahead.drop count)) := by
  induction count generalizing behind ahead with
  | zero => rfl
  | succ count ih =>
      unfold Cursor.skip
      cases ahead with
      | nil =>
          rw [next?_nil]
          rfl
      | cons site ahead =>
          rw [h.next?_cons hsites]
          have hbehind : sites = (behind ++ [site]) ++ ahead := by simp [hsites]
          exact ih hbehind

/-- **Several moves and one**: what is shown stands behind the sites that were skipped. -/
theorem nth?_eq (h : lanes.Represents height sites vacant) (hsites : sites = behind ++ ahead)
    (count : Nat) :
    (Cursor.before ahead).nth? lanes count =
      .ok ((entriesOf ahead)[count]?, Cursor.before (ahead.drop (count + 1))) := by
  have hentry : (entriesOf ahead)[count]? = (entriesOf (ahead.drop count)).head? := by
    rw [entriesOf, entriesOf, List.map_drop, List.head?_drop]
  rw [Cursor.nth?, h.skip_eq hsites, Fault.ok_bind, hentry, ← List.tail_drop]
  cases hdrop : ahead.drop count with
  | nil => rfl
  | cons site rest =>
      have hsplit : sites = (behind ++ ahead.take count) ++ site :: rest := by
        rw [hsites, ← hdrop, List.append_assoc, List.take_append_drop]
      rw [h.next?_cons hsplit]
      rfl

/-! ### All that is to come -/

/-- **A visit to what is to come** shows the entries of the sites ahead, if it may make enough
moves. -/
theorem visit_eq {S : Type} (h : lanes.Represents height sites vacant)
    (visitor : S → K × V → Bool × S) (hsites : sites = behind ++ ahead) {moves : Nat}
    (hmoves : ahead.length ≤ moves) (state : S) :
    Cursor.visit lanes visitor moves (Cursor.before ahead) state =
      .ok (visitAll visitor (entriesOf ahead) state) := by
  -- each site ahead costs one move, so the moves last as long as there are sites
  induction ahead generalizing behind moves state with
  | nil =>
      unfold Cursor.visit
      rw [next?_nil]
      rfl
  | cons site ahead ih =>
      unfold Cursor.visit
      rw [h.next?_cons hsites, Fault.ok_bind, entriesOf_cons]
      simp only [visitAll]
      cases (visitor state site.entry).1 with
      | false => rfl
      | true =>
          obtain ⟨moves, rfl⟩ : ∃ n, moves = n + 1 :=
            ⟨moves - 1, by rw [List.length_cons] at hmoves; omega⟩
          have hbehind : sites = (behind ++ [site]) ++ ahead := by simp [hsites]
          exact ih hbehind (Nat.le_of_succ_le_succ hmoves) _

theorem rest_eq (h : lanes.Represents height sites vacant) (hsites : sites = behind ++ ahead) :
    (Cursor.before ahead).rest lanes = .ok (entriesOf ahead) := by
  have hvisit := h.visit_eq (fun seen entry => (true, entry :: seen)) hsites le_rfl []
  rw [visitAll_collect] at hvisit
  simp [Cursor.rest, hvisit]

/-- **The count is exact**: going to the end takes as many moves as there are sites ahead. -/
theorem exhaust_eq (h : lanes.Represents height sites vacant) (hsites : sites = behind ++ ahead) :
    (Cursor.before ahead).exhaust lanes =
      .ok (ahead.length, Cursor.before ([] : List (Site K V))) := by
  have hvisit := h.visit_eq (fun count _ => (true, count + 1)) hsites le_rfl 0
  rw [visitAll_count, length_entriesOf, Nat.zero_add] at hvisit
  rw [Cursor.exhaust, Cursor.before_remaining, hvisit, Fault.ok_bind, h.skip_eq hsites,
    List.drop_length]
  rfl

end Represents

end Lanes

/-! ### The reader of a list -/

/-- The entries to come, and the copies that were put aside, the latest one first. -/
structure Reader (K V : Type) where
  ahead : List (K × V)
  saved : List (List (K × V)) := []

namespace Reader

/-- Answers one command. -/
def step (reader : Reader K V) : Scan.Command → Scan.Answer K V × Reader K V
  | .next => (.entry reader.ahead.head?, { reader with ahead := reader.ahead.tail })
  | .nth count =>
      (.entry reader.ahead[count]?, { reader with ahead := reader.ahead.drop (count + 1) })
  | .remaining => (.number reader.ahead.length, reader)
  | .bounds => (.bounds reader.ahead.length reader.ahead.length, reader)
  | .rest => (.entries reader.ahead, reader)
  | .count => (.number reader.ahead.length, { reader with ahead := [] })
  | .save => (.nothing, { reader with saved := reader.ahead :: reader.saved })
  | .restore =>
      match reader.saved with
      | [] => (.nothing, reader)
      | ahead :: saved => (.nothing, { ahead, saved })

/-- Answers commands in their order. -/
def run (reader : Reader K V) : List Scan.Command → List (Scan.Answer K V)
  | [] => []
  | command :: commands => (reader.step command).1 :: (reader.step command).2.run commands

end Reader

/-- The cursor stands where the entries to come are `entries`. -/
def Cursor.Reads (sites : List (Site K V)) (cursor : Cursor) (entries : List (K × V)) : Prop :=
  ∃ behind ahead, sites = behind ++ ahead ∧ cursor = Cursor.before ahead ∧
    entries = entriesOf ahead

/-- The cursor of the session and its copies stand where the reader's lists begin. -/
structure Scan.Reads (sites : List (Site K V)) (scan : Scan) (reader : Reader K V) : Prop where
  cursor : scan.cursor.Reads sites reader.ahead
  saved : List.Forall₂ (Cursor.Reads sites) scan.saved reader.saved

namespace Lanes

namespace Represents

variable {lanes : Lanes K V} {height : Nat} {sites : List (Site K V)} {vacant : List NodeId}

/-- **One command is answered as by the reader**, and leads to where the reader is then. -/
theorem scan_step_eq (h : lanes.Represents height sites vacant) {scan : Scan} {reader : Reader K V}
    (hreads : scan.Reads sites reader) (command : Scan.Command) :
    ∃ after, scan.step lanes command = .ok ((reader.step command).1, after) ∧
      after.Reads sites (reader.step command).2 := by
  obtain ⟨cursor, saved⟩ := scan
  obtain ⟨entries, copies⟩ := reader
  obtain ⟨⟨behind, ahead, hsites, hcursor, hentries⟩, hsaved⟩ := hreads
  dsimp only at hcursor hentries hsaved
  subst hcursor hentries
  have hhere : (Cursor.before ahead).Reads sites (entriesOf ahead) :=
    ⟨behind, ahead, hsites, rfl, rfl⟩
  -- wherever the cursor moves to, it has a rest of the row ahead
  have hdrop : ∀ count,
      (Cursor.before (ahead.drop count)).Reads sites ((entriesOf ahead).drop count) := by
    intro count
    refine ⟨behind ++ ahead.take count, ahead.drop count, ?_, rfl, ?_⟩
    · rw [hsites, List.append_assoc, List.take_append_drop]
    · rw [entriesOf, entriesOf, List.map_drop]
  cases command with
  | next =>
      cases ahead with
      | nil => exact ⟨⟨Cursor.before [], saved⟩, by simp [Scan.step, next?_nil]; rfl, hhere, hsaved⟩
      | cons site rest =>
          refine ⟨⟨Cursor.before rest, saved⟩, ?_, hdrop 1, hsaved⟩
          simp [Scan.step, h.next?_cons hsites, Reader.step, entriesOf_cons]
  | nth count =>
      refine ⟨⟨Cursor.before (ahead.drop (count + 1)), saved⟩, ?_, hdrop (count + 1), hsaved⟩
      simp [Scan.step, h.nth?_eq hsites, Reader.step]
  | remaining =>
      refine ⟨⟨Cursor.before ahead, saved⟩, ?_, hhere, hsaved⟩
      simp [Scan.step, Reader.step]
  | bounds =>
      refine ⟨⟨Cursor.before ahead, saved⟩, ?_, hhere, hsaved⟩
      simp [Scan.step, Reader.step]
  | rest =>
      refine ⟨⟨Cursor.before ahead, saved⟩, ?_, hhere, hsaved⟩
      simp [Scan.step, Reader.step, h.rest_eq hsites]
  | count =>
      refine ⟨⟨Cursor.before ([] : List (Site K V)), saved⟩, ?_, ?_, hsaved⟩
      · simp [Scan.step, Reader.step, h.exhaust_eq hsites]
      · exact ⟨sites, [], by simp, rfl, rfl⟩
  | save =>
      exact ⟨⟨Cursor.before ahead, Cursor.before ahead :: saved⟩, rfl, hhere, .cons hhere hsaved⟩
  | restore =>
      cases hsaved with
      | nil => exact ⟨⟨Cursor.before ahead, []⟩, rfl, hhere, .nil⟩
      | cons hcopy hrest => exact ⟨⟨_, _⟩, rfl, hcopy, hrest⟩

/-- **A session answers as the reader does.** -/
theorem scan_run_eq (h : lanes.Represents height sites vacant) {scan : Scan} {reader : Reader K V}
    (hreads : scan.Reads sites reader) (commands : List Scan.Command) :
    scan.run lanes commands = .ok (reader.run commands) := by
  induction commands generalizing scan reader with
  | nil => rfl
  | cons command commands ih =>
      obtain ⟨after, hstep, hafter⟩ := h.scan_step_eq hreads command
      simp [Scan.run, hstep, ih hafter, Reader.run]

end Represents

end Lanes

/-! ### The cursor before the first entry -/

namespace SkipList

namespace Holds

variable {list : SkipList K V R} {sites : List (Site K V)} {vacant : List NodeId}

/-- The cursor before the first entry has the whole row ahead. -/
theorem cursor_eq (h : list.Holds sites vacant) : list.cursor = .ok (Cursor.before sites) := by
  obtain ⟨l, hlink, hnext⟩ := h.lanes.link?_base h.head_pos (List.nil_append sites).symm
  have hhead : Tower.link list.lanes.head 0 = .ok l := Tower.link_eq_ok_iff.2 hlink
  simp [cursor, hhead, hnext, h.size_eq, Cursor.before]

/-- **All entries are those of the row.** -/
theorem entries_eq (h : list.Holds sites vacant) : list.entries = .ok (entriesOf sites) := by
  rw [entries, h.cursor_eq, Fault.ok_bind]
  exact h.lanes.rest_eq (List.nil_append sites).symm

/-- **A visit to the entries** shows those of the row. -/
theorem ascend_eq {S : Type} (h : list.Holds sites vacant) (visitor : S → K × V → Bool × S)
    (state : S) : list.ascend visitor state = .ok (visitAll visitor (entriesOf sites) state) := by
  rw [ascend, h.cursor_eq, Fault.ok_bind]
  exact h.lanes.visit_eq visitor (List.nil_append sites).symm le_rfl state

end Holds

end SkipList

end IndexedSkipList
