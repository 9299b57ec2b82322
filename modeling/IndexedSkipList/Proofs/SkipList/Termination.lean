/-
**Searches and iterations end by themselves.**

A search makes its moves on one lane after the other, and nothing in it tells beforehand how many
they will be; it ends because every move leads ahead at the base, whatever lane it is made on.  The
nodes that a search for a target moves onto lie below the target, and no node comes twice, so that
it makes no more moves than there are keys below the target.  A search for a place moves onto nodes
up to this place, and ends on the one that stands there; whether it then goes down to the base or
not, there are no other moves.  The moves of an iteration lead from each node at the base to the
next one, and so there are as many as there are entries.

The trails in which this is said are those of moves that nothing counts, so that the safeguards of
the searches and of the cursors have no part in it.

Main definitions:

* `Cursor.move?` — one move of an iteration;
* `SkipList.SearchEnds` — a search makes these moves and no others, and they lead ahead;
* `SkipList.SeekEnds` — a search for a place makes these moves and no others;
* `SkipList.IterationEnds` — an iteration moves onto all nodes, one after the other;
* `SkipList.SearchesEnd` — how many moves there are for targets, for places and in an iteration.

Main results:

* `SkipList.Holds.searchEnds` — every search ends, whatever it accepts;
* `Lanes.Represents.trail_of_cursor` — so does every iteration;
* `SkipList.Reachable.searchesEnd` — **in lists that can be reached all searches end**.
-/

import IndexedSkipList.Proofs.Lanes.Trails
import IndexedSkipList.Proofs.SkipList.Runs

set_option relaxedAutoImplicit false
set_option autoImplicit false

namespace IndexedSkipList

variable {K V R : Type}

/-- One move of an iteration: where the cursor stands behind the next entry, unless the end is
reached. -/
def Cursor.move? (lanes : Lanes K V) (cursor : Cursor) : Except Fault (Option Cursor) :=
  (·.map (·.2)) <$> cursor.next? lanes

namespace Lanes

namespace Represents

variable {lanes : Lanes K V} {height : Nat} {sites : List (Site K V)} {vacant : List NodeId}

/-- **A cursor moves onto all sites ahead**, one after the other. -/
theorem trail_of_cursor (h : lanes.Represents height sites vacant) {behind ahead : List (Site K V)}
    (hsites : sites = behind ++ ahead) :
    ∃ trail, Trail (Cursor.move? lanes) (Cursor.before ahead) trail ∧
      (Cursor.before ahead :: trail).map (·.next) = ahead.map (some ·.id) ++ [none] := by
  induction ahead generalizing behind with
  | nil => exact ⟨[], .stays (by simp [Cursor.move?, next?_nil]), rfl⟩
  | cons site ahead ih =>
      have hmove : Cursor.move? lanes (Cursor.before (site :: ahead)) =
          .ok (some (Cursor.before ahead)) := by
        simp [Cursor.move?, h.next?_cons hsites]
      have hrow : sites = (behind ++ [site]) ++ ahead := by simp [hsites]
      obtain ⟨trail, htrail, hnext⟩ := ih hrow
      exact ⟨Cursor.before ahead :: trail, .moves hmove htrail, congrArg (some site.id :: ·) hnext⟩

end Represents

end Lanes

namespace SkipList

/-- **A search ends.**  It makes the moves `trail` on all lanes together, and no others, and ends
where the last one leads; the nodes at the base are `ids`. -/
structure SearchEnds (list : SkipList K V R) (ids : List NodeId) (accepts : K → Nat → Bool)
    (trail : List Stop) : Prop where
  /-- The search has a result, and these are its moves. -/
  descends : ∃ stops, list.lanes.search accepts list.height = .ok stops ∧
    list.lanes.Descends accepts list.height {} trail stops ∧ Lanes.base stops = trail.getLastD {}
  /-- There are no other moves that it could make. -/
  only : ∀ trail' stops, list.lanes.Descends accepts list.height {} trail' stops → trail' = trail
  /-- It moves onto nodes that it accepts, and knows where they stand at the base. -/
  accepted : ∀ stop ∈ trail, ∃ id ∈ ids, ∃ node, list.lanes.pool.get id = .ok node ∧
    stop = { place := .node id, rank := position ids (.node id) } ∧
    accepts node.key (position ids (.node id)) = true
  /-- It moves ahead at the base, on whatever lane it is. -/
  ascending : (trail.map fun stop => position ids stop.place).Pairwise (· < ·)

/-- **A search for a place ends.**  It makes the moves `trail`, and no others, and ends where the
last one leads. -/
structure SeekEnds (list : SkipList K V R) (place : Nat) (trail : List Stop) : Prop where
  seek_eq : list.lanes.seek place list.height {} = .ok (trail.getLastD {})
  seeks_iff : ∀ trail', list.lanes.Seeks place list.height {} trail' ↔ trail' = trail

/-- **An iteration ends.**  It makes the moves `trail`, and no others, and its cursor comes to stand
before each of the nodes `ids` and then at the end. -/
structure IterationEnds (list : SkipList K V R) (ids : List NodeId) (trail : List Cursor) :
    Prop where
  start : ∃ cursor, list.cursor = .ok cursor ∧ Trail (Cursor.move? list.lanes) cursor trail ∧
    (cursor :: trail).map (·.next) = ids.map some ++ [none]
  only : ∀ cursor, list.cursor = .ok cursor → ∀ trail',
    Trail (Cursor.move? list.lanes) cursor trail' → trail' = trail

/-- **All searches end**: how many moves they make, in a list with the nodes `ids` at the base and
the entries `entries`. -/
structure SearchesEnd (list : SkipList K V R) (ids : List NodeId) (entries : List (K × V)) :
    Prop where
  base : list.lanes.Chain 0 .head ids
  nodup : ids.Nodup
  entries_eq : list.entries = .ok entries
  /-- For a target, no more than there are keys below it. -/
  byKey : ∀ target : Target K, ∃ trail, list.SearchEnds ids target.below trail ∧
    trail.length ≤ entries.countP (fun entry => target entry.1 = .lt) ∧
    entries.countP (fun entry => target entry.1 = .lt) ≤ list.size
  /-- For a place, no more than the places up to it, on the last of which the search ends. -/
  byPlace : ∀ place, 1 ≤ place → place ≤ list.size → ∃ trail,
    list.SearchEnds ids (fun _ rank => rank ≤ place) trail ∧ list.SeekEnds place trail ∧
    trail.length ≤ place ∧ (trail.getLastD {}).rank = place ∧
    list.select place = .ok entries[place - 1]?
  /-- In an iteration, one for every entry. -/
  iteration : ∃ trail, list.IterationEnds ids trail ∧ trail.length = list.size

namespace Holds

variable {list : SkipList K V R} {sites : List (Site K V)} {vacant : List NodeId}

/-- **Every search ends**, whatever it accepts, and only leads ahead. -/
theorem searchEnds (h : list.Holds sites vacant) (accepts : K → Nat → Bool) :
    ∃ trail, list.SearchEnds (sites.map (·.id)) accepts trail ∧
      LeadsAhead accepts [] sites trail := by
  obtain ⟨behind, ahead, hsites, hsearch, _⟩ :=
    h.lanes.search_within h.length_lt_bound accepts
  obtain ⟨trail, hdescends⟩ := Lanes.exists_descends_of_search hsearch
  have hahead : LeadsAhead accepts [] sites trail :=
    h.lanes.leadsAhead_of_descends h.length_lt_bound (List.nil_append sites).symm le_rfl hdescends
  -- the rank of a stop is the position of its place
  have hposition : ∀ stop ∈ trail, position (sites.map (·.id)) stop.place = stop.rank := by
    intro stop hstop
    obtain ⟨before, site, after, hrow, rfl, _⟩ := hahead.exists_site stop hstop
    obtain rfl : sites = (before ++ [site]) ++ after := by simpa using hrow
    exact position_placeAfter h.lanes.houses.nodup
  refine ⟨trail, ⟨⟨_, hsearch, hdescends, hdescends.headD_eq⟩, ?_, ?_, ?_⟩, hahead⟩
  · exact fun trail' stops hother => (hother.unique hdescends).1
  · intro stop hstop
    obtain ⟨before, site, after, hrow, hat, haccepts⟩ := hahead.exists_site stop hstop
    have hsite : site ∈ sites := by
      rw [List.nil_append] at hrow
      simp [hrow]
    have hplace : stop.place = .node site.id := by simp [hat]
    have hrank : position (sites.map (·.id)) (.node site.id) = before.length + 1 := by
      rw [← hplace, hposition stop hstop, hat]
      simp
    obtain ⟨node, hnode, hkey, _⟩ := h.lanes.houses.exists_node hsite
    refine ⟨site.id, List.mem_map_of_mem hsite, node, Pool.get_eq_ok_iff.2 hnode, ?_, ?_⟩
    · rw [hrank, hat, stopAfter, placeAfter_concat]
      simp
    · rw [hrank, hkey]
      exact haccepts
  · rw [List.map_congr_left hposition]
    exact (List.pairwise_cons.1 hahead.ranks_ascend).2

/-- A search for a place makes no more moves than there are places up to it, and ends there. -/
theorem searchEnds_place (h : list.Holds sites vacant) {place : Nat} (hplace : 1 ≤ place)
    (hle : place ≤ list.size) :
    ∃ trail, list.SearchEnds (sites.map (·.id)) (fun _ rank => rank ≤ place) trail ∧
      trail.length ≤ place ∧ (trail.getLastD {}).rank = place := by
  obtain ⟨trail, hends, hahead⟩ := h.searchEnds fun _ rank => rank ≤ place
  refine ⟨trail, hends, ?_, ?_⟩
  · have hlength := hahead.length_le_rank (Nat.zero_le place) fun _ rank haccepts => by
      simpa using haccepts
    simpa using hlength
  · -- the search divides the row behind the site at the place
    obtain ⟨place, rfl⟩ : ∃ n, place = n + 1 := ⟨place - 1, by omega⟩
    rw [h.size_eq] at hle
    have hsites : sites = sites.take place ++ sites[place] :: sites.drop (place + 1) := by simp
    have hbehind : (sites.take place).length = place := by simp; omega
    have hsearch := h.search_place hsites
    rw [hbehind] at hsearch
    obtain ⟨stops, hstops, _, hlast⟩ := hends.descends
    obtain rfl := Except.ok.inj (hsearch.symm.trans hstops)
    have hrow : sites = (sites.take place ++ [sites[place]]) ++ sites.drop (place + 1) := by simp
    rw [← hlast, h.base_eq hrow]
    simpa using hle

/-- The search that accepts the places up to one makes the moves of the search for this place. -/
theorem seekEnds (h : list.Holds sites vacant) {ids : List NodeId} {place : Nat}
    {trail : List Stop} (hends : list.SearchEnds ids (fun _ rank => rank ≤ place) trail) :
    list.SeekEnds place trail := by
  obtain ⟨stops, hsearch, hdescends, hlast⟩ := hends.descends
  have hseeks := h.lanes.seeks_of_descends le_rfl hdescends
  constructor
  · rw [← hlast]
    exact h.lanes.seek_eq hsearch
  · intro trail'
    constructor
    · intro hother
      exact hother.unique hseeks
    · rintro rfl
      exact hseeks

/-- An iteration makes one move for every entry. -/
theorem iterationEnds (h : list.Holds sites vacant) :
    ∃ trail, list.IterationEnds (sites.map (·.id)) trail ∧ trail.length = list.size := by
  obtain ⟨trail, htrail, hnext⟩ := h.lanes.trail_of_cursor (List.nil_append sites).symm
  refine ⟨trail, ⟨⟨_, h.cursor_eq, htrail, ?_⟩, ?_⟩, ?_⟩
  · rw [hnext, List.map_map]
    rfl
  · intro cursor hcursor trail' htrail'
    obtain rfl := Except.ok.inj (h.cursor_eq.symm.trans hcursor)
    exact htrail'.unique htrail
  · have hlength := congrArg List.length hnext
    simpa [h.size_eq] using hlength

/-- **All searches end.** -/
theorem allSearchesEnd (h : list.Holds sites vacant) :
    list.SearchesEnd (sites.map (·.id)) (entriesOf sites) where
  base := h.lanes.chain_base h.head_pos
  nodup := h.lanes.houses.nodup
  entries_eq := h.entries_eq
  byKey := by
    intro target
    obtain ⟨trail, hends, hahead⟩ := h.searchEnds target.below
    refine ⟨trail, hends, ?_, ?_⟩
    · have hlength : trail.length ≤ sites.countP fun site => target site.key = .lt :=
        hahead.length_le_countP fun site rank haccepts => haccepts
      rwa [entriesOf, List.countP_map]
    · rw [h.size_eq, ← length_entriesOf]
      exact List.countP_le_length
  byPlace := by
    intro place hplace hle
    obtain ⟨trail, hends, hlength, hlast⟩ := h.searchEnds_place hplace hle
    refine ⟨trail, hends, h.seekEnds hends, hlength, hlast, ?_⟩
    rw [h.select_eq, Dictionary.select, if_neg (by omega)]
  iteration := h.iterationEnds

end Holds

/-- **In lists that can be reached all searches and iterations end**, without anything that counts
their moves. -/
theorem Reachable.searchesEnd [Ord K] [Std.TransOrd K] [Printable K] [Printable V] [BEq V]
    [WordSource R] {list : SkipList K V R} (h : list.Reachable) :
    ∃ ids entries, list.SearchesEnd ids entries := by
  obtain ⟨sites, vacant, hrow⟩ := h.represents
  exact ⟨sites.map (·.id), entriesOf sites, hrow.allSearchesEnd⟩

/-- At the end of the small run all searches end. -/
theorem smallList_searchesEnd : smallList.Reachable ∧
    ∃ ids, smallList.SearchesEnd ids [(1, 10), (3, 31), (6, 60), (8, 80)] := by
  obtain ⟨ids, entries, hends⟩ := smallList_reachable.searchesEnd
  obtain rfl := Except.ok.inj (hends.entries_eq.symm.trans smallList_entries)
  exact ⟨smallList_reachable, ids, hends⟩

end SkipList

end IndexedSkipList
