/-
**What the changes of a list do to the row.**

A change searches for its target first; the place where the search ends divides the row, and the
site ahead of it decides what is done: if it meets the target, its value is written over or the site
is taken out, and if it does not, a new site may be put in.  The height of the new site is the one
that the policy draws from the source, which no other change touches.  So far nothing is said about
the order of the keys.  In a sorted row the search ends where the target divides it, so that the row
stays sorted.

The levels in use stay as many as the tallest column has.  A new column that is taller than all
others brings levels into use before it is put in; when the tallest columns are gone, the levels
that they alone stood on go out of use.  What the head says on the levels that are in use neither
before nor after stays as it is.

Main results:

* `SkipList.Holds.replace_met`, `SkipList.Holds.insert_met` — a value is written;
* `SkipList.Holds.insert_unmet` — **a new key is put in, with a height that is drawn**;
* `SkipList.Holds.removeEntry_met` — **a key is taken out**;
* `SkipList.Holds.clear_eq_blank` — a cleared list is one that was just built;
* `SkipList.Represents.insert_absent`, `SkipList.Represents.removeEntry_present` and their
  companions — the changes of a sorted row.
-/

import IndexedSkipList.Proofs.Lanes.Insertion
import IndexedSkipList.Proofs.Lanes.Removal
import IndexedSkipList.Proofs.SkipList.Represents

set_option relaxedAutoImplicit false
set_option autoImplicit false

namespace IndexedSkipList

variable {K V R : Type}

theorem tallest_eq_of_perm {heights heights' : List Nat} (h : heights.Perm heights') :
    tallest heights = tallest heights' := by
  refine le_antisymm ?_ ?_
  · exact tallest_le_iff.2 fun height hmem => tallest_le_iff.1 le_rfl height (h.mem_iff.1 hmem)
  · exact tallest_le_iff.2 fun height hmem => tallest_le_iff.1 le_rfl height (h.mem_iff.2 hmem)

/-- One column more is as tall as it is, or as the others were. -/
theorem tallest_middle (behind ahead : List (Site K V)) (site : Site K V) :
    tallest ((behind ++ site :: ahead).map (·.height)) =
      max (tallest ((behind ++ ahead).map (·.height))) site.height := by
  have hperm : (behind ++ site :: ahead).Perm (site :: (behind ++ ahead)) := List.perm_middle
  rw [tallest_eq_of_perm (hperm.map (·.height)), max_comm]
  rfl

namespace SkipList

/-- The site of a new entry, with the height that is drawn and the id that the pool hands out. -/
theorem exists_newSite [WordSource R] (list : SkipList K V R) (vacant : List NodeId) (key : K)
    (value : V) :
    ∃ site : Site K V, site.key = key ∧ site.value = value ∧
      site.id = list.lanes.pool.freshId vacant ∧
      list.policy.drawHeight list.source =
        (site.height, (list.policy.drawHeight list.source).2) :=
  ⟨⟨⟨key, value, (list.policy.drawHeight list.source).1⟩, list.lanes.pool.freshId vacant⟩,
    rfl, rfl, rfl, rfl⟩

namespace Holds

variable {list : SkipList K V R} {behind ahead : List (Site K V)} {site : Site K V}
  {vacant : List NodeId} {target : Target K}

/-! ### Writing a value -/

/-- A value is written over that of a site. -/
theorem writeAt_eq (h : list.Holds (behind ++ site :: ahead) vacant) (value : V) :
    ∃ after, list.writeAt site.id value = .ok (site.value, after) ∧
      after.Holds (behind ++ { site with value } :: ahead) vacant ∧
      after.policy = list.policy ∧ after.source = list.source := by
  obtain ⟨node, pool, hget, hvalue, hset, hlanes⟩ := h.lanes.write value
  refine ⟨{ list with lanes := { list.lanes with pool } }, ?_, ?_, rfl, rfl⟩
  · simp [writeAt, hget, hset, hvalue]
  · exact
      { lanes := hlanes
        height_eq := by
          have hheight := h.height_eq
          simp only [List.map_append, List.map_cons] at hheight ⊢
          exact hheight
        size_eq := by
          have hsize := h.size_eq
          simp only [List.length_append, List.length_cons] at hsize ⊢
          exact hsize
        fits := by
          have hfits := h.fits
          simp only [List.length_append, List.length_cons] at hfits ⊢
          exact hfits
        accepted := h.accepted
        head_size := h.head_size }

/-- Nothing is written where the site ahead does not meet the target. -/
theorem replace_unmet (h : list.Holds (behind ++ ahead) vacant)
    (hstops : list.stopsBelow target = .ok (stopsAt list.height behind))
    (hunmet : ∀ site ∈ ahead.head?, target site.key ≠ .eq) (value : V) :
    list.replace target value = .ok { answer := none, after := list } := by
  simp [replace, find?, hstops, h.matching?_unmet rfl hunmet]

/-- **A value is written where the site ahead meets the target.** -/
theorem replace_met (h : list.Holds (behind ++ site :: ahead) vacant)
    (hstops : list.stopsBelow target = .ok (stopsAt list.height behind))
    (hmet : target site.key = .eq) (value : V) :
    ∃ after, list.replace target value = .ok { answer := some site.value, after } ∧
      after.Holds (behind ++ { site with value } :: ahead) vacant ∧
      after.policy = list.policy ∧ after.source = list.source := by
  obtain ⟨after, hwrite, hafter⟩ := h.writeAt_eq value
  exact ⟨after, by simp [replace, find?, hstops, h.matching?_met rfl hmet, hwrite], hafter⟩

/-! ### Setting a value -/

/-- **A key that is met gets another value**, and nothing is drawn. -/
theorem insert_met [Ord K] [WordSource R] {key : K}
    (h : list.Holds (behind ++ site :: ahead) vacant)
    (hstops : list.stopsBelow (.of key) = .ok (stopsAt list.height behind))
    (hmet : compare site.key key = .eq) (value : V) :
    ∃ after, list.insert key value = .ok { answer := some site.value, after } ∧
      after.Holds (behind ++ { site with value } :: ahead) vacant ∧
      after.policy = list.policy ∧ after.source = list.source := by
  have hmatching := h.matching?_met (show _ = behind ++ site :: ahead from rfl)
    (show Target.of key site.key = .eq from hmet)
  obtain ⟨after, hwrite, hafter⟩ := h.writeAt_eq value
  exact ⟨after, by simp [insert, h.pathTo_eq hstops, hmatching, hwrite], hafter⟩

/-- The stops of a search, with the head as the stop on the levels that come into use. -/
theorem stopsAt_append_replicate (h : list.Holds (behind ++ ahead) vacant) (added : Nat) :
    stopsAt list.height behind ++ List.replicate added ({} : Stop) =
      stopsAt (list.height + added) behind := by
  have habove : ∀ level, stopAfter (front (list.height + level) behind) = {} := by
    intro level
    rw [front_eq_nil fun site hsite => ((h.lanes.bounds site (by simp [hsite])).2.trans
      (Nat.le_add_right _ _)), stopAfter_nil]
  rw [stopsAt, stopsAt, List.range_add, List.map_append, List.map_map]
  congr 1
  refine (List.eq_replicate_iff.2 ⟨by simp, fun stop hstop => ?_⟩).symm
  obtain ⟨level, _, rfl⟩ := List.mem_map.1 hstop
  exact habove level

/-- **A new node is put into the list, with a height that is drawn.** -/
theorem insertNew_eq [WordSource R] (h : list.Holds (behind ++ ahead) vacant)
    (hroom : (behind ++ ahead).length < Pool.capacity)
    (hid : site.id = list.lanes.pool.freshId vacant) {source : R}
    (hdraw : list.policy.drawHeight list.source = (site.height, source)) :
    ∃ after, list.insertNew site.key site.value (stopsAt list.height behind) =
        .ok { answer := none, after,
              events := if list.height < site.height then [.grew list.height site.height]
                else [] } ∧
      after.Holds (behind ++ site :: ahead) vacant.tail ∧
      after.policy = list.policy ∧ after.source = source ∧
      Lanes.SameAbove (max list.height site.height) list.lanes after.lanes := by
  have hceiling := HeightPolicy.maxHeight_bounds h.accepted
  have htall : 1 ≤ site.height ∧ site.height ≤ list.policy.maxHeight := by
    have hbounds := list.policy.drawHeight_bounds list.source hceiling.1
    rwa [hdraw] at hbounds
  have hheight : list.height ≤ list.policy.maxHeight := h.head_size ▸ h.lanes.height_le
  have hmax : list.height + (site.height - list.height) = max list.height site.height := by omega
  have hbound : Pool.capacity < Counter.bound := by decide
  -- levels come into use before the node is put in; the id that is handed out stays the same
  obtain ⟨raised, hraise, hraised, hraisedsame⟩ :=
    h.lanes.raise (site.height - list.height) (by rw [h.head_size]; omega)
  rw [hmax] at hraised hraisedsame
  have hfresh : raised.pool.freshId vacant = list.lanes.pool.freshId vacant := by
    have hsize := h.lanes.houses.length_add_length
    have hsize' := hraised.houses.length_add_length
    cases vacant with
    | nil => simp only [Pool.freshId, ← hsize, ← hsize']
    | cons id vacant => rfl
  have hspace : vacant = [] → raised.pool.slots.size < Pool.capacity := by
    intro hvacant
    rw [← hraised.houses.length_add_length, hvacant]
    exact hroom
  obtain ⟨after, hinsert, hafter, haftersame⟩ := hraised.insert (by omega) hspace
    (hid.trans hfresh.symm) htall.1 (Nat.le_max_right _ _)
  have hsame := hraisedsame.trans haftersame
  have hsize : Counter.add list.size 1 = .ok (list.size + 1) :=
    Counter.add_eq_ok (by rw [h.size_eq]; omega)
  refine ⟨{ list with lanes := after, height := max list.height site.height,
                      size := list.size + 1, source }, ?_, ?_, rfl, rfl, hsame⟩
  · have hlevels : roomFor site.height = .ok () := by simp [roomFor, htall.2.trans hceiling.2]
    rw [← h.size_eq] at hraise
    simp only [insertNew, hdraw, hlevels, Fault.ok_bind, hraise, h.stopsAt_append_replicate, hmax,
      hinsert, hsize, Fault.pure_eq_ok]
  · exact
      { lanes := hafter
        height_eq := by rw [tallest_middle, ← h.height_eq]
        size_eq := by
          rw [h.size_eq, List.perm_middle.length_eq]
          rfl
        fits := by
          rw [List.perm_middle.length_eq]
          exact hroom
        accepted := h.accepted
        head_size := hsame.head_size.trans h.head_size }

/-- **A new key is put in where the site ahead does not meet it**, with a height that is drawn. -/
theorem insert_unmet [Ord K] [WordSource R] (h : list.Holds (behind ++ ahead) vacant)
    (hstops : list.stopsBelow (.of site.key) = .ok (stopsAt list.height behind))
    (hunmet : ∀ other ∈ ahead.head?, compare other.key site.key ≠ .eq)
    (hroom : (behind ++ ahead).length < Pool.capacity)
    (hid : site.id = list.lanes.pool.freshId vacant) {source : R}
    (hdraw : list.policy.drawHeight list.source = (site.height, source)) :
    ∃ after, list.insert site.key site.value =
        .ok { answer := none, after,
              events := if list.height < site.height then [.grew list.height site.height]
                else [] } ∧
      after.Holds (behind ++ site :: ahead) vacant.tail ∧
      after.policy = list.policy ∧ after.source = source ∧
      Lanes.SameAbove (max list.height site.height) list.lanes after.lanes := by
  have hmatching := h.matching?_unmet rfl
    (show ∀ other ∈ ahead.head?, Target.of site.key other.key ≠ .eq from hunmet)
  obtain ⟨after, hinsert, hafter⟩ := h.insertNew_eq hroom hid hdraw
  refine ⟨after, ?_, hafter⟩
  simp only [insert, h.pathTo_eq hstops, Fault.ok_bind, hmatching]
  exact hinsert

/-! ### Removing a key -/

/-- Nothing is taken out where the site ahead does not meet the target. -/
theorem removeEntry_unmet (h : list.Holds (behind ++ ahead) vacant)
    (hstops : list.stopsBelow target = .ok (stopsAt list.height behind))
    (hunmet : ∀ site ∈ ahead.head?, target site.key ≠ .eq) :
    list.removeEntry target = .ok { answer := none, after := list } := by
  simp [removeEntry, h.pathTo_eq hstops, h.matching?_unmet rfl hunmet]

/-- **What taking out a site computes**: lanes without it, of which as many stay in use as the
tallest column has that is left. -/
theorem removeEntry_computes (h : list.Holds (behind ++ site :: ahead) vacant)
    (hstops : list.stopsBelow target = .ok (stopsAt list.height behind))
    (hmet : target site.key = .eq) :
    ∃ lanes height, height = tallest ((behind ++ ahead).map (·.height)) ∧
      list.removeEntry target =
        .ok { answer := some site.entry
              after := { list with lanes, height, size := (behind ++ ahead).length }
              events := if height ≠ list.height then [.shrank list.height height] else [] } ∧
      lanes.Represents list.height (behind ++ ahead) (site.id :: vacant) ∧
      Lanes.SameAbove list.height list.lanes lanes := by
  obtain ⟨node, lanes, hremove, hkey, hvalue, hlanes, hsame⟩ := h.lanes.remove h.length_lt_bound
  have hentry : node.entry = site.entry := by simp [Node.entry, Column.entry, hkey, hvalue]
  have hsize : Counter.sub list.size 1 = .ok (behind ++ ahead).length := by
    rw [h.size_eq, List.perm_middle.length_eq]
    exact Counter.sub_eq_ok (by simp)
  refine ⟨lanes, _, rfl, ?_, hlanes, hsame⟩
  simp only [removeEntry, h.pathTo_eq hstops, Fault.ok_bind, h.matching?_met rfl hmet, hremove,
    hlanes.usedLevels_eq, hsize, Fault.pure_eq_ok, hentry]

/-- **A site that meets the target is taken out**, and with it the levels that its node alone stood
on. -/
theorem removeEntry_met (h : list.Holds (behind ++ site :: ahead) vacant)
    (hstops : list.stopsBelow target = .ok (stopsAt list.height behind))
    (hmet : target site.key = .eq) :
    ∃ after, list.removeEntry target =
        .ok { answer := some site.entry, after,
              events := if after.height ≠ list.height then [.shrank list.height after.height]
                else [] } ∧
      after.Holds (behind ++ ahead) (site.id :: vacant) ∧
      after.policy = list.policy ∧ after.source = list.source ∧
      Lanes.SameAbove list.height list.lanes after.lanes := by
  obtain ⟨lanes, height, rfl, hremove, hlanes, hsame⟩ := h.removeEntry_computes hstops hmet
  have hbounds : ∀ other ∈ behind ++ ahead, other.height ≤
      tallest ((behind ++ ahead).map (·.height)) := fun other hother =>
    tallest_le_iff.1 le_rfl _ (List.mem_map_of_mem hother)
  have hle : tallest ((behind ++ ahead).map (·.height)) ≤ list.height := by
    rw [h.height_eq, tallest_middle]
    exact Nat.le_max_left _ _
  refine ⟨_, hremove, ?_, rfl, rfl, hsame⟩
  exact
    { lanes := hlanes.lower hle hbounds
      height_eq := rfl
      size_eq := rfl
      fits := by
        have hfits := h.fits
        rw [List.perm_middle.length_eq, List.length_cons] at hfits
        omega
      accepted := h.accepted
      head_size := hsame.head_size.trans h.head_size }

/-! ### Clearing -/

/-- **A cleared list is one that was just built**, with the policy and the source that it has. -/
theorem clear_eq_blank {sites : List (Site K V)} (h : list.Holds sites vacant) :
    list.clear = blank list.policy list.source := by
  simp [clear, blank, Lanes.clear, Lanes.blank, Pool.clear, h.head_size]

theorem clear {sites : List (Site K V)} (h : list.Holds sites vacant) :
    list.clear.Holds [] [] := by
  rw [h.clear_eq_blank]
  exact holds_blank h.accepted list.source

end Holds

/-! ### Changes of a sorted row -/

namespace Represents

variable [Ord K] {list : SkipList K V R} {behind ahead : List (Site K V)} {site : Site K V}
  {vacant : List NodeId} {target : Target K}

theorem replace_absent (h : list.Represents (behind ++ ahead) vacant)
    (hparted : Parted (fun site => target site.key) behind ahead) (value : V) :
    list.replace target value = .ok { answer := none, after := list } :=
  h.replace_unmet (h.stopsBelow_eq rfl hparted.below hparted.above_not_lt) hparted.ahead_unmet value

theorem removeEntry_absent (h : list.Represents (behind ++ ahead) vacant)
    (hparted : Parted (fun site => target site.key) behind ahead) :
    list.removeEntry target = .ok { answer := none, after := list } :=
  h.removeEntry_unmet (h.stopsBelow_eq rfl hparted.below hparted.above_not_lt) hparted.ahead_unmet

/-- Writing a value keeps the row sorted. -/
theorem sorted_write (h : list.Represents (behind ++ site :: ahead) vacant) (value : V) :
    (behind ++ { site with value } :: ahead).Pairwise fun a b => compare a.key b.key = .lt := by
  have hsorted := h.sorted
  simp only [List.pairwise_append, List.pairwise_cons, List.mem_cons, forall_eq_or_imp]
    at hsorted ⊢
  exact hsorted

theorem replace_present (h : list.Represents (behind ++ site :: ahead) vacant)
    (hparted : Parted (fun site => target site.key) behind ahead) (hmet : target site.key = .eq)
    (value : V) :
    ∃ after, list.replace target value = .ok { answer := some site.value, after } ∧
      after.Represents (behind ++ { site with value } :: ahead) vacant ∧
      after.policy = list.policy ∧ after.source = list.source := by
  have hstops := h.stopsBelow_eq rfl hparted.below (hparted.met_not_lt hmet)
  obtain ⟨after, hafter, hrow, hsame⟩ := h.replace_met hstops hmet value
  exact ⟨after, hafter, ⟨hrow, h.sorted_write value⟩, hsame⟩

/-- **A key that is present gets another value.** -/
theorem insert_present [WordSource R] {key : K}
    (h : list.Represents (behind ++ site :: ahead) vacant)
    (hparted : Parted (fun site => compare site.key key) behind ahead)
    (hmet : compare site.key key = .eq) (value : V) :
    ∃ after, list.insert key value = .ok { answer := some site.value, after } ∧
      after.Represents (behind ++ { site with value } :: ahead) vacant ∧
      after.policy = list.policy ∧ after.source = list.source := by
  have hstops : list.stopsBelow (.of key) = .ok (stopsAt list.height behind) :=
    h.stopsBelow_eq rfl hparted.below (hparted.met_not_lt hmet)
  obtain ⟨after, hafter, hrow, hsame⟩ := h.insert_met hstops hmet value
  exact ⟨after, hafter, ⟨hrow, h.sorted_write value⟩, hsame⟩

/-- **A new key is put in where it belongs.** -/
theorem insert_absent [WordSource R] [Std.TransOrd K]
    (h : list.Represents (behind ++ ahead) vacant)
    (hparted : Parted (fun other => compare other.key site.key) behind ahead)
    (hroom : (behind ++ ahead).length < Pool.capacity)
    (hid : site.id = list.lanes.pool.freshId vacant) {source : R}
    (hdraw : list.policy.drawHeight list.source = (site.height, source)) :
    ∃ after, list.insert site.key site.value =
        .ok { answer := none, after,
              events := if list.height < site.height then [.grew list.height site.height]
                else [] } ∧
      after.Represents (behind ++ site :: ahead) vacant.tail ∧
      after.policy = list.policy ∧ after.source = source ∧
      Lanes.SameAbove (max list.height site.height) list.lanes after.lanes := by
  have hstops : list.stopsBelow (.of site.key) = .ok (stopsAt list.height behind) :=
    h.stopsBelow_eq rfl hparted.below hparted.above_not_lt
  obtain ⟨after, hafter, hrow, hsame⟩ :=
    h.insert_unmet hstops hparted.ahead_unmet hroom hid hdraw
  exact ⟨after, hafter, ⟨hrow, hparted.pairwise_middle _ h.sorted⟩, hsame⟩

/-- **A key that is present is taken out.** -/
theorem removeEntry_present (h : list.Represents (behind ++ site :: ahead) vacant)
    (hparted : Parted (fun site => target site.key) behind ahead) (hmet : target site.key = .eq) :
    ∃ after, list.removeEntry target =
        .ok { answer := some site.entry, after,
              events := if after.height ≠ list.height then [.shrank list.height after.height]
                else [] } ∧
      after.Represents (behind ++ ahead) (site.id :: vacant) ∧
      after.policy = list.policy ∧ after.source = list.source ∧
      Lanes.SameAbove list.height list.lanes after.lanes := by
  have hstops := h.stopsBelow_eq rfl hparted.below (hparted.met_not_lt hmet)
  obtain ⟨after, hafter, hrow, hsame⟩ := h.removeEntry_met hstops hmet
  refine ⟨after, hafter, ⟨hrow, h.sorted.sublist ?_⟩, hsame⟩
  exact List.Sublist.append (List.Sublist.refl _) (List.sublist_cons_self site ahead)

theorem clear {sites : List (Site K V)} (h : list.Represents sites vacant) :
    list.clear.Represents [] [] where
  toHolds := h.toHolds.clear
  sorted := List.Pairwise.nil

end Represents

end SkipList

end IndexedSkipList
