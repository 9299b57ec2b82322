/-
**Where a search for a target stops.**

On every lane a search stops at the last node below its target, or at the head if the lane has none,
and it knows at which place of the base this is.  It never starts a lane afresh: it goes on from the
stop of the lane above, which stands on this lane as well, and so the stops come to lie further and
further along the base.  At the base there is nothing left between the stop and the target: the next
node meets it, or lies above it, or is not there.

A search gives the list of its stops, and whoever wants to know about them has to wait for its end.
Told as it goes, it is a search with a recorder: as soon as the walk along a lane has ended, the
recorder is told the level and the stop, and goes on from there with a state of its own.  The list
is what one recorder makes of this, the one that puts each stop before those of the lanes above; and
any other recorder is told the same, once for each lane from the uppermost down, so that it gets to
the state that it would reach with the finished list.  All that a list does with a target rests on
the stops, and what is said of them here is said for everyone who is told of them.

Main definitions:

* `Lanes.descendTelling` — the search that tells a recorder;
* `Pool.liesBelow`, `Place.last` — the nodes below a target, and the last of some nodes;
* `SkipList.SearchReports` — what a search tells, and where it ends;
* `SkipList.SearchesReport` — so it is for every target.

Main results:

* `Lanes.descend_eq_telling` — **the stops of a search are those that are told**;
* `Lanes.exists_reports` — what is told does not depend on the recorder;
* `placeAfter_front` — a search stops at the last site that stands on the lane;
* `SkipList.Represents.searchReports` — **what is told of a search for a target**;
* `SkipList.Reachable.searchesReport` — **in lists that can be reached all searches tell this**.
-/

import IndexedSkipList.Proofs.SkipList.WellFormed

set_option relaxedAutoImplicit false
set_option autoImplicit false

namespace IndexedSkipList

variable {K V R : Type}

/-! ### Searches that tell where they stop -/

namespace Lanes

/-- **The search that tells a recorder** of each stop and its level, on the lanes below `level` and
the uppermost first.  It ends with the state of the recorder and with the stop at the base. -/
def descendTelling {S : Type} (lanes : Lanes K V) (accepts : K → Nat → Bool)
    (record : S → Nat → Stop → S) : (level : Nat) → (stop : Stop) → (state : S) →
      Except Fault (S × Stop)
  | 0, stop, state => pure (state, stop)
  | level + 1, stop, state => do
      let stop ← walk (lanes.advance? accepts level) lanes.pool.slots.size stop
      lanes.descendTelling accepts record level stop (record state level stop)

variable {lanes : Lanes K V} {accepts : K → Nat → Bool}

/-- **The stops of a search are those that are told**, put one before the other. -/
theorem descend_eq_telling (level : Nat) (stop : Stop) (path : List Stop) :
    lanes.descend accepts level stop path =
      (·.1) <$> lanes.descendTelling accepts (fun path _ stop => stop :: path) level stop path := by
  induction level generalizing stop path with
  | zero => rfl
  | succ level ih =>
      unfold descend descendTelling
      cases walk (lanes.advance? accepts level) lanes.pool.slots.size stop with
      | error fault => rfl
      | ok stop => exact ih stop (stop :: path)

/-- **What is told does not depend on the recorder**: there is one list of reports, with one report
for each level from the uppermost down, which every recorder takes in report by report. -/
theorem exists_reports {level : Nat} {stop : Stop} {path stops : List Stop}
    (h : lanes.descend accepts level stop path = .ok stops) :
    ∃ reports : List (Nat × Stop),
      reports.map Prod.fst = (List.range level).reverse ∧
      stops = (reports.map Prod.snd).reverse ++ path ∧
      ∀ {S : Type} (record : S → Nat → Stop → S) (state : S),
        lanes.descendTelling accepts record level stop state =
          .ok (reports.foldl (fun state report => record state report.1 report.2) state,
            (reports.map Prod.snd).getLastD stop) := by
  induction level generalizing stop path with
  | zero => exact ⟨[], rfl, (Except.ok.inj h).symm, fun _ _ => rfl⟩
  | succ level ih =>
      obtain ⟨stop', hwalk, h⟩ := Fault.bind_eq_ok_iff.1 h
      obtain ⟨reports, hlevels, rfl, htold⟩ := ih h
      refine ⟨(level, stop') :: reports, ?_, by simp, fun record state => ?_⟩
      · rw [List.map_cons, hlevels, List.range_succ, List.reverse_concat]
      · rw [descendTelling, hwalk, List.map_cons, List.getLastD_cons]
        exact htold record (record state level stop')

end Lanes

/-! ### The last node below a target -/

/-- The id names a node whose key lies below the target. -/
def Pool.liesBelow (pool : Pool K V) (target : Target K) (id : NodeId) : Bool :=
  match pool.get id with
  | .ok node => target node.key = .lt
  | .error _ => false

/-- The last of some nodes, and the head if there are none. -/
def Place.last (ids : List NodeId) : Place :=
  match ids.getLast? with
  | none => .head
  | some id => .node id

theorem placeAfter_eq_last (behind : List (Site K V)) :
    placeAfter behind = Place.last (behind.map (·.id)) := by
  rw [placeAfter, Place.last, List.getLast?_map]
  cases behind.getLast? <;> rfl

/-- **A search stops at the last site that stands on the lane**, of those behind the place where it
ends. -/
theorem placeAfter_front (level : Nat) (behind : List (Site K V)) :
    placeAfter (front level behind) =
      Place.last ((behind.filter fun site => level < site.height).map (·.id)) := by
  have hshort : (between level behind).filter (fun site => decide (level < site.height)) = [] :=
    List.filter_eq_nil_iff.2 fun site hsite => by simpa using height_le_of_mem_between hsite
  conv_rhs => rw [← front_append_between level behind, List.filter_append, hshort, List.append_nil]
  rw [placeAfter_eq_last]
  rcases List.eq_nil_or_concat' (front level behind) with hnil | ⟨before, site, hconcat⟩
  · rw [hnil]
    rfl
  · -- the last site of the front stands on the lane
    have htall := lt_levelsAfter_front (Nat.lt_succ_self level) behind
    rw [hconcat, levelsAfter_concat] at htall
    simp [hconcat, Place.last, htall]

/-- The lower the lane, the further along the base a search stops. -/
theorem length_front_le {lower upper : Nat} (h : lower ≤ upper) (behind : List (Site K V)) :
    (front upper behind).length ≤ (front lower behind).length := by
  have hfront : front upper behind = front upper (front lower behind) := by
    conv_lhs => rw [← front_append_between lower behind]
    exact front_append_of_short (fun site hsite => (height_le_of_mem_between hsite).trans h) _
  rw [hfront]
  exact (front_isPrefix upper _).length_le

/-- With the levels and the stops the reports are known. -/
theorem reports_eq {height : Nat} {behind : List (Site K V)} {reports : List (Nat × Stop)}
    (hlevels : reports.map Prod.fst = (List.range height).reverse)
    (hstops : stopsAt height behind = (reports.map Prod.snd).reverse) :
    reports = (List.range height).reverse.map
      fun level => (level, stopAfter (front level behind)) := by
  rw [List.map_prod_left_eq_zip, List.map_reverse]
  refine List.zip_of_prod hlevels ?_
  rw [← List.reverse_inj, ← hstops, stopsAt, List.reverse_reverse]

/-- The sites below a target are those behind the place where it divides the row. -/
theorem filter_below {target : Target K} {behind ahead : List (Site K V)}
    (hbelow : ∀ site ∈ behind, target site.key = .lt)
    (hahead : ∀ site ∈ ahead, target site.key ≠ .lt) :
    (behind ++ ahead).filter (fun site => target site.key = .lt) = behind := by
  have hkept : behind.filter (fun site => target site.key = .lt) = behind :=
    List.filter_eq_self.2 fun site hsite => by simpa using hbelow site hsite
  have hgone : ahead.filter (fun site => target site.key = .lt) = [] :=
    List.filter_eq_nil_iff.2 fun site hsite => by simpa using hahead site hsite
  rw [List.filter_append, hkept, hgone, List.append_nil]

namespace SkipList

/-- **What a search for a target tells**, as it goes, and the stop `last` where it ends; the nodes
at the base are `ids` and the entries `entries`. -/
structure SearchReports (list : SkipList K V R) (target : Target K) (ids : List NodeId)
    (entries : List (K × V)) (reports : List (Nat × Stop)) (last : Stop) : Prop where
  /-- A search tells its stops to a recorder that puts each before those of the lanes above. -/
  search_eq : list.stopsBelow target = (·.1) <$>
    list.lanes.descendTelling target.below (fun path _ stop => stop :: path) list.height {} []
  /-- Every recorder is told the reports in their order, and nothing else. -/
  told : ∀ {S : Type} (record : S → Nat → Stop → S) (state : S),
    list.lanes.descendTelling target.below record list.height {} state =
      .ok (reports.foldl (fun state report => record state report.1 report.2) state, last)
  /-- There is one report for each level in use, from the uppermost down. -/
  levels : reports.map Prod.fst = (List.range list.height).reverse
  /-- These are the stops that changes and questions work with. -/
  stopsBelow_eq : list.stopsBelow target = .ok (reports.map Prod.snd).reverse
  base_eq : Lanes.base (reports.map Prod.snd).reverse = last
  /-- A stop is the last node below the target that the level leads through, together with the
  position of this node at the base. -/
  stops : ∀ report ∈ reports, ∃ chain, list.lanes.Chain report.1 .head chain ∧
    report.2.place = Place.last (chain.filter (list.lanes.pool.liesBelow target)) ∧
    report.2.rank = position ids report.2.place
  /-- Positions never decrease on the way down. -/
  ascending : (reports.map fun report => report.2.rank).Pairwise (· ≤ ·)
  /-- In the end there are as many nodes behind as there are keys below the target. -/
  last_place : last.place = Place.last (ids.filter (list.lanes.pool.liesBelow target))
  last_rank : last.rank = entries.countP fun entry => target entry.1 = .lt

/-- **What comes after the stop where a search for a target ends**, at the base. -/
structure EndsBefore (list : SkipList K V R) (target : Target K) (last : Stop) : Prop where
  /-- If a node meets the target, it is the next one, and is found; -/
  met : ∀ id node, list.lanes.pool.get id = .ok node → target node.key = .eq →
    (∃ span, list.lanes.link last.place 0 = .ok { next := some id, span }) ∧
    list.find? target = .ok (some id)
  /-- if none does, the next one lies above the target, or there is none. -/
  unmet : (∀ id node, list.lanes.pool.get id = .ok node → target node.key ≠ .eq) →
    (∃ next span, list.lanes.link last.place 0 = .ok { next, span } ∧
      ∀ id, next = some id → ∃ node, list.lanes.pool.get id = .ok node ∧ target node.key = .gt) ∧
    list.find? target = .ok none

/-- **All searches tell where they stop.** -/
structure SearchesReport [Ord K] (list : SkipList K V R) (ids : List NodeId)
    (entries : List (K × V)) : Prop where
  wellFormed : list.WellFormedAlong ids
  entries_eq : list.entries = .ok entries
  byTarget : ∀ target : Target K, target.Agrees →
    ∃ reports last, list.SearchReports target ids entries reports last ∧
      list.EndsBefore target last

namespace Represents

variable [Ord K] {list : SkipList K V R} {sites : List (Site K V)} {vacant : List NodeId}

/-- The nodes below a target are those of the sites below it. -/
theorem filter_liesBelow (h : list.Represents sites vacant) (target : Target K)
    {row : List (Site K V)} (hrow : row ⊆ sites) :
    (row.map (·.id)).filter (list.lanes.pool.liesBelow target) =
      (row.filter fun site => target site.key = .lt).map (·.id) :=
  h.filter_ids hrow fun site node hnode hkey _ => by simp [Pool.liesBelow, hnode, hkey]

section Divided

variable {target : Target K} {behind ahead : List (Site K V)} {met : Site K V}

/-- **The stop on a level is the last node below the target that the level leads through**, and its
rank is the position of this node at the base. -/
theorem exists_chain_of_divided (h : list.Represents sites vacant)
    (hsites : sites = behind ++ ahead) (hbelow : ∀ site ∈ behind, target site.key = .lt)
    (hahead : ∀ site ∈ ahead, target site.key ≠ .lt) {level : Nat} (hlevel : level < list.height) :
    ∃ chain, list.lanes.Chain level .head chain ∧
      placeAfter (front level behind) =
        Place.last (chain.filter (list.lanes.pool.liesBelow target)) ∧
      (front level behind).length =
        position (sites.map (·.id)) (placeAfter (front level behind)) := by
  refine ⟨_, h.lanes.chain hlevel, ?_, ?_⟩
  · rw [h.filter_liesBelow target (List.filter_subset_self _), List.filter_comm, hsites,
      filter_below hbelow hahead, placeAfter_front]
  · have hrow : sites = front level behind ++ (between level behind ++ ahead) := by
      rw [← List.append_assoc, front_append_between, hsites]
    have hnodup := h.lanes.houses.nodup
    rw [hrow] at hnodup ⊢
    exact (position_placeAfter hnodup).symm

/-- **What a search tells that ends at a division of the row.** -/
theorem searchReports_of_divided (h : list.Represents sites vacant)
    (hsites : sites = behind ++ ahead) (hbelow : ∀ site ∈ behind, target site.key = .lt)
    (hahead : ∀ site ∈ ahead, target site.key ≠ .lt) :
    ∃ reports, list.SearchReports target (sites.map (·.id)) (entriesOf sites) reports
      (stopAfter behind) := by
  have hstops := h.stopsBelow_eq hsites hbelow hahead
  obtain ⟨reports, hlevels, hpath, htold⟩ := Lanes.exists_reports hstops
  rw [List.append_nil] at hpath
  have hreports := reports_eq hlevels hpath
  have hbase : Lanes.base (reports.map Prod.snd).reverse = stopAfter behind := by
    rw [← hpath, h.base_eq hsites]
  have hlast : (reports.map Prod.snd).getLastD {} = stopAfter behind := by
    rw [← hbase, Lanes.base, List.headD_eq_head?_getD, List.head?_reverse,
      List.getLastD_eq_getLast?]
  refine ⟨reports, ?_⟩
  exact
    { search_eq := Lanes.descend_eq_telling list.height {} []
      told := fun record state => hlast ▸ htold record state
      levels := hlevels
      stopsBelow_eq := hpath ▸ hstops
      base_eq := hbase
      stops := by
        intro report hreport
        rw [hreports] at hreport
        obtain ⟨level, hlevel, rfl⟩ := List.mem_map.1 hreport
        exact h.exists_chain_of_divided hsites hbelow hahead (by simpa using hlevel)
      ascending := by
        rw [hreports, List.map_map, List.pairwise_map, List.pairwise_reverse]
        exact List.pairwise_lt_range.imp fun hlt => length_front_le hlt.le behind
      last_place := by
        rw [h.filter_liesBelow target (List.Subset.refl _), hsites, filter_below hbelow hahead]
        exact placeAfter_eq_last behind
      last_rank := by
        rw [entriesOf, List.countP_map, hsites]
        exact (countP_below hbelow hahead).symm }

/-- A node that meets the target is the one that stands where the row is divided. -/
theorem endsBefore_met (h : list.Represents sites vacant) (hagrees : target.Agrees)
    (hsites : sites = behind ++ met :: ahead) (hmet : target met.key = .eq)
    (hparted : Parted (fun site => target site.key) behind ahead) :
    list.EndsBefore target (stopAfter behind) where
  met := by
    intro id node hnode hnodeMet
    obtain ⟨site, hsite, rfl, hkey, _⟩ := h.exists_site hnode
    obtain rfl : site = met := hparted.eq_of_met (hsites ▸ hsite) (hkey ▸ hnodeMet)
    obtain ⟨⟨next, span⟩, hlink, hnext⟩ := h.lanes.link?_base h.head_pos hsites
    obtain rfl : next = some site.id := hnext
    refine ⟨⟨span, Lanes.link_eq_ok_iff.2 hlink⟩, ?_⟩
    rw [h.find?_eq hagrees, hsites, hparted.find?_present hmet]
    rfl
  unmet := by
    intro hnone
    obtain ⟨node, hnode, hkey, _⟩ := h.lanes.houses.exists_node
      (show met ∈ sites by simp [hsites])
    exact absurd (hkey ▸ hmet) (hnone met.id node (Pool.get_eq_ok_iff.2 hnode))

/-- Without such a node the division lies before a node above the target, or at the end. -/
theorem endsBefore_unmet (h : list.Represents sites vacant) (hagrees : target.Agrees)
    (hsites : sites = behind ++ ahead)
    (hparted : Parted (fun site => target site.key) behind ahead) :
    list.EndsBefore target (stopAfter behind) where
  met := by
    intro id node hnode hnodeMet
    obtain ⟨site, hsite, rfl, hkey, _⟩ := h.exists_site hnode
    exact absurd (hkey ▸ hnodeMet) (hparted.unmet site (hsites ▸ hsite))
  unmet := by
    intro _
    obtain ⟨⟨next, span⟩, hlink, hnext⟩ := h.lanes.link?_base h.head_pos hsites
    refine ⟨⟨next, span, Lanes.link_eq_ok_iff.2 hlink, fun id hid => ?_⟩, ?_⟩
    · obtain ⟨site, hhead, rfl⟩ := Option.map_eq_some_iff.1 (hnext.symm.trans hid)
      have hsite : site ∈ ahead := List.mem_of_mem_head? hhead
      obtain ⟨node, hnode, hkey, _⟩ := h.lanes.houses.exists_node
        (show site ∈ sites by simp [hsites, hsite])
      exact ⟨node, Pool.get_eq_ok_iff.2 hnode, hkey ▸ hparted.above site hsite⟩
    · rw [h.find?_eq hagrees, hsites, hparted.find?_absent]
      rfl

end Divided

/-- **What is told of a search for a target.** -/
theorem searchReports (h : list.Represents sites vacant) {target : Target K}
    (hagrees : target.Agrees) :
    ∃ reports last, list.SearchReports target (sites.map (·.id)) (entriesOf sites) reports last ∧
      list.EndsBefore target last := by
  rcases exists_parted hagrees h.sorted with
    ⟨behind, ahead, hsites, hparted⟩ | ⟨behind, met, ahead, hsites, hmet, hparted⟩
  · obtain ⟨reports, hreports⟩ :=
      h.searchReports_of_divided hsites hparted.below hparted.above_not_lt
    exact ⟨reports, _, hreports, h.endsBefore_unmet hagrees hsites hparted⟩
  · obtain ⟨reports, hreports⟩ :=
      h.searchReports_of_divided hsites hparted.below (hparted.met_not_lt hmet)
    exact ⟨reports, _, hreports, h.endsBefore_met hagrees hsites hmet hparted⟩

end Represents

/-- **In lists that can be reached all searches tell where they stop.** -/
theorem Reachable.searchesReport [Ord K] [Std.TransOrd K] [Printable K] [Printable V] [BEq V]
    [WordSource R] {list : SkipList K V R} (h : list.Reachable) :
    ∃ ids entries, list.SearchesReport ids entries := by
  obtain ⟨sites, vacant, hrow⟩ := h.represents
  exact ⟨sites.map (·.id), entriesOf sites, hrow.wellFormedAlong, hrow.entries_eq,
    fun target hagrees => hrow.searchReports hagrees⟩

/-- At the end of the small run all searches tell where they stop. -/
theorem smallList_searchesReport : smallList.Reachable ∧
    ∃ ids, smallList.SearchesReport ids [(1, 10), (3, 31), (6, 60), (8, 80)] := by
  obtain ⟨ids, entries, hreports⟩ := smallList_reachable.searchesReport
  obtain rfl := Except.ok.inj (hreports.entries_eq.symm.trans smallList_entries)
  exact ⟨smallList_reachable, ids, hreports⟩

end SkipList

end IndexedSkipList
