/-
**Whatever a run does, the list stays well formed.**

Here it is said of the list itself, without rows, what holds of it at every moment: which nodes the
links of each level lead through, what their spans are, how tall towers are, which links of the head
are not in use, and that every slot that holds no node is on the free list.  All of this follows
from one list of ids, those of the nodes at the base, and the row that a list represents gives this
list.

Main definitions:

* `SkipList.WellFormedAlong` — the list is well formed, and these are its nodes in order;
* `SkipList.WellFormed` — the list is well formed;
* `SkipList.RunsWellFormed` — the list is well formed, and so it is after every command of a run.

Main results:

* `SkipList.Represents.wellFormed` — lists that represent rows are well formed;
* `SkipList.run_wellFormed` — **every list that a run goes through is well formed**.
-/

import IndexedSkipList.Proofs.SkipList.Runs

set_option relaxedAutoImplicit false
set_option autoImplicit false

namespace IndexedSkipList

variable {K V R : Type}

/-- The id names a node that stands on the level. -/
def Pool.standsOn (pool : Pool K V) (level : Nat) (id : NodeId) : Bool :=
  match pool.get id with
  | .ok node => level < node.height
  | .error _ => false

namespace SkipList

variable [Ord K]

/-- **The list is well formed, and `ids` are its nodes at the base**, in their order. -/
structure WellFormedAlong (list : SkipList K V R) (ids : List NodeId) : Prop where
  /-- The base leads through these nodes. -/
  base : list.lanes.Chain 0 .head ids
  /-- It leads through each once. -/
  nodup : ids.Nodup
  /-- There are no other nodes. -/
  occupied : ∀ id, id ∈ ids ↔ ∃ node, list.lanes.pool.get id = .ok node
  size_eq : list.size = ids.length
  /-- Keys are in strictly ascending order. -/
  ascending : ids.Pairwise fun a b => ∀ node node', list.lanes.pool.get a = .ok node →
    list.lanes.pool.get b = .ok node' → compare node.key node'.key = .lt
  heights : ∀ id node, list.lanes.pool.get id = .ok node →
    1 ≤ node.height ∧ node.height ≤ list.height
  /-- A level in use leads through the nodes that stand on it, in the order of the base. -/
  levels : ∀ level, level < list.height →
    list.lanes.Chain level .head (ids.filter (list.lanes.pool.standsOn level))
  /-- The span of a link is the position of the place that it leads to less that of the place that
  it leaves; the span of the last link of a level covers what is left. -/
  spans : ∀ level, level < list.height → ∀ place link, list.lanes.link place level = .ok link →
    (∀ id, link.next = some id → position ids (.node id) = position ids place + link.span) ∧
    (link.next = none → list.size = position ids place + link.span)
  head_size : list.lanes.head.size = list.policy.maxHeight
  /-- The links of the head above the levels in use lead nowhere. -/
  unused : ∀ level, list.height ≤ level → level < list.policy.maxHeight →
    ∃ span, list.lanes.link .head level = .ok { next := none, span }
  /-- As many levels are in use as the tallest node has, none if there are no nodes. -/
  height_eq : (ids = [] ∧ list.height = 0) ∨
    ∃ id node, list.lanes.pool.get id = .ok node ∧ node.height = list.height
  /-- Every slot that holds no node is on the free list, once. -/
  free : ∃ vacant, list.lanes.pool.Threaded vacant

/-- **The list is well formed.** -/
def WellFormed (list : SkipList K V R) : Prop := ∃ ids, list.WellFormedAlong ids

namespace Represents

variable {list : SkipList K V R} {sites : List (Site K V)} {vacant : List NodeId}

/-- The node under the id of a site. -/
theorem get_site (h : list.Represents sites vacant) {site : Site K V} (hsite : site ∈ sites)
    {node : Node K V} (hnode : list.lanes.pool.get site.id = .ok node) :
    node.key = site.key ∧ node.height = site.height := by
  obtain ⟨node', hnode', hkey, _, hsize⟩ := h.lanes.houses.exists_node hsite
  obtain rfl : node = node' :=
    Option.some.inj ((Pool.get_eq_ok_iff.1 hnode).symm.trans hnode')
  exact ⟨hkey, hsize⟩

/-- Every node is that of a site. -/
theorem exists_site (h : list.Represents sites vacant) {id : NodeId} {node : Node K V}
    (hnode : list.lanes.pool.get id = .ok node) :
    ∃ site ∈ sites, site.id = id ∧ node.key = site.key ∧ node.height = site.height := by
  obtain ⟨site, hsite, rfl⟩ := List.mem_map.1
    ((h.lanes.houses.mem_ids_iff id).2 ⟨node, Pool.get_eq_ok_iff.1 hnode⟩)
  exact ⟨site, hsite, rfl, h.get_site hsite hnode⟩

/-- A choice among nodes is one among their sites, if it looks at keys and heights alone. -/
theorem filter_ids (h : list.Represents sites vacant) {row : List (Site K V)} (hrow : row ⊆ sites)
    {chosen : NodeId → Bool} {chosenSite : Site K V → Bool}
    (hchosen : ∀ site node, list.lanes.pool.get site.id = .ok node → node.key = site.key →
      node.height = site.height → chosen site.id = chosenSite site) :
    (row.map (·.id)).filter chosen = (row.filter chosenSite).map (·.id) := by
  rw [List.filter_map]
  congr 1
  refine List.filter_congr fun site hsite => ?_
  obtain ⟨node, hnode, hkey, _, hsize⟩ := h.lanes.houses.exists_node (hrow hsite)
  exact hchosen site node (Pool.get_eq_ok_iff.2 hnode) hkey hsize

/-- The nodes that stand on a level are those of the sites that do. -/
theorem filter_standsOn (h : list.Represents sites vacant) (level : Nat) :
    (sites.map (·.id)).filter (list.lanes.pool.standsOn level) =
      (sites.filter fun site => level < site.height).map (·.id) :=
  h.filter_ids (List.Subset.refl _) fun site node hnode _ hheight => by
    simp [Pool.standsOn, hnode, hheight]

/-- Some column is as tall as there are levels in use. -/
theorem exists_tallest (h : list.Represents sites vacant) (hne : sites ≠ []) :
    ∃ site ∈ sites, site.height = list.height := by
  -- otherwise all columns would end below, and with them the levels in use
  by_contra hnone
  have hlower : ∀ site ∈ sites, site.height ≤ list.height - 1 := by
    intro site hsite
    have hle := (h.lanes.bounds site hsite).2
    have hne : site.height ≠ list.height := fun he => hnone ⟨site, hsite, he⟩
    omega
  have htallest : list.height ≤ list.height - 1 := by
    conv_lhs => rw [h.height_eq]
    rw [tallest_le_iff]
    simpa using hlower
  obtain ⟨site, hsite⟩ := List.exists_mem_of_ne_nil sites hne
  have := h.lanes.bounds site hsite
  omega

/-- **A list that represents a row is well formed**, and its nodes are those of the row. -/
theorem wellFormedAlong (h : list.Represents sites vacant) :
    list.WellFormedAlong (sites.map (·.id)) where
  base := h.lanes.chain_base h.head_pos
  nodup := h.lanes.houses.nodup
  occupied := fun id => by
    rw [h.lanes.houses.mem_ids_iff]
    simp only [Pool.get_eq_ok_iff]
  size_eq := by rw [h.size_eq, List.length_map]
  ascending := by
    rw [List.pairwise_map]
    refine h.sorted.imp_of_mem fun {a b} ha hb hlt node node' hnode hnode' => ?_
    rw [(h.get_site ha hnode).1, (h.get_site hb hnode').1]
    exact hlt
  heights := fun id node hnode => by
    obtain ⟨site, hsite, _, _, hheight⟩ := h.exists_site hnode
    rw [hheight]
    exact h.lanes.bounds site hsite
  levels := fun level hlevel => by
    rw [h.filter_standsOn]
    exact h.lanes.chain hlevel
  spans := fun level hlevel place link hlink => by
    rw [h.size_eq]
    exact h.lanes.link_position hlevel hlink
  head_size := h.head_size
  unused := fun level hlevel hsize => by
    obtain ⟨span, hlink⟩ := h.lanes.above level hlevel (h.head_size ▸ hsize)
    exact ⟨span, Lanes.link_eq_ok_iff.2 hlink⟩
  height_eq := by
    rcases List.eq_nil_or_concat' sites with rfl | ⟨before, last, rfl⟩
    · exact Or.inl ⟨rfl, h.height_eq⟩
    · obtain ⟨site, hsite, hheight⟩ := h.exists_tallest (by simp)
      obtain ⟨node, hnode, _, _, hsize⟩ := h.lanes.houses.exists_node hsite
      exact Or.inr ⟨site.id, node, Pool.get_eq_ok_iff.2 hnode, hsize.trans hheight⟩
  free := ⟨vacant, h.lanes.houses.threaded⟩

theorem wellFormed (h : list.Represents sites vacant) : list.WellFormed :=
  ⟨sites.map (·.id), h.wellFormedAlong⟩

end Represents

/-! ### Runs -/

/-- **The list is well formed, and so is the list after every command**; no command fails. -/
structure RunsWellFormed [Printable K] [Printable V] [BEq V] [WordSource R]
    (list : SkipList K V R) (commands : List (Command K V)) : Prop where
  start : list.WellFormed
  outcomes : ∃ outcomes : List (Outcome (SkipList K V R) (Answer K V)),
    list.run commands = outcomes.map .ok ∧ outcomes.length = commands.length ∧
    ∀ outcome ∈ outcomes, outcome.after.WellFormed

/-- **Every list that a run goes through is well formed.**  The run starts without entries and with
an accepted policy, the targets agree with the order of the keys, and at no time are there as many
entries as ids; then no command fails. -/
theorem run_wellFormed [Std.TransOrd K] [Printable K] [Printable V] [BEq V] [WordSource R]
    (policy : HeightPolicy) (hpolicy : policy.validate = .ok ()) (source : R)
    (commands : List (Command K V)) (hlawful : ∀ command ∈ commands, command.Lawful)
    (hfits : Dictionary.Fits commands) :
    (blank policy source : SkipList K V R).RunsWellFormed commands := by
  refine ⟨(represents_blank hpolicy source).wellFormed, ?_⟩
  obtain ⟨outcomes, hrun, hmeets⟩ := run_meets hpolicy source hlawful hfits
  refine ⟨outcomes, hrun, ?_, fun outcome houtcome => ?_⟩
  · rw [hmeets.length_eq, Dictionary.length_history]
  · obtain ⟨moment, _, sites, vacant, hrow, _⟩ := exists_of_forall₂ hmeets houtcome
    exact hrow.wellFormed

/-- Every state of a run is well formed. -/
theorem RunsWellFormed.of_mem_states [Printable K] [Printable V] [BEq V] [WordSource R]
    {list state : SkipList K V R} {commands : List (Command K V)}
    (h : list.RunsWellFormed commands) (hmem : state ∈ list.states commands) :
    state.WellFormed := by
  obtain ⟨outcomes, hrun, _, hformed⟩ := h.outcomes
  rcases exists_outcome_of_mem_states hrun hmem with rfl | ⟨outcome, houtcome, rfl⟩
  · exact h.start
  · exact hformed outcome houtcome

/-- The lists that the small run goes through are well formed.  One of them is the list at the end
of it, which has four entries. -/
theorem smallRun_wellFormed :
    (blank {} smallWords : SkipList Nat Nat CyclicWords).RunsWellFormed smallRun ∧
      smallList ∈ (blank {} smallWords).states smallRun ∧ smallList.WellFormed ∧
      smallList.entries = .ok [(1, 10), (3, 31), (6, 60), (8, 80)] := by
  have hformed := run_wellFormed {} HeightPolicy.validate_default smallWords smallRun
    smallRun_lawful smallRun_fits
  have hmem : smallList ∈ (blank {} smallWords).states smallRun := List.getLast_mem _
  exact ⟨hformed, hmem, hformed.of_mem_states hmem, smallList_entries⟩

end SkipList

end IndexedSkipList
