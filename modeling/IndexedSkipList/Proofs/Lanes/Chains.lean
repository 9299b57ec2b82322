/-
**What the links of a level lead through.**

The links of a level form a chain that starts at the head.  In lanes that represent a row, the chain
of the base leads through all nodes in the order of the row, and the chain of a level through those
nodes that stand on it, in the same order.  The span of a link is the difference of the positions at
the base of the places that it leaves and leads to; the span of the last link of a level is what is
left of the row.

So a search for a place needs no look at the nodes.  As every link leads to a node, its moves are
those of the search that accepts the nodes up to the place; and as every link covers something,
there is no move from the place itself, so that it does not matter on which lane it is reached.

Main definitions:

* `Lanes.Chain` — the links of a level lead from a place through the nodes of a list;
* `position` — the position of a place at the base.

Main results:

* `Lanes.Represents.chain`, `Lanes.Represents.chain_base` — **which nodes a level leads through**;
* `Lanes.Represents.link_position` — **spans are differences of positions**;
* `Lanes.Represents.approach?_eq`, `Lanes.Represents.seek_eq` — **a search for a place** ends where
  the search that accepts the places up to it does.
-/

import IndexedSkipList.Proofs.Lanes.Represents

set_option relaxedAutoImplicit false
set_option autoImplicit false

namespace IndexedSkipList

variable {K V : Type}

/-- The position of a place at the base, whose nodes are `ids`; the head is at position zero. -/
def position (ids : List NodeId) : Place → Nat
  | .head => 0
  | .node id => ids.idxOf id + 1

/-- The position of a place of a row is the number of sites behind it. -/
theorem position_placeAfter {behind ahead : List (Site K V)}
    (hnodup : ((behind ++ ahead).map (·.id)).Nodup) :
    position ((behind ++ ahead).map (·.id)) (placeAfter behind) = behind.length := by
  rcases List.eq_nil_or_concat' behind with rfl | ⟨before, site, rfl⟩
  · rfl
  · have hnew : site.id ∉ before.map (·.id) := by
      intro hmem
      rw [List.append_assoc, List.map_append] at hnodup
      exact (List.nodup_append.1 hnodup).2.2 _ hmem site.id (by simp) rfl
    rw [placeAfter_concat, position, List.append_assoc, List.map_append,
      List.idxOf_append_of_notMem hnew]
    simp

/-- A link that leads somewhere covers the sites up to the one that it leads to. -/
theorem reach_next_eq_some {level : Nat} {ahead : List (Site K V)} {id : NodeId}
    (h : (reach level ahead).next = some id) :
    ∃ short site rest, ahead = short ++ site :: rest ∧ site.id = id ∧
      (reach level ahead).span = short.length + 1 := by
  rcases exists_first_tall level ahead with hshort | ⟨short, site, rest, rfl, hshort, htall⟩
  · rw [reach_next_eq_none_iff.2 hshort] at h
    cases h
  · rw [reach_append_of_short hshort, reach_cons_of_tall htall] at h ⊢
    exact ⟨short, site, rest, rfl, by simpa using h, rfl⟩

/-- A link that leads nowhere covers all that is ahead. -/
theorem reach_span_of_next_eq_none {level : Nat} {ahead : List (Site K V)}
    (h : (reach level ahead).next = none) : (reach level ahead).span = ahead.length := by
  have hreach := reach_append_of_short (reach_next_eq_none_iff.1 h) []
  rw [List.append_nil] at hreach
  simp [hreach]

namespace Lanes

/-- **The links of a level lead from a place through the nodes of a list**, one after the other, and
then end. -/
inductive Chain (lanes : Lanes K V) (level : Nat) : Place → List NodeId → Prop where
  | last {place : Place} {span : Nat} :
      lanes.link place level = .ok { next := none, span } → Chain lanes level place []
  | step {place : Place} {id : NodeId} {span : Nat} {ids : List NodeId} :
      lanes.link place level = .ok { next := some id, span } →
        Chain lanes level (.node id) ids → Chain lanes level place (id :: ids)

namespace Represents

variable {lanes : Lanes K V} {height : Nat} {sites : List (Site K V)} {vacant : List NodeId}

/-- From a place with a link on the level, over sites that are too short for it. -/
theorem chain_over (h : lanes.Represents height sites vacant) {level : Nat}
    {ahead : List (Site K V)} :
    ∀ {behind short : List (Site K V)}, sites = behind ++ (short ++ ahead) →
      level < levelsAfter height behind → (∀ other ∈ short, other.height ≤ level) →
      lanes.Chain level (placeAfter behind)
        ((ahead.filter fun site => level < site.height).map (·.id)) := by
  -- a site ahead either is passed over or is where the chain goes on from
  induction ahead with
  | nil =>
      intro behind short hsites hlevel hshort
      have hlink := link_eq_ok_iff.2 (h.links behind _ hsites level hlevel)
      rw [reach_append_of_short hshort] at hlink
      exact .last hlink
  | cons site ahead ih =>
      intro behind short hsites hlevel hshort
      by_cases htall : level < site.height
      · have hlink := link_eq_ok_iff.2 (h.links behind _ hsites level hlevel)
        rw [reach_append_of_short hshort, reach_cons_of_tall htall] at hlink
        have hrow : sites = (behind ++ short ++ [site]) ++ ([] ++ ahead) := by simp [hsites]
        have hrest := ih hrow (by rwa [levelsAfter_concat]) (by simp)
        rw [placeAfter_concat] at hrest
        rw [List.filter_cons_of_pos (by simpa using htall)]
        exact .step hlink hrest
      · rw [List.filter_cons_of_neg (by simpa using htall)]
        have hrow : sites = behind ++ ((short ++ [site]) ++ ahead) := by simp [hsites]
        refine ih hrow hlevel fun other hother => ?_
        rcases List.mem_append.1 hother with hother | hother
        · exact hshort other hother
        · obtain rfl := List.mem_singleton.1 hother
          omega

/-- **A level leads through the nodes that stand on it**, in the order of the row. -/
theorem chain (h : lanes.Represents height sites vacant) {level : Nat} (hlevel : level < height) :
    lanes.Chain level .head ((sites.filter fun site => level < site.height).map (·.id)) := by
  have hrow : sites = [] ++ ([] ++ sites) := rfl
  exact h.chain_over hrow hlevel (by simp)

/-- **The base leads through all nodes**, in the order of the row. -/
theorem chain_base (h : lanes.Represents height sites vacant) (hhead : 0 < lanes.head.size) :
    lanes.Chain 0 .head (sites.map (·.id)) := by
  cases sites with
  | nil =>
      obtain ⟨⟨next, span⟩, hlink, hnext⟩ := h.link?_base hhead (List.append_nil []).symm
      obtain rfl : next = none := hnext
      exact .last (link_eq_ok_iff.2 hlink)
  | cons site rest =>
      have hbounds := h.bounds site (List.mem_cons_self ..)
      have hchain := h.chain (show 0 < height by omega)
      rwa [List.filter_eq_self.2 fun other hother => by
        simpa using Nat.lt_of_lt_of_le Nat.zero_lt_one (h.bounds other hother).1] at hchain

/-- **The links of a level are those of the places of the row** that stand on it. -/
theorem link?_eq_some_iff (h : lanes.Represents height sites vacant) {place : Place} {level : Nat}
    {l : Link} (hlevel : level < height) :
    lanes.link? place level = some l ↔ ∃ behind ahead, sites = behind ++ ahead ∧
      level < levelsAfter height behind ∧ place = placeAfter behind ∧ l = reach level ahead := by
  constructor
  · intro hlink
    cases place with
    | head =>
        have hrow := h.links [] sites rfl level hlevel
        rw [placeAfter_nil, hlink] at hrow
        exact ⟨[], sites, rfl, hlevel, rfl, Option.some.inj hrow⟩
    | node id =>
        obtain ⟨tower, htower, hlevel⟩ := Option.bind_eq_some_iff.1 hlink
        obtain ⟨node, hnode, rfl⟩ := Option.map_eq_some_iff.1 htower
        obtain ⟨site, hsite, rfl⟩ := List.mem_map.1 ((h.houses.mem_ids_iff id).2 ⟨node, hnode⟩)
        obtain ⟨before, ahead, rfl⟩ := List.append_of_mem hsite
        obtain ⟨node', hnode', _, _, hsize⟩ := h.houses.exists_node hsite
        obtain rfl : node = node' := Option.some.inj (hnode.symm.trans hnode')
        -- a node with a link on the level belongs to a site that stands on it
        have hheight : level < site.height := hsize ▸ (Array.getElem?_eq_some_iff.1 hlevel).1
        have hrow := h.link?_node rfl hheight
        rw [hlink] at hrow
        exact ⟨before ++ [site], ahead, by simp, by simpa using hheight, by simp,
          Option.some.inj hrow⟩
  · rintro ⟨behind, ahead, hsites, hbehind, rfl, rfl⟩
    exact h.links behind ahead hsites level hbehind

/-- Wherever a link leaves, there is a place of the row. -/
theorem exists_place (h : lanes.Represents height sites vacant) {place : Place} {level : Nat}
    {l : Link} (hlevel : level < height) (hlink : lanes.link place level = .ok l) :
    ∃ behind ahead,
      sites = behind ++ ahead ∧ place = placeAfter behind ∧ l = reach level ahead := by
  obtain ⟨behind, ahead, hsites, _, hplace, hreach⟩ :=
    (h.link?_eq_some_iff hlevel).1 (link_eq_ok_iff.1 hlink)
  exact ⟨behind, ahead, hsites, hplace, hreach⟩

/-- **Spans are differences of positions**: a link covers the places from the one that it leaves to
the one that it leads to, or to the end. -/
theorem link_position (h : lanes.Represents height sites vacant) {place : Place} {level : Nat}
    {l : Link} (hlevel : level < height) (hlink : lanes.link place level = .ok l) :
    (∀ id, l.next = some id → position (sites.map (·.id)) (.node id) =
      position (sites.map (·.id)) place + l.span) ∧
    (l.next = none → sites.length = position (sites.map (·.id)) place + l.span) := by
  obtain ⟨behind, ahead, rfl, rfl, rfl⟩ := h.exists_place hlevel hlink
  have hnodup := h.houses.nodup
  rw [position_placeAfter hnodup]
  constructor
  · intro id hnext
    obtain ⟨short, site, rest, rfl, rfl, hspan⟩ := reach_next_eq_some hnext
    have hrow : behind ++ (short ++ site :: rest) = (behind ++ short ++ [site]) ++ rest := by simp
    rw [hrow] at hnodup
    have hposition := position_placeAfter hnodup
    rw [placeAfter_concat] at hposition
    rw [hspan, hrow, hposition]
    simp
  · intro hnext
    rw [reach_span_of_next_eq_none hnext, List.length_append]

/-! ### Searching for a place -/

/-- **A move towards a place** is one of the search that accepts the places up to it. -/
theorem approach?_eq (h : lanes.Represents height sites vacant) {level : Nat}
    (hlevel : level < height) (place : Nat) :
    lanes.approach? place level = lanes.advance? (fun _ rank => rank ≤ place) level := by
  funext stop
  unfold approach? advance?
  cases hlink : lanes.link stop.place level with
  | error fault => rfl
  | ok l =>
      obtain ⟨behind, ahead, hsites, _, rfl⟩ := h.exists_place hlevel hlink
      rw [Fault.ok_bind, Fault.ok_bind]
      cases hnext : (reach level ahead).next with
      | none => rfl
      | some id =>
          -- the link leads to a site ahead, so there is a node to be looked at
          obtain ⟨short, site, rest, rfl, rfl, _⟩ := reach_next_eq_some hnext
          obtain ⟨node, hnode, _⟩ := h.houses.exists_node (show site ∈ sites by simp [hsites])
          simp only [Pool.get_eq_ok_iff.2 hnode, Fault.ok_bind, decide_eq_true_eq, ← Nat.not_lt,
            ite_not]

/-- From the place itself no move leads towards it. -/
theorem approach?_of_arrived (h : lanes.Represents height sites vacant) {level place : Nat}
    (hlevel : level < height) {stop : Stop} (hstop : stop.rank = place) {next? : Option Stop}
    (hmove : lanes.approach? place level stop = .ok next?) : next? = none := by
  obtain ⟨l, hlink, hmove⟩ := Fault.bind_eq_ok_iff.1 hmove
  obtain ⟨behind, ahead, _, _, rfl⟩ := h.exists_place hlevel hlink
  cases hnext : (reach level ahead).next with
  | none =>
      rw [hnext] at hmove
      exact (Except.ok.inj hmove).symm
  | some id =>
      -- the next node stands behind the place, since the link covers at least one
      obtain ⟨short, site, rest, rfl, rfl, hspan⟩ := reach_next_eq_some hnext
      rw [hnext] at hmove
      obtain ⟨rank, hrank, hmove⟩ := Fault.bind_eq_ok_iff.1 hmove
      obtain ⟨_, rfl⟩ := Counter.add_eq_ok_iff.1 hrank
      rw [if_pos (by omega)] at hmove
      exact (Except.ok.inj hmove).symm

/-- A search that stands at the place goes down to the base without a move. -/
theorem base_of_arrived (h : lanes.Represents height sites vacant) {level place : Nat}
    (hlevel : level ≤ height) {stop : Stop} {path result : List Stop} (hpath : base path = stop)
    (hstop : stop.rank = place)
    (hdescend : lanes.descend (fun _ rank => rank ≤ place) level stop path = .ok result) :
    base result = stop := by
  induction level generalizing path with
  | zero =>
      obtain rfl : path = result := Except.ok.inj hdescend
      exact hpath
  | succ level ih =>
      obtain ⟨last, hwalk, hdescend⟩ := Fault.bind_eq_ok_iff.1 hdescend
      unfold walk at hwalk
      obtain ⟨next?, hmove, hwalk⟩ := Fault.bind_eq_ok_iff.1 hwalk
      rw [← h.approach?_eq hlevel] at hmove
      obtain rfl := h.approach?_of_arrived hlevel hstop hmove
      obtain rfl : stop = last := Except.ok.inj hwalk
      exact ih (by omega) rfl hdescend

theorem seek_of_descend (h : lanes.Represents height sites vacant) {level place : Nat}
    (hlevel : level ≤ height) {stop : Stop} {path result : List Stop} (hpath : base path = stop)
    (hdescend : lanes.descend (fun _ rank => rank ≤ place) level stop path = .ok result) :
    lanes.seek place level stop = .ok (base result) := by
  induction level generalizing stop path with
  | zero =>
      obtain rfl : path = result := Except.ok.inj hdescend
      exact congrArg Except.ok hpath.symm
  | succ level ih =>
      obtain ⟨last, hwalk, hdescend⟩ := Fault.bind_eq_ok_iff.1 hdescend
      unfold seek
      rw [h.approach?_eq hlevel, hwalk, Fault.ok_bind]
      by_cases hlast : last.rank = place
      · have hbase : base result = last := h.base_of_arrived (by omega) rfl hlast hdescend
        rw [if_pos hlast, hbase]
        rfl
      · rw [if_neg hlast]
        exact ih (by omega) rfl hdescend

/-- **A search for a place ends where the search that accepts the places up to it does.** -/
theorem seek_eq (h : lanes.Represents height sites vacant) {place : Nat} {stops : List Stop}
    (hsearch : lanes.search (fun _ rank => rank ≤ place) height = .ok stops) :
    lanes.seek place height {} = .ok (base stops) :=
  h.seek_of_descend le_rfl rfl hsearch

end Represents

end Lanes

end IndexedSkipList
