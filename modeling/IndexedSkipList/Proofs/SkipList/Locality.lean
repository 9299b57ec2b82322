/-
**Changes are local.**

Setting a new key or removing one changes a list at one place on each level: at the last node there
whose key is smaller, or at the head if there is none.  Up to the height of the node that comes or
goes the link that leaves this place is led to it or past it, and on the levels above the link stays
as it is but for the span, which changes by one.  All other links stay, the links of the head above
the levels in use too, and so do all other nodes, each under its id with its key, its value and its
height.

Which place that is differs from level to level; it is told here by the keys alone, and so is how
far a new node is from it, by the chain of the base.

Main definitions:

* `SkipList.LastBelow` — the last place on a level before a target;
* `SkipList.InsertsLocally`, `SkipList.RemovesLocally` — **all that is other** after a new key was
  set, and after a key was removed.

Main results:

* `SkipList.Represents.lastBelow` — where a search stops on a level is the last place before the
  target;
* `SkipList.Represents.insertsLocally`, `SkipList.Represents.removesLocally` — for lists that
  represent rows;
* `SkipList.Reachable.changesLocally` — **changes are local in every list that can be reached**.
-/

import IndexedSkipList.Proofs.Lanes.Locality
import IndexedSkipList.Proofs.SkipList.Inversion
import IndexedSkipList.Proofs.SkipList.WellFormed

set_option relaxedAutoImplicit false
set_option autoImplicit false

namespace IndexedSkipList

namespace SkipList

variable {K V R : Type} [Ord K]

/-! ### The last place before a target -/

/-- **The last place on the level before the target**: the node on the level with the greatest of
the keys below the target, or the head if there is no such node. -/
def LastBelow (list : SkipList K V R) (target : Target K) (level : Nat) : Place → Prop
  | .head => ∀ id node, list.lanes.pool.get id = .ok node → level < node.height →
      target node.key ≠ .lt
  | .node id => ∃ node, list.lanes.pool.get id = .ok node ∧ level < node.height ∧
      target node.key = .lt ∧
      ∀ other node', list.lanes.pool.get other = .ok node' → level < node'.height →
        target node'.key = .lt → other = id ∨ compare node'.key node.key = .lt

namespace Represents

variable {list : SkipList K V R} {behind rest : List (Site K V)} {vacant : List NodeId}

/-- A node on the level with a key below the target is that of a site up to the stop. -/
theorem exists_mem_front (h : list.Represents (behind ++ rest) vacant) {target : Target K}
    (hrest : ∀ site ∈ rest, target site.key ≠ .lt) {level : Nat} {id : NodeId} {node : Node K V}
    (hnode : list.lanes.pool.get id = .ok node) (htall : level < node.height)
    (hlt : target node.key = .lt) :
    ∃ site ∈ front level behind, site.id = id ∧ node.key = site.key := by
  obtain ⟨site, hsite, hid, hkey, hheight⟩ := h.exists_site hnode
  rw [hkey] at hlt
  rw [hheight] at htall
  rw [← front_append_between level behind, List.append_assoc] at hsite
  rcases List.mem_append.1 hsite with hmem | hmem
  · exact ⟨site, hmem, hid, hkey⟩
  · rcases List.mem_append.1 hmem with hmem | hmem
    · have hshort := height_le_of_mem_between hmem
      omega
    · exact absurd hlt (hrest site hmem)

/-- **Where a search for the target stops** on a level is the last place before it. -/
theorem lastBelow (h : list.Represents (behind ++ rest) vacant) {target : Target K}
    (hbelow : ∀ site ∈ behind, target site.key = .lt)
    (hrest : ∀ site ∈ rest, target site.key ≠ .lt) (level : Nat) :
    list.LastBelow target level (placeAfter (front level behind)) := by
  have hbehind := front_append_between level behind
  rcases List.eq_nil_or_concat' (front level behind) with hnil | ⟨before, site, hconcat⟩
  · rw [hnil]
    intro id node hnode htall hlt
    obtain ⟨site, hsite, _⟩ := h.exists_mem_front hrest hnode htall hlt
    rw [hnil] at hsite
    cases hsite
  · rw [hconcat] at hbehind ⊢
    rw [placeAfter_concat]
    have hsite : site ∈ behind := by
      rw [← hbehind]
      simp
    have htall : level < site.height := by
      have hlast := lt_levelsAfter_front (Nat.lt_succ_self level) behind
      rwa [hconcat, levelsAfter_concat] at hlast
    obtain ⟨node, hnode, _⟩ := h.lanes.houses.exists_node (List.mem_append_left rest hsite)
    have hget := Pool.get_eq_ok_iff.2 hnode
    obtain ⟨hkey, hheight⟩ := h.get_site (List.mem_append_left rest hsite) hget
    refine ⟨node, hget, hheight ▸ htall, hkey ▸ hbelow site hsite, ?_⟩
    intro other node' hnode' htall' hlt
    obtain ⟨found, hfound, rfl, hkey'⟩ := h.exists_mem_front hrest hnode' htall' hlt
    rw [hconcat] at hfound
    rcases List.mem_append.1 hfound with hfound | hfound
    · -- a site before the last one has a smaller key
      have hsorted := h.sorted
      rw [← hbehind, List.append_assoc, List.append_assoc] at hsorted
      have hlower := (List.pairwise_append.1 hsorted).2.2 found hfound site (by simp)
      exact Or.inr (by rwa [hkey', hkey])
    · obtain rfl := List.mem_singleton.1 hfound
      exact Or.inl rfl

end Represents

/-! ### What changes -/

/-- **All that is other after a new key was set** with a node of the given height under `id`; the
nodes at the base are then `ids`. -/
structure InsertsLocally (before after : SkipList K V R) (key : K) (value : V) (height : Nat)
    (id : NodeId) (ids : List NodeId) : Prop where
  fresh : before.lanes.pool.node? id = none
  entered : ∃ node, after.lanes.pool.get id = .ok node ∧ node.entry = (key, value) ∧
    node.height = height
  nodes : Pool.AgreesBut id before.lanes.pool after.lanes.pool
  base : after.lanes.Chain 0 .head ids
  /-- On its levels the new node comes in behind the last smaller key, as far from it as they are
  apart at the base, and its link leads on to where the link from there led. -/
  spliced : ∀ level, level < height → ∃ place old own span,
    before.LastBelow (.of key) level place ∧
    Lanes.Rewrites before.lanes after.lanes id level place old { next := some id, span } ∧
    position ids (.node id) = position ids place + span ∧
    after.lanes.link (.node id) level = .ok own ∧ own.next = old.next ∧
    (level < before.height → span + own.span = old.span + 1)
  /-- On the levels above, up to those in use, the link from there covers one place more. -/
  widened : ∀ level, height ≤ level → level < before.height → ∃ place old,
    before.LastBelow (.of key) level place ∧
    Lanes.Rewrites before.lanes after.lanes id level place old { old with span := old.span + 1 }
  /-- Further above there are links of the head only, and these stay. -/
  above : ∀ level, max before.height height ≤ level → ∀ place link,
    after.lanes.link place level = .ok link ↔ before.lanes.link place level = .ok link
  policy_eq : after.policy = before.policy

/-- **All that is other after a key was removed** that had the node `node` under `id`. -/
structure RemovesLocally (before after : SkipList K V R) (target : Target K) (id : NodeId)
    (node : Node K V) : Prop where
  removed : after.lanes.pool.node? id = none
  nodes : Pool.AgreesBut id before.lanes.pool after.lanes.pool
  /-- On the levels of the node, the link from the last smaller key led to it, and now leads to
  where its own link led, and covers the places of both but that of the node. -/
  unlinked : ∀ level, level < node.height → ∃ place old own,
    before.LastBelow target level place ∧ before.lanes.link (.node id) level = .ok own ∧
    old.next = some id ∧
    Lanes.Rewrites before.lanes after.lanes id level place old
      { next := own.next, span := old.span + own.span - 1 }
  /-- On the levels above, up to those in use, the link from there covers one place less. -/
  narrowed : ∀ level, node.height ≤ level → level < before.height → ∃ place old,
    before.LastBelow target level place ∧ 1 ≤ old.span ∧
    Lanes.Rewrites before.lanes after.lanes id level place old { old with span := old.span - 1 }
  /-- Further above there are links of the head only, and these stay. -/
  above : ∀ level, before.height ≤ level → ∀ place link,
    after.lanes.link place level = .ok link ↔ before.lanes.link place level = .ok link
  policy_eq : after.policy = before.policy

/-! ### Lists that represent rows -/

namespace Represents

variable {list : SkipList K V R} {sites : List (Site K V)} {vacant : List NodeId}

/-- **Setting a new key changes one link on each level.** -/
theorem insertsLocally [Std.TransOrd K] [WordSource R] (h : list.Represents sites vacant)
    (hroom : list.size < Pool.capacity) {key : K} (value : V)
    (habsent : list.contains (.of key) = .ok false) :
    ∃ outcome id ids, list.insert key value = .ok outcome ∧ outcome.answer = none ∧
      list.InsertsLocally outcome.after key value (list.policy.drawHeight list.source).1 id
        ids := by
  rw [h.contains_eq (Target.agrees_of key)] at habsent
  rcases exists_parted (Target.agrees_of key) h.sorted with
    ⟨behind, ahead, rfl, hparted⟩ | ⟨behind, met, ahead, rfl, hmet, hparted⟩
  · obtain ⟨site, rfl, rfl, hid, hdraw⟩ := list.exists_newSite vacant key value
    obtain ⟨after, hinsert, hafter, hpolicy, _, hsame⟩ :=
      h.insert_absent hparted (h.size_eq ▸ hroom) hid hdraw
    have hheight : after.height = max list.height site.height := by
      rw [hafter.height_eq, tallest_middle, h.height_eq]
    have hdrawn : (list.policy.drawHeight list.source).1 = site.height := by rw [hdraw]
    have hlast := h.lastBelow hparted.below hparted.above_not_lt
    have hhead : after.height ≤ list.lanes.head.size := hsame.head_size ▸ hafter.lanes.height_le
    obtain ⟨node, hnode, hkey, hvalue, hsize⟩ := hafter.lanes.houses.exists_node
      (show site ∈ behind ++ site :: ahead by simp)
    rw [hdrawn]
    refine ⟨_, site.id, (behind ++ site :: ahead).map (·.id), hinsert, rfl, ?_⟩
    exact
      { fresh := hid ▸ h.lanes.houses.threaded.node?_freshId
        entered := ⟨node, Pool.get_eq_ok_iff.2 hnode, by simp [Node.entry, hkey, hvalue], hsize⟩
        nodes := h.lanes.houses.agreesBut hafter.lanes.houses
        base := hafter.lanes.chain_base hafter.head_pos
        spliced := fun level htall => by
          have hlevel : level < after.height := by omega
          obtain ⟨old, own, hown, hnext, hspan, hrewrites⟩ :=
            h.lanes.rewrites_tall hafter.lanes hhead hlevel htall
          have hposition := (hafter.lanes.link_position hlevel hrewrites.new_eq).1 site.id rfl
          exact ⟨_, old, own, _, hlast level, hrewrites, hposition, hown, hnext.symm, hspan⟩
        widened := fun level hshort hlevel => by
          obtain ⟨old, hrewrites⟩ := h.lanes.rewrites_short hafter.lanes hlevel (by omega) hshort
          exact ⟨_, old, hlast level, hrewrites⟩
        above := fun level hlevel place link => by
          rw [Lanes.link_eq_ok_iff, Lanes.link_eq_ok_iff,
            h.lanes.link?_above hafter.lanes hsame (by omega) (by omega) hlevel]
        policy_eq := hpolicy }
  · have hpresent := find?_entriesOf_present hparted hmet
    rw [Dictionary.contains, hpresent] at habsent
    cases habsent

/-- **Removing a key changes one link on each level.** -/
theorem removesLocally (h : list.Represents sites vacant) {target : Target K}
    (hagrees : target.Agrees) {id : NodeId} {node : Node K V}
    (hnode : list.lanes.pool.get id = .ok node) (hmet : target node.key = .eq) :
    ∃ outcome, list.removeEntry target = .ok outcome ∧ outcome.answer = some node.entry ∧
      list.RemovesLocally outcome.after target id node := by
  obtain ⟨behind, site, ahead, rfl, rfl, hmet, hparted, hkey, hvalue, hheight⟩ :=
    h.exists_parted_at hagrees hnode hmet
  have habove := hparted.met_not_lt hmet
  obtain ⟨lanes, height, rfl, hremove, hlanes, hsame⟩ :=
    h.removeEntry_computes (h.stopsBelow_eq rfl hparted.below habove) hmet
  have hlast := h.lastBelow hparted.below habove
  have hentry : site.entry = node.entry := by
    rw [Column.entry, hkey, hvalue]
    rfl
  have hbound : site.height ≤ list.height := (h.lanes.bounds site (by simp)).2
  have hhead : list.height ≤ lanes.head.size := hlanes.height_le
  refine ⟨_, hremove, congrArg some hentry, ?_⟩
  -- what changes is what would change if the node were put in again, the other way round
  exact
    { removed := hlanes.houses.threaded.node?_eq_none (List.mem_cons_self ..)
      nodes := (hlanes.houses.agreesBut h.lanes.houses).symm
      unlinked := fun level htall => by
        rw [← hheight] at htall
        have hlevel : level < list.height := by omega
        obtain ⟨old, own, hown, hnext, hspan, hrewrites⟩ :=
          hlanes.rewrites_tall h.lanes hhead hlevel htall
        have hold : old = { next := own.next
                            span := (between level behind).length + 1 + own.span - 1 } := by
          have hspan := hspan hlevel
          cases old
          simp only at hnext hspan
          simp only [Link.mk.injEq, hnext, true_and]
          omega
        rw [hold] at hrewrites
        exact ⟨_, _, own, hlast level, hown, rfl, hrewrites.symm⟩
      narrowed := fun level hshort hlevel => by
        rw [← hheight] at hshort
        obtain ⟨old, hrewrites⟩ := hlanes.rewrites_short h.lanes hlevel hlevel hshort
        exact ⟨_, { old with span := old.span + 1 }, hlast level, by simp, hrewrites.symm⟩
      above := fun level hlevel place link => by
        rw [Lanes.link_eq_ok_iff, Lanes.link_eq_ok_iff,
          h.lanes.link?_above hlanes hsame hlevel hlevel hlevel]
      policy_eq := rfl }

end Represents

/-! ### Lists that can be reached -/

variable [Std.TransOrd K] [Printable K] [Printable V] [BEq V] [WordSource R]

/-- **Changes are local**, in every list that can be reached: setting a key that is absent, if there
is an id left, and removing one that is present change one link on each level, and no other node. -/
theorem Reachable.changesLocally {list : SkipList K V R} (h : list.Reachable) :
    (list.size < Pool.capacity → ∀ key value, list.contains (.of key) = .ok false →
      ∃ outcome id ids, list.insert key value = .ok outcome ∧ outcome.answer = none ∧
        list.InsertsLocally outcome.after key value (list.policy.drawHeight list.source).1 id
          ids) ∧
    ∀ target : Target K, target.Agrees → ∀ id node, list.lanes.pool.get id = .ok node →
      target node.key = .eq →
      ∃ outcome, list.removeEntry target = .ok outcome ∧ outcome.answer = some node.entry ∧
        list.RemovesLocally outcome.after target id node := by
  obtain ⟨sites, vacant, hrow⟩ := h.represents
  constructor
  · intro hroom key value habsent
    exact hrow.insertsLocally hroom value habsent
  · intro target hagrees id node hnode hmet
    exact hrow.removesLocally hagrees hnode hmet

/-- The list at the end of the small run has two levels in use; a fifth key, which comes in with
three, changes it locally, and so does the removal of the last one. -/
theorem smallList_changesLocally :
    smallList.Reachable ∧ smallList.size < Pool.capacity ∧ smallList.height = 2 ∧
      (smallList.policy.drawHeight smallList.source).1 = 3 ∧
      (∃ outcome id ids, smallList.insert 4 40 = .ok outcome ∧ outcome.answer = none ∧
        smallList.InsertsLocally outcome.after 4 40 3 id ids) ∧
      ∃ node, smallList.lanes.pool.get ⟨2⟩ = .ok node ∧
        ∃ outcome, smallList.removeEntry (.of 8) = .ok outcome ∧ outcome.answer = some (8, 80) ∧
          smallList.RemovesLocally outcome.after (.of 8) ⟨2⟩ node := by
  have hroom : smallList.size < Pool.capacity := by decide +kernel
  have habsent : smallList.contains (.of 4) = .ok false := by decide +kernel
  have hdraw : (smallList.policy.drawHeight smallList.source).1 = 3 := by decide +kernel
  have hnode : smallList.lanes.pool.get ⟨2⟩ =
      .ok { key := 8, value := 80, tower := #[⟨none, 0⟩, ⟨none, 0⟩] } := by
    decide +kernel
  obtain ⟨hinserts, hremoves⟩ := smallList_reachable.changesLocally
  refine ⟨smallList_reachable, hroom, by decide +kernel, hdraw, ?_, _, hnode, ?_⟩
  · rw [← hdraw]
    exact hinserts hroom 4 40 habsent
  · exact hremoves (.of 8) (Target.agrees_of 8) ⟨2⟩ _ hnode rfl

end SkipList

end IndexedSkipList
