/-
**A key that is set again is written over where it stands.**

Setting a key that is present, in whatever spelling, and writing through a target that meets it do
the same, and they do as little as can be done: one slot of the pool, the one of the node whose key
is met, holds another value.  The key that was stored first stays, and so do all links and spans,
all other nodes, the free list, the heights, the policy and the source; nothing is reported.

Whether a key is written over or put in is decided by a search on all levels.  It comes out as it
should: a key is written over exactly if it is found when the entries are gone through from the
first one to the last one.

Main definitions:

* `SkipList.overwrite` — the list with another value at one node;
* `SkipList.Overwrites`, `SkipList.WritesOver` — an outcome that is no more than this, and the node
  that a target meets;
* `SkipList.UpdatesInPlace` — what setting a key does, by whether the entries have it.

Main results:

* `SkipList.Represents.writesOver` — what setting a key and writing through a target have in common;
* `SkipList.Represents.overwrites_iff` — which keys are written over;
* `SkipList.Reachable.updatesInPlace` — **keys that are present are written over, and no others**.
-/

import IndexedSkipList.Proofs.SkipList.WellFormed

set_option relaxedAutoImplicit false
set_option autoImplicit false

namespace IndexedSkipList

variable {K V R : Type}

/-- Keys that meet the same target are equal in the order. -/
theorem Target.Agrees.compare_eq [Ord K] [Std.OrientedOrd K] {target : Target K}
    (h : target.Agrees) {a b : K} (ha : target a = .eq) (hb : target b = .eq) :
    compare a b = .eq := by
  cases hcompare : compare a b with
  | eq => rfl
  | lt =>
      rcases h a b hcompare with hlt | hgt
      · simp [ha] at hlt
      · simp [hb] at hgt
  | gt =>
      rcases h b a (Std.OrientedCmp.lt_of_gt hcompare) with hlt | hgt
      · simp [hb] at hlt
      · simp [ha] at hgt

namespace SkipList

/-! ### Another value at one node -/

/-- **The list with another value at one node**: the slot of the id holds this node with the value,
and everything else is as it was. -/
def overwrite (list : SkipList K V R) (id : NodeId) (node : Node K V) (value : V) :
    SkipList K V R :=
  { list with
    lanes := { list.lanes with
      pool := { list.lanes.pool with
        slots := list.lanes.pool.slots.setIfInBounds id.index
          (.occupied { node with value }) } } }

/-- **The outcome is that the value is written over that of some node.**  The answer is the value
that was there, and nothing is reported. -/
def Overwrites (list : SkipList K V R) (value : V)
    (outcome : Outcome (SkipList K V R) (Option V)) : Prop :=
  ∃ id node, list.lanes.pool.get id = .ok node ∧
    outcome = { answer := some node.value, after := list.overwrite id node value, events := [] }

/-- What is written at the node of a site. -/
theorem Holds.writeAt_eq_overwrite {list : SkipList K V R} {sites : List (Site K V)}
    {vacant : List NodeId} (h : list.Holds sites vacant) {site : Site K V} (hsite : site ∈ sites)
    (value : V) :
    ∃ node, list.lanes.pool.get site.id = .ok node ∧ node.key = site.key ∧
      list.writeAt site.id value = .ok (node.value, list.overwrite site.id node value) := by
  obtain ⟨node, hnode, hkey, _⟩ := h.lanes.houses.exists_node hsite
  have hget := Pool.get_eq_ok_iff.2 hnode
  refine ⟨node, hget, hkey, ?_⟩
  simp [writeAt, hget, Pool.set_of_node? hnode, overwrite]

/-! ### Keys that are present and keys that are not -/

variable [Ord K] [WordSource R]

/-- **Setting the key and writing through the target do the same**: one node meets the target, and
the value is written over that of this node. -/
def WritesOver (list : SkipList K V R) (target : Target K) (key : K) (value : V) : Prop :=
  ∃ id node, list.lanes.pool.get id = .ok node ∧ target node.key = .eq ∧
    (∀ other node', list.lanes.pool.get other = .ok node' → target node'.key = .eq →
      other = id) ∧
    list.insert key value = .ok
      { answer := some node.value, after := list.overwrite id node value, events := [] } ∧
    list.replace target value = .ok
      { answer := some node.value, after := list.overwrite id node value, events := [] }

/-- **What setting a key does**, by whether the entries have the key. -/
structure UpdatesInPlace (list : SkipList K V R) (entries : List (K × V)) : Prop where
  entries_eq : list.entries = .ok entries
  /-- Where an entry meets a target, any key that meets the target, however it is spelled, is
  written over, and so it is by writing through the target. -/
  met : ∀ target : Target K, target.Agrees → (∃ entry ∈ entries, target entry.1 = .eq) →
    ∀ key, target key = .eq → ∀ value, list.WritesOver target key value
  /-- A key that no entry has is put in, with a height that is drawn. -/
  unmet : ∀ key, (∀ entry ∈ entries, compare entry.1 key ≠ .eq) → ∀ value, ∃ outcome,
    list.insert key value = .ok outcome ∧ outcome.answer = none ∧
    outcome.after.size = list.size + 1 ∧
    outcome.after.source = (list.policy.drawHeight list.source).2
  /-- So a value is written over exactly if some entry has the key. -/
  overwrites_iff : ∀ key value outcome, list.insert key value = .ok outcome →
    (list.Overwrites value outcome ↔ ∃ entry ∈ entries, compare entry.1 key = .eq)

variable [Std.TransOrd K] {list : SkipList K V R} {sites : List (Site K V)} {vacant : List NodeId}

namespace Represents

/-- **Setting a key and writing through a target that it meets come to the same.** -/
theorem writesOver (h : list.Represents sites vacant) {target : Target K}
    (hagrees : target.Agrees) {site : Site K V} (hsite : site ∈ sites)
    (hmet : target site.key = .eq) {key : K} (hkey : target key = .eq) (value : V) :
    list.WritesOver target key value := by
  obtain ⟨node, hnode, hstored, hwrite⟩ := h.writeAt_eq_overwrite hsite value
  obtain ⟨behind, ahead, rfl, hparted⟩ := exists_parted_of_met hagrees h.sorted hsite hmet
  have hequal : compare site.key key = .eq := hagrees.compare_eq hmet hkey
  -- the key divides the row where the target does, and so both searches end before the site
  have hdivided : Parted (fun other => compare other.key key) behind ahead :=
    (Parted.of_pairwise (fun site : Site K V => site.key) h.sorted).of_agrees
      (Target.agrees_of key) hequal
  have hstops := h.stopsBelow_eq rfl hparted.below (hparted.met_not_lt hmet)
  have hstopskey : list.stopsBelow (.of key) = .ok (stopsAt list.height behind) :=
    h.stopsBelow_eq rfl hdivided.below (hdivided.met_not_lt hequal)
  have hfound := h.matching?_met rfl hmet
  have hfoundkey := h.matching?_met rfl (show Target.of key site.key = .eq from hequal)
  refine ⟨site.id, node, hnode, hstored ▸ hmet, ?_, ?_, ?_⟩
  · intro other node' hnode' hmet'
    obtain ⟨site', hsite', rfl, hkey', _⟩ := h.exists_site hnode'
    rw [hkey'] at hmet'
    rw [hparted.eq_of_met hsite' hmet']
  · simp [SkipList.insert, h.pathTo_eq hstopskey, hfoundkey, hwrite]
  · simp [SkipList.replace, find?, hstops, hfound, hwrite]

/-- A key that is absent is put in, with a height that is drawn. -/
theorem insert_of_absent (h : list.Represents sites vacant) (hroom : sites.length < Pool.capacity)
    {key : K} (habsent : ∀ entry ∈ entriesOf sites, compare entry.1 key ≠ .eq) (value : V) :
    ∃ outcome, list.insert key value = .ok outcome ∧ outcome.answer = none ∧
      outcome.after.size = list.size + 1 ∧
      outcome.after.source = (list.policy.drawHeight list.source).2 := by
  rcases exists_parted (Target.agrees_of key) h.sorted with
    ⟨behind, ahead, rfl, hparted⟩ | ⟨behind, met, ahead, rfl, hmet, _⟩
  · obtain ⟨site, rfl, rfl, hid, hdraw⟩ := list.exists_newSite vacant key value
    obtain ⟨after, hinsert, hafter, _, hsource, _⟩ := h.insert_absent hparted hroom hid hdraw
    refine ⟨_, hinsert, rfl, ?_, hsource⟩
    rw [hafter.size_eq, h.size_eq, List.perm_middle.length_eq]
    rfl
  · exact absurd hmet (habsent met.entry (List.mem_map_of_mem (by simp)))

/-- **A value is written over exactly if some entry has the key.** -/
theorem overwrites_iff (h : list.Represents sites vacant) (hroom : sites.length < Pool.capacity)
    {key : K} {value : V} {outcome : Outcome (SkipList K V R) (Option V)}
    (houtcome : list.insert key value = .ok outcome) :
    list.Overwrites value outcome ↔ ∃ entry ∈ entriesOf sites, compare entry.1 key = .eq := by
  constructor
  · -- what is written over answers a value, and what is put in answers none
    rintro ⟨id, node, _, rfl⟩
    by_contra hnone
    have habsent : ∀ entry ∈ entriesOf sites, compare entry.1 key ≠ .eq :=
      fun entry hentry hequal => hnone ⟨entry, hentry, hequal⟩
    obtain ⟨inserted, hinserted, hanswer, _⟩ := h.insert_of_absent hroom habsent value
    obtain rfl := Except.ok.inj (houtcome.symm.trans hinserted)
    cases hanswer
  · rintro ⟨entry, hentry, hequal⟩
    obtain ⟨site, hsite, rfl⟩ := List.mem_map.1 hentry
    have hself : compare key key = .eq := Std.ReflCmp.compare_self
    obtain ⟨id, node, hnode, _, _, hinsert, _⟩ :=
      h.writesOver (Target.agrees_of key) hsite hequal hself value
    obtain rfl := Except.ok.inj (houtcome.symm.trans hinsert)
    exact ⟨id, node, hnode, rfl⟩

/-- **Keys that are present are written over, and no others.** -/
theorem updates (h : list.Represents sites vacant) (hroom : sites.length < Pool.capacity) :
    list.UpdatesInPlace (entriesOf sites) where
  entries_eq := h.entries_eq
  met := by
    rintro target hagrees ⟨entry, hentry, hmet⟩ key hkey value
    obtain ⟨site, hsite, rfl⟩ := List.mem_map.1 hentry
    exact h.writesOver hagrees hsite hmet hkey value
  unmet _ habsent value := h.insert_of_absent hroom habsent value
  overwrites_iff _ _ _ houtcome := h.overwrites_iff hroom houtcome

end Represents

/-! ### Lists that can be reached -/

/-- **Keys that are present are written over where they stand, and no others**, in every list that
can be reached. -/
theorem Reachable.updatesInPlace [Printable K] [Printable V] [BEq V] (h : list.Reachable) :
    ∃ entries, list.UpdatesInPlace entries := by
  obtain ⟨sites, vacant, hrow, hroom⟩ := h.exists_row
  exact ⟨entriesOf sites, hrow.updates hroom⟩

/-- At the end of the small run the keys 1, 3, 6 and 8 are written over, and no others. -/
theorem smallList_updatesInPlace :
    smallList.Reachable ∧ smallList.UpdatesInPlace [(1, 10), (3, 31), (6, 60), (8, 80)] := by
  obtain ⟨entries, hupdates⟩ := smallList_reachable.updatesInPlace
  obtain rfl := Except.ok.inj (hupdates.entries_eq.symm.trans smallList_entries)
  exact ⟨smallList_reachable, hupdates⟩

end SkipList

end IndexedSkipList
