/-
**Setting a key and taking it out undo each other.**

A key that is taken out and set again with the value and the height that it had gets the very slot
that it left, and every link that was joined together is cut in two again at the same place; also
where its node was the only one on the topmost levels, which went out of use and come into use
again.  So the list is the same in all its parts, except that a height was drawn.

A new key that is set and taken out again leaves no trace among the nodes.  What may be left of it
is a vacant slot, if there was none before, and the spans of the head on levels that are not in use.

Both follow from one fact: the row is the same again and so is the order of the vacant slots, and
these decide the lanes.

Main definitions:

* `SkipList.RegainsRemoved` — what is taken out and set again leads back;
* `SkipList.Regained`, `SkipList.RegainsInserted` — what is set and taken out again leads back.

Main results:

* `SkipList.Represents.regainsRemoved`, `SkipList.Represents.regainsInserted` — **setting and taking
  out undo each other** in lists that represent rows;
* `SkipList.Reachable.regains` — and so in all lists that can be reached.
-/

import IndexedSkipList.Proofs.Lanes.Determined
import IndexedSkipList.Proofs.SkipList.Runs

set_option relaxedAutoImplicit false
set_option autoImplicit false

namespace IndexedSkipList

namespace SkipList

variable {K V R : Type} [Ord K] [WordSource R]

/-- **Taking a key out and setting it again leads back.**  Whatever node a target meets, its entry
is what is taken out, and no word is drawn for it.  If the height that is drawn then is that of the
node, setting the entry again leads to the list as it was, with another source. -/
def RegainsRemoved (list : SkipList K V R) : Prop :=
  ∀ (target : Target K) (id : NodeId) (node : Node K V), target.Agrees →
    list.lanes.pool.get id = .ok node → target node.key = .eq →
      ∃ removed, list.removeEntry target = .ok removed ∧ removed.answer = some node.entry ∧
        removed.after.source = list.source ∧
        ((list.policy.drawHeight list.source).1 = node.height →
          ∃ inserted, removed.after.insert node.key node.value = .ok inserted ∧
            inserted.answer = none ∧
            inserted.after = { list with source := (list.policy.drawHeight list.source).2 })

/-- **The list is what it was before a key was set and taken out again**: a height was drawn; every
node is there with its tower, and a slot more is vacant if none was; the head leads where it did,
and on the levels in use its spans are the same. -/
structure Regained (before after : SkipList K V R) : Prop where
  height_eq : after.height = before.height
  size_eq : after.size = before.size
  policy_eq : after.policy = before.policy
  source_eq : after.source = (before.policy.drawHeight before.source).2
  nodes_eq : ∀ id node,
    after.lanes.pool.get id = .ok node ↔ before.lanes.pool.get id = .ok node
  pool_eq : after.lanes.pool = before.lanes.pool.withSpare
  next_eq : after.lanes.head.map (·.next) = before.lanes.head.map (·.next)
  link_eq : ∀ level, level < before.height →
    after.lanes.link .head level = before.lanes.link .head level

/-- **Setting a new key and taking it out again leads back**, whatever height is drawn. -/
def RegainsInserted (list : SkipList K V R) : Prop :=
  ∀ (key : K) (value : V) (target : Target K), target.Agrees → target key = .eq →
    list.contains (.of key) = .ok false →
      ∃ inserted removed, list.insert key value = .ok inserted ∧ inserted.answer = none ∧
        inserted.after.removeEntry target = .ok removed ∧ removed.answer = some (key, value) ∧
        Regained list removed.after

variable {list : SkipList K V R} {sites : List (Site K V)} {vacant : List NodeId}

namespace Represents

omit [WordSource R] in
/-- A node that a target meets is that of the site that divides the row. -/
theorem exists_parted_at (h : list.Represents sites vacant) {target : Target K}
    (hagrees : target.Agrees) {id : NodeId} {node : Node K V}
    (hnode : list.lanes.pool.get id = .ok node) (hmet : target node.key = .eq) :
    ∃ behind site ahead, sites = behind ++ site :: ahead ∧ site.id = id ∧ target site.key = .eq ∧
      Parted (fun site => target site.key) behind ahead ∧ site.key = node.key ∧
      site.value = node.value ∧ site.height = node.height := by
  have hnode? := Pool.get_eq_ok_iff.1 hnode
  obtain ⟨site, hsite, rfl⟩ := List.mem_map.1 (h.lanes.houses.live id node hnode?)
  obtain ⟨node', hnode', hkey, hvalue, hsize⟩ := h.lanes.houses.exists_node hsite
  obtain rfl : node = node' := Option.some.inj (hnode?.symm.trans hnode')
  rw [hkey] at hmet
  obtain ⟨behind, ahead, rfl, hparted⟩ := exists_parted_of_met hagrees h.sorted hsite hmet
  exact ⟨behind, site, ahead, rfl, rfl, hmet, hparted, hkey.symm, hvalue.symm, hsize.symm⟩

variable [Std.TransOrd K]

/-- **What is taken out and set again leads back.** -/
theorem regainsRemoved (h : list.Represents sites vacant) : list.RegainsRemoved := by
  intro target id node hagrees hnode hmet
  obtain ⟨behind, site, ahead, rfl, _, hmet, hparted, hkey, hvalue, hheight⟩ :=
    h.exists_parted_at hagrees hnode hmet
  obtain ⟨mid, hremove, hmid, hmidpolicy, hmidsource, hmidsame⟩ :=
    h.removeEntry_present hparted hmet
  have hentry : site.entry = node.entry := by rw [Column.entry, hkey, hvalue]; rfl
  refine ⟨_, hremove, congrArg some hentry, hmidsource, fun hdraw => ?_⟩
  -- the site divides the row that is left, and its id is the next to be handed out
  have hbetween : Parted (fun other => compare other.key site.key) behind ahead :=
    Parted.of_pairwise (fun site : Site K V => site.key) h.sorted
  have hroom : (behind ++ ahead).length < Pool.capacity := by
    have hfits := h.fits
    rw [List.perm_middle.length_eq, List.length_cons] at hfits
    omega
  have hdrawn : mid.policy.drawHeight mid.source =
      (site.height, (list.policy.drawHeight list.source).2) := by
    rw [hmidpolicy, hmidsource, hheight, ← hdraw]
  obtain ⟨after, hinsert, hafter, hafterpolicy, haftersource, haftersame⟩ :=
    hmid.insert_absent hbetween hroom rfl hdrawn
  rw [← hkey, ← hvalue]
  refine ⟨_, hinsert, rfl, ?_⟩
  have hheights : after.height = list.height := hafter.height_eq.trans h.height_eq.symm
  have hsizes : after.size = list.size := hafter.size_eq.trans h.size_eq.symm
  have hlanes : after.lanes = list.lanes := by
    have habove : max mid.height site.height ≤ list.height := by
      rw [h.height_eq, tallest_middle, hmid.height_eq]
    exact h.lanes.eq_of_sameAbove (hheights ▸ hafter.lanes)
      (hmidsame.trans (haftersame.mono habove))
  have hpolicy := hafterpolicy.trans hmidpolicy
  cases after
  simp only at hheights hsizes hlanes hpolicy haftersource
  simp only [hheights, hsizes, hlanes, hpolicy, haftersource]

omit [Std.TransOrd K] in
/-- A list with the same row is what it was, if the slots that are vacant are those that were, with
one more where there was none. -/
theorem regained {after : SkipList K V R} (h : list.Represents sites vacant)
    (hafter : after.Represents sites (list.lanes.pool.freshId vacant :: vacant.tail))
    (hpolicy : after.policy = list.policy)
    (hsource : after.source = (list.policy.drawHeight list.source).2) : Regained list after := by
  have hheight : after.height = list.height := hafter.height_eq.trans h.height_eq.symm
  have hlanes := hafter.lanes
  rw [hheight] at hlanes
  have hpool := h.lanes.pool_eq_withSpare hlanes
  have hsize : after.lanes.head.size = list.lanes.head.size := by
    rw [hafter.head_size, hpolicy, h.head_size]
  have hlink : ∀ level, level < list.height →
      after.lanes.link? .head level = list.lanes.link? .head level :=
    fun level hlevel => h.lanes.link?_head_eq hlanes hlevel
  exact
    { height_eq := hheight
      size_eq := hafter.size_eq.trans h.size_eq.symm
      policy_eq := hpolicy
      source_eq := hsource
      nodes_eq := fun id node => by
        rw [Pool.get_eq_ok_iff, Pool.get_eq_ok_iff, hpool, Pool.node?_withSpare]
      pool_eq := hpool
      next_eq := by
        refine Array.ext_getElem? fun level => ?_
        rw [Array.getElem?_map, Array.getElem?_map, ← Lanes.link?_head, ← Lanes.link?_head]
        by_cases hlevel : level < list.height
        · rw [hlink level hlevel]
        · by_cases habove : level < list.lanes.head.size
          · -- above the levels in use the head leads nowhere
            obtain ⟨span, hbefore⟩ := h.lanes.above level (by omega) habove
            obtain ⟨span', hafter⟩ := hlanes.above level (by omega) (by omega)
            rw [hbefore, hafter]
            rfl
          · rw [Lanes.link?_head, Lanes.link?_head, Array.getElem?_eq_none (by omega),
              Array.getElem?_eq_none (by omega)]
      link_eq := fun level hlevel => by
        have hbefore := h.lanes.links [] sites rfl level hlevel
        exact (Lanes.link_eq_ok_iff.2 ((hlink level hlevel).trans hbefore)).trans
          (Lanes.link_eq_ok_iff.2 hbefore).symm }

/-- **What is set and taken out again leads back.** -/
theorem regainsInserted (h : list.Represents sites vacant) (hroom : list.size < Pool.capacity) :
    list.RegainsInserted := by
  intro key value target hagrees hmet habsent
  rw [h.contains_eq (Target.agrees_of key)] at habsent
  rcases exists_parted (Target.agrees_of key) h.sorted with
    ⟨behind, ahead, rfl, hparted⟩ | ⟨behind, met, ahead, rfl, hmet', hparted⟩
  · obtain ⟨site, rfl, rfl, hid, hdraw⟩ := list.exists_newSite vacant key value
    obtain ⟨mid, hinsert, hmid, hmidpolicy, hmidsource, _⟩ :=
      h.insert_absent hparted (h.size_eq ▸ hroom) hid hdraw
    -- a target that meets the key divides the row as the key does
    obtain ⟨after, hremove, hafter, hafterpolicy, haftersource, _⟩ :=
      hmid.removeEntry_present (hparted.of_agrees hagrees hmet) hmet
    refine ⟨_, _, hinsert, rfl, hremove, rfl, ?_⟩
    rw [hid] at hafter
    exact h.regained hafter (hafterpolicy.trans hmidpolicy) (haftersource.trans hmidsource)
  · have hpresent := find?_entriesOf_present hparted hmet'
    rw [Dictionary.contains, hpresent] at habsent
    cases habsent

end Represents

/-! ### Lists that can be reached -/

variable [Std.TransOrd K] [Printable K] [Printable V] [BEq V]

/-- **Setting and taking out undo each other**, in every list that can be reached and has room for
one more entry. -/
theorem Reachable.regains (h : list.Reachable) (hroom : list.size < Pool.capacity - 1) :
    list.RegainsRemoved ∧ list.RegainsInserted := by
  obtain ⟨sites, vacant, hrow⟩ := h.represents
  exact ⟨hrow.regainsRemoved, hrow.regainsInserted (by omega)⟩

/-- Words that give every node the height two. -/
def evenWords : CyclicWords := { words := #[0, 0xffffffff] }

/-- The list of two keys, both of the same height. -/
def evenList : SkipList Nat Nat CyclicWords :=
  ((blank {} evenWords).states [.insertAll [(1, 10), (2, 20)]]).getLast (by simp [states])

theorem evenList_reachable : evenList.Reachable := by
  refine ⟨{}, evenWords, [.insertAll [(1, 10), (2, 20)]], HeightPolicy.validate_default, ?_, ?_,
    List.getLast_mem _⟩
  · simp [Command.Lawful, Command.targets]
  · unfold Dictionary.Fits
    decide

/-- In the list of two keys a node has the height that is drawn next, a third key is new, and both
ways lead back. -/
theorem evenList_regains :
    evenList.Reachable ∧ evenList.size < Pool.capacity - 1 ∧
      (∃ node, evenList.lanes.pool.get ⟨0⟩ = .ok node ∧ Target.of 1 node.key = .eq ∧
        (evenList.policy.drawHeight evenList.source).1 = node.height) ∧
      evenList.contains (.of 3) = .ok false ∧
      evenList.RegainsRemoved ∧ evenList.RegainsInserted := by
  have hroom : evenList.size < Pool.capacity - 1 := by decide +kernel
  have hnode : evenList.lanes.pool.get ⟨0⟩ =
      .ok { key := 1, value := 10, tower := #[⟨some ⟨1⟩, 1⟩, ⟨some ⟨1⟩, 1⟩] } := by
    decide +kernel
  refine ⟨evenList_reachable, hroom, ⟨_, hnode, rfl, ?_⟩, ?_, ?_⟩
  · decide +kernel
  · decide +kernel
  · exact evenList_reachable.regains hroom

end SkipList

end IndexedSkipList
