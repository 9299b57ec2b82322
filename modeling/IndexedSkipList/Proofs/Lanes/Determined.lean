/-
**A row decides the lanes that represent it.**

Two pools may house the same row with the same vacant slots, and two lanes may represent it.  Then
under each id lives the same node with the same tower, since the row decides every link; the free
lists run through the same slots in the same order; and so the pools are the same, slot by slot.
The heads agree on the levels in use.  What they say on the others is not decided by the row, so
they are the same where one was made from the other without touching these levels.

A node that is put in and taken out again leaves the row as it was.  If a slot was vacant before, it
was used and is the first to be used again.  If none was, there is one more slot now, and it is
vacant.

Main definitions:

* `Pool.withSpare` — the pool with a vacant slot more if it has none.

Main results:

* `Lanes.Represents.node?_eq`, `Lanes.Represents.pool_eq` — **the row decides the pool**;
* `Lanes.Represents.link?_head_eq` — and the links of the head on the levels in use;
* `Lanes.Represents.eq_of_sameAbove` — the row and the head above decide the lanes;
* `Lanes.Represents.pool_eq_withSpare` — the pool after a node was put in and taken out.
-/

import IndexedSkipList.Proofs.Lanes.Removal

set_option relaxedAutoImplicit false
set_option autoImplicit false

namespace IndexedSkipList

variable {K V : Type}

/-! ### Pools -/

namespace Pool

variable {pool pool' : Pool K V} {sites : List (Site K V)} {vacant : List NodeId}

/-- Pools with the same nodes that house the same row, with the same vacant slots, are the same. -/
theorem Houses.ext (h : pool.Houses sites vacant) (h' : pool'.Houses sites vacant)
    (hnodes : pool'.node? = pool.node?) : pool' = pool :=
  h.threaded.ext h'.threaded hnodes (h'.length_add_length.symm.trans h.length_add_length)

/-- **The pool with a vacant slot more if it has none.** -/
def withSpare (pool : Pool K V) : Pool K V :=
  match pool.free with
  | some _ => pool
  | none => { slots := pool.slots.push (.vacant none), free := some ⟨pool.slots.size⟩ }

theorem node?_withSpare (pool : Pool K V) : pool.withSpare.node? = pool.node? := by
  unfold withSpare
  split
  · rfl
  · funext id
    by_cases hid : id.index = pool.slots.size
    · simp [node?, hid]
    · simp [node?, Array.getElem?_push, hid]

/-- The spare slot is the one that was to be used next. -/
theorem Threaded.withSpare (h : pool.Threaded vacant) :
    pool.withSpare.Threaded (pool.freshId vacant :: vacant.tail) := by
  have hfree := h.chain.start_eq
  unfold Pool.withSpare
  cases vacant with
  | nil =>
      rw [show pool.free = none from hfree]
      refine ⟨.step (by simp) .last, by simp, fun id next hslot => ?_⟩
      simp only [Array.getElem?_push] at hslot
      by_cases hid : id.index = pool.slots.size
      · simp [freshId, ← hid]
      · rw [if_neg hid] at hslot
        simpa using h.complete id next hslot
  | cons id ids =>
      rw [show pool.free = some id from hfree]
      exact h

theorem Houses.withSpare (h : pool.Houses sites vacant) :
    pool.withSpare.Houses sites (pool.freshId vacant :: vacant.tail) where
  standing site hsite := by
    rw [node?_withSpare]
    exact h.standing site hsite
  live id node hnode := by
    rw [node?_withSpare] at hnode
    exact h.live id node hnode
  nodup := h.nodup
  threaded := h.threaded.withSpare

end Pool

/-! ### Lanes -/

namespace Lanes

namespace Represents

variable {lanes lanes' : Lanes K V} {height height' : Nat} {sites : List (Site K V)}
  {vacant vacant' : List NodeId}

/-- **The row decides the nodes**, their towers included. -/
theorem node?_eq (h : lanes.Represents height sites vacant)
    (h' : lanes'.Represents height' sites vacant') : lanes'.pool.node? = lanes.pool.node? := by
  funext id
  by_cases hid : id ∈ sites.map (·.id)
  · obtain ⟨site, hsite, rfl⟩ := List.mem_map.1 hid
    obtain ⟨behind, ahead, rfl⟩ := List.append_of_mem hsite
    obtain ⟨node, hnode, hkey, hvalue, hsize⟩ := h.houses.exists_node hsite
    obtain ⟨node', hnode', hkey', hvalue', hsize'⟩ := h'.houses.exists_node hsite
    have htower : node'.tower = node.tower := by
      refine Array.ext_getElem? fun level => ?_
      by_cases hlevel : level < site.height
      · rw [h.tower_getElem? hnode hlevel, h'.tower_getElem? hnode' hlevel]
      · rw [Array.getElem?_eq_none (by omega), Array.getElem?_eq_none (by omega)]
    rw [hnode, hnode']
    cases node
    cases node'
    simp_all
  · cases hnode : lanes.pool.node? id with
    | some node => exact absurd (h.houses.live id node hnode) hid
    | none =>
        cases hnode' : lanes'.pool.node? id with
        | some node => exact absurd (h'.houses.live id node hnode') hid
        | none => rfl

/-- **The row and the order of the vacant slots decide the pool.** -/
theorem pool_eq (h : lanes.Represents height sites vacant)
    (h' : lanes'.Represents height' sites vacant) : lanes'.pool = lanes.pool :=
  h.houses.ext h'.houses (h.node?_eq h')

/-- The row decides the links of the head on the levels in use. -/
theorem link?_head_eq (h : lanes.Represents height sites vacant)
    (h' : lanes'.Represents height sites vacant') {level : Nat} (hlevel : level < height) :
    lanes'.link? .head level = lanes.link? .head level :=
  (h'.links [] sites rfl level hlevel).trans (h.links [] sites rfl level hlevel).symm

/-- **Lanes that represent the same row are the same**, if their heads are the same above the levels
in use. -/
theorem eq_of_sameAbove (h : lanes.Represents height sites vacant)
    (h' : lanes'.Represents height sites vacant) (hsame : SameAbove height lanes lanes') :
    lanes' = lanes := by
  have hpool := h.pool_eq h'
  have hhead : lanes'.head = lanes.head := by
    refine Array.ext_getElem? fun level => ?_
    by_cases hlevel : level < height
    · exact h.link?_head_eq h' hlevel
    · exact hsame.link?_head level (by omega)
  cases lanes
  cases lanes'
  simp only [mk.injEq]
  exact ⟨hhead, hpool⟩

/-- **The pool after a node was put in and taken out again** is the one before, with a vacant slot
more if it had none. -/
theorem pool_eq_withSpare (h : lanes.Represents height sites vacant)
    (h' : lanes'.Represents height' sites (lanes.pool.freshId vacant :: vacant.tail)) :
    lanes'.pool = lanes.pool.withSpare :=
  h.houses.withSpare.ext h'.houses ((h.node?_eq h').trans lanes.pool.node?_withSpare.symm)

end Represents

end Lanes

end IndexedSkipList
