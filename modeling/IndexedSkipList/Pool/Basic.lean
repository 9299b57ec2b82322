/-
**A pool of nodes whose slots are used again.**

A node lives in a slot of the pool and is named by the number of that slot, its id.  A released slot
joins the free list, which is threaded through the vacant slots themselves: each names the slot that
was released before it.  Allocation takes the slot released last, and only when no slot is vacant
does the pool grow.  So an id is stable as long as its node lives, ids of live nodes are distinct,
and a pool never has more slots than it once had nodes.

An id that outlives its node is not trusted: reading through it faults as `Fault.dangling`,
releasing it again as `Fault.doubleFree`, and after `Pool.clear`, when its slot may be gone, either
of them as `Fault.outOfBounds`.

Main definitions:

* `NodeId`, `Link`, `Tower`, `Node` — a node carries a key, a value and a tower of links, one for
  each level it stands on;
* `Slot`, `Pool` — the slots, and the slot that the free list starts at;
* `Pool.allocate`, `Pool.release`, `Pool.get`, `Pool.set`, `Pool.clear` — the operations.

Main results:

* `Tower.link_of_setLink`, `Tower.link_of_setLink_ne` — a link that is written is read back, and no
  other link changes;
* `Pool.get_of_set`, `Pool.get_of_set_ne` — the same for the nodes of a pool.
-/

import IndexedSkipList.Fault

set_option relaxedAutoImplicit false
set_option autoImplicit false

namespace IndexedSkipList

/-! ### Nodes and their links -/

/-- The name of a node: the number of the slot it lives in. -/
structure NodeId where
  index : Nat
  deriving DecidableEq

/-- The written form of an id. -/
def NodeId.text (id : NodeId) : String := s!"NodeId({id.index})"

/-- A link on one level: the node it leads to, and the number of places at the base that it
covers, the node it leads to included.  A link that leads nowhere covers the places left. -/
structure Link where
  next : Option NodeId := none
  span : Nat := 0
  deriving DecidableEq, Inhabited

/-- The links of one node, the one of the base first. -/
abbrev Tower := Array Link

namespace Tower

/-- A tower of links that lead nowhere. -/
def blank (height : Nat) : Tower := Array.replicate height {}

/-- The link on `level`. -/
def link (tower : Tower) (level : Nat) : Except Fault Link :=
  match tower[level]? with
  | some link => .ok link
  | none => .error (.outOfBounds tower.size level)

/-- The tower with another link on `level`. -/
def setLink (tower : Tower) (level : Nat) (link : Link) : Except Fault Tower :=
  if level < tower.size then .ok (tower.setIfInBounds level link)
  else .error (.outOfBounds tower.size level)

theorem link_blank {height level : Nat} (h : level < height) :
    link (blank height) level = .ok {} := by
  simp [link, blank, h]

/-- A link that was written is read back. -/
theorem link_of_setLink {tower tower' : Tower} {level : Nat} {l : Link}
    (h : setLink tower level l = .ok tower') : link tower' level = .ok l := by
  unfold setLink at h
  split at h
  · cases h
    simp [link, *]
  · cases h

/-- Writing a link leaves the links of the other levels alone. -/
theorem link_of_setLink_ne {tower tower' : Tower} {level other : Nat} {l : Link}
    (h : setLink tower level l = .ok tower') (hne : other ≠ level) :
    link tower' other = link tower other := by
  unfold setLink at h
  split at h
  · cases h
    simp [link, Ne.symm hne]
  · cases h

end Tower

/-- A node: an entry and the links of the levels it stands on. -/
structure Node (K V : Type) where
  key : K
  value : V
  tower : Tower
  deriving DecidableEq

/-- The number of levels a node stands on. -/
def Node.height {K V : Type} (node : Node K V) : Nat := node.tower.size

/-- The entry that a node carries. -/
def Node.entry {K V : Type} (node : Node K V) : K × V := (node.key, node.value)

/-! ### The pool -/

/-- A slot holds a node, or is vacant and names the slot that was vacant before it. -/
inductive Slot (K V : Type) where
  | occupied (node : Node K V)
  | vacant (nextFree : Option NodeId)
  deriving DecidableEq

/-- The slots, and the vacant slot to be used next. -/
structure Pool (K V : Type) where
  slots : Array (Slot K V) := #[]
  free : Option NodeId := none
  deriving DecidableEq

namespace Pool

variable {K V : Type}

/-- The number of slots that ids can name, `2 ^ 32 - 1`. -/
def capacity : Nat := 0xffffffff

/-- Puts a node with a blank tower into the slot released last, or into a new one. -/
def allocate (pool : Pool K V) (key : K) (value : V) (height : Nat) :
    Except Fault (NodeId × Pool K V) :=
  let node : Node K V := { key, value, tower := Tower.blank height }
  match pool.free with
  | some id =>
      match pool.slots[id.index]? with
      | some (.vacant nextFree) =>
          .ok (id,
            { slots := pool.slots.setIfInBounds id.index (.occupied node), free := nextFree })
      | some (.occupied _) => .error .liveOnFreeList
      | none => .error (.outOfBounds pool.slots.size id.index)
  | none =>
      if pool.slots.size < capacity then
        .ok (⟨pool.slots.size⟩, { pool with slots := pool.slots.push (.occupied node) })
      else .error .poolFull

/-- Takes a node out of its slot, which becomes the next to be used. -/
def release (pool : Pool K V) (id : NodeId) : Except Fault (Node K V × Pool K V) :=
  match pool.slots[id.index]? with
  | some (.occupied node) =>
      .ok (node,
        { slots := pool.slots.setIfInBounds id.index (.vacant pool.free), free := some id })
  | some (.vacant _) => .error (.doubleFree id.index)
  | none => .error (.outOfBounds pool.slots.size id.index)

/-- The node that `id` names. -/
def get (pool : Pool K V) (id : NodeId) : Except Fault (Node K V) :=
  match pool.slots[id.index]? with
  | some (.occupied node) => .ok node
  | some (.vacant _) => .error (.dangling id.index)
  | none => .error (.outOfBounds pool.slots.size id.index)

/-- Puts `node` in the place of the node that `id` names. -/
def set (pool : Pool K V) (id : NodeId) (node : Node K V) : Except Fault (Pool K V) :=
  match pool.slots[id.index]? with
  | some (.occupied _) =>
      .ok { pool with slots := pool.slots.setIfInBounds id.index (.occupied node) }
  | some (.vacant _) => .error (.dangling id.index)
  | none => .error (.outOfBounds pool.slots.size id.index)

/-- A node that was put in place is read back. -/
theorem get_of_set {pool pool' : Pool K V} {id : NodeId} {node : Node K V}
    (h : pool.set id node = .ok pool') : pool'.get id = .ok node := by
  unfold set at h
  split at h
  next node' hslot =>
    cases h
    obtain ⟨hlt, _⟩ := Array.getElem?_eq_some_iff.1 hslot
    simp [get, hlt]
  · cases h
  · cases h

/-- Putting a node in place leaves the other slots alone. -/
theorem get_of_set_ne {pool pool' : Pool K V} {id other : NodeId} {node : Node K V}
    (h : pool.set id node = .ok pool') (hne : other ≠ id) : pool'.get other = pool.get other := by
  have hindex : id.index ≠ other.index := by
    intro he
    apply hne
    cases id
    cases other
    simp_all
  unfold set at h
  split at h
  · cases h
    simp [get, hindex]
  · cases h
  · cases h

/-- The empty pool: nodes and vacant slots are forgotten, so that ids start again at zero. -/
def clear (_ : Pool K V) : Pool K V := {}

end Pool

end IndexedSkipList
