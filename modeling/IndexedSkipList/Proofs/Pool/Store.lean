/-
**A pool is a map, a stack and a count.**

What its user knows of a pool is which nodes live under which ids, which ids have been released and
in which order, and how many ids there are.  A store keeps just that and threads nothing through
anything.  Whatever is done with a pool that was empty at first, a store answers in the same way,
the faults included: both stop at the same operation and for the same reason.

A store goes through the links of a node one by one.  The tower of a new node is a link for each
level that leads nowhere, and writing a link is to go up to its level and to put it there.

A store tells at once which faults there are.  An id that no node lives under is out of bounds if it
was never handed out since the last clearing, and vacant otherwise; an allocation faults only when
no id is left, and in particular never for a node that it finds on the free list.

Main definitions:

* `Pool.Operation`, `Pool.perform` — the commands to a pool, and writing over a whole node;
* `Store.nowhere`, `Store.relink` — the links of a new node, and another link on a level;
* `Store`, `Store.perform` — the store, operation by operation;
* `Store.Coherent` — released ids and live ids are told apart, and together are all ids;
* `Pool.Keeps` — the pool keeps what the store keeps.

Main results:

* `Store.toArray_nowhere`, `Store.relink_eq` — what becomes of the links of a node;
* `Pool.Keeps.perform` — **a pool follows the store at every operation**;
* `Pool.trace_refines_store` — **and through every sequence of operations**.
-/

import IndexedSkipList.Pool.Session
import IndexedSkipList.Proofs.Pool.Occupancy
import IndexedSkipList.Proofs.Trace

set_option relaxedAutoImplicit false
set_option autoImplicit false

namespace IndexedSkipList

variable {K V : Type}

/-! ### What can be done with a pool -/

/-- What can be done with a pool.  Besides the commands this is to write over a node as a whole,
which changes the number of its links as well. -/
inductive Pool.Operation (K V : Type) where
  | command (command : Pool.Command NodeId K V)
  | overwrite (id : NodeId) (node : Node K V)
  deriving DecidableEq

/-- Makes one operation.  Writing over a node answers the node that was there. -/
def Pool.perform (pool : Pool K V) :
    Pool.Operation K V → Except Fault (Pool.Answer K V × Pool K V)
  | .command command => pool.step command
  | .overwrite id node => do
      let old ← pool.get id
      let pool ← pool.set id node
      pure (.node old, pool)

/-! ### The store -/

/-- **A partial map from ids to nodes, the ids released, the last one first, and the number of
ids.** -/
structure Store (K V : Type) where
  nodes : NodeId → Option (Node K V) := fun _ => none
  stack : List NodeId := []
  count : Nat := 0

namespace Store

/-- A link for each level, all of which lead nowhere and cover nothing. -/
def nowhere : Nat → List Link
  | 0 => []
  | height + 1 => { next := none, span := 0 } :: nowhere height

/-- Goes up to a level and puts another link there; the answer is the link that was there. -/
def relink (link : Link) : List Link → Nat → Option (Link × List Link)
  | [], _ => none
  | old :: above, 0 => some (old, link :: above)
  | below :: above, level + 1 =>
      (relink link above level).map fun (old, above) => (old, below :: above)

/-- The id that the next node gets: the one released last, or one that there was not before. -/
def fresh (store : Store K V) : NodeId := store.stack.headD ⟨store.count⟩

/-- Puts a node with a blank tower under the fresh id, if ids are left. -/
def allocate (store : Store K V) (key : K) (value : V) (height : Nat) :
    Except Fault (Pool.Answer K V × Store K V) :=
  let node : Node K V := { key, value, tower := (nowhere height).toArray }
  match store.stack with
  | id :: stack =>
      .ok (.allocated id, { store with nodes := Function.update store.nodes id (some node), stack })
  | [] =>
      if store.count < Pool.capacity then
        .ok (.allocated ⟨store.count⟩,
          { store with
            nodes := Function.update store.nodes ⟨store.count⟩ (some node)
            count := store.count + 1 })
      else .error .poolFull

/-- The node under an id.  Of an id that no node lives under it is told whether it is one of the
store at all; `vacant` is the fault if it is. -/
def find (store : Store K V) (vacant : Nat → Fault) (id : NodeId) : Except Fault (Node K V) :=
  match store.nodes id with
  | some node => .ok node
  | none =>
      .error (if id.index < store.count then vacant id.index else .outOfBounds store.count id.index)

/-- Takes the node from under an id, which is the next to be used again. -/
def release (store : Store K V) (id : NodeId) : Except Fault (Pool.Answer K V × Store K V) := do
  let node ← store.find .doubleFree id
  pure (.node node,
    { store with nodes := Function.update store.nodes id none, stack := id :: store.stack })

/-- Writes over the node under an id. -/
def change (store : Store K V) (id : NodeId)
    (write : Node K V → Except Fault (Pool.Answer K V × Node K V)) :
    Except Fault (Pool.Answer K V × Store K V) := do
  let node ← store.find .dangling id
  let (answer, node) ← write node
  pure (answer, { store with nodes := Function.update store.nodes id (some node) })

/-- The node with another link on a level, if it is that tall. -/
def setLink (node : Node K V) (level : Nat) (link : Link) :
    Except Fault (Pool.Answer K V × Node K V) :=
  match relink link node.tower.toList level with
  | some (old, links) => .ok (.link old, { node with tower := links.toArray })
  | none => .error (.outOfBounds node.height level)

/-- **One operation.** -/
def perform (store : Store K V) :
    Pool.Operation K V → Except Fault (Pool.Answer K V × Store K V)
  | .command (.allocate key value height) => store.allocate key value height
  | .command (.release id) => store.release id
  | .command (.get id) => do
      let node ← store.find .dangling id
      pure (.node node, store)
  | .command (.setKey id key) =>
      store.change id fun node => pure (.key node.key, { node with key })
  | .command (.setValue id value) =>
      store.change id fun node => pure (.value node.value, { node with value })
  | .command (.setLink id level target span) =>
      store.change id fun node => setLink node level { next := target, span }
  | .command (.same first second) => pure (.same (first = second), store)
  | .command .clear => pure (.cleared, {})
  | .overwrite id node => store.change id fun old => pure (.node old, node)

/-! ### Links -/

/-- The links of a new node are those of a blank tower. -/
theorem toArray_nowhere (height : Nat) : (nowhere height).toArray = Tower.blank height := by
  have hreplicate : nowhere height = List.replicate height {} := by
    induction height with
    | zero => rfl
    | succ height ih => rw [nowhere, ih, List.replicate_succ]
  rw [hreplicate, List.toArray_replicate]
  rfl

/-- To go up to a level is to read the link there and to write over it. -/
theorem relink_eq (link : Link) (links : List Link) (level : Nat) :
    relink link links level = links[level]?.map fun old => (old, links.set level link) := by
  induction links generalizing level with
  | nil => rfl
  | cons below above ih =>
      cases level with
      | zero => rfl
      | succ level =>
          rw [relink, ih, List.getElem?_cons_succ, Option.map_map]
          rfl

/-- A node reads and writes a link of its tower in two steps. -/
theorem setLink_eq (node : Node K V) (level : Nat) (link : Link) :
    setLink node level link = (do
      let old ← Tower.link node.tower level
      let tower ← Tower.setLink node.tower level link
      pure (.link old, { node with tower })) := by
  unfold setLink Tower.link Tower.setLink
  rw [relink_eq, Array.getElem?_toList]
  cases hold : node.tower[level]? with
  | none => rfl
  | some old =>
      obtain ⟨hlevel, _⟩ := Array.getElem?_eq_some_iff.1 hold
      simp only [Option.map_some, Fault.ok_bind, hlevel, if_true]
      rw [← Array.toList_setIfInBounds]
      rfl

/-! ### Faults -/

/-- What is told of an id that no node lives under is not that a node is on the free list. -/
theorem find_ne_liveOnFreeList (store : Store K V) {vacant : Nat → Fault}
    (hvacant : ∀ slot, vacant slot ≠ .liveOnFreeList) (id : NodeId) :
    store.find vacant id ≠ .error .liveOnFreeList := by
  unfold find
  cases store.nodes id with
  | some node => simp
  | none =>
      by_cases hin : id.index < store.count
      · simpa [hin] using hvacant id.index
      · simp [hin]

theorem change_ne_liveOnFreeList (store : Store K V) (id : NodeId)
    {write : Node K V → Except Fault (Pool.Answer K V × Node K V)}
    (hwrite : ∀ node, write node ≠ .error .liveOnFreeList) :
    store.change id write ≠ .error .liveOnFreeList := by
  refine Fault.bind_ne_error (store.find_ne_liveOnFreeList (by simp) id) fun node => ?_
  exact Fault.bind_ne_error (hwrite node) (by simp)

/-- **No operation of the store finds a node where it looks for a vacant slot.** -/
theorem perform_ne_liveOnFreeList (store : Store K V) (operation : Pool.Operation K V) :
    store.perform operation ≠ .error .liveOnFreeList := by
  cases operation with
  | overwrite id node => exact store.change_ne_liveOnFreeList id (by simp)
  | command command =>
      cases command with
      | allocate key value height =>
          simp only [perform, allocate]
          cases store.stack with
          | cons id stack => simp
          | nil => by_cases hroom : store.count < Pool.capacity <;> simp [hroom]
      | release id =>
          exact Fault.bind_ne_error (store.find_ne_liveOnFreeList (by simp) id) (by simp)
      | get id => exact Fault.bind_ne_error (store.find_ne_liveOnFreeList (by simp) id) (by simp)
      | setKey id key => exact store.change_ne_liveOnFreeList id (by simp)
      | setValue id value => exact store.change_ne_liveOnFreeList id (by simp)
      | setLink id level target span =>
          refine store.change_ne_liveOnFreeList id fun node => ?_
          unfold setLink
          cases relink { next := target, span } node.tower.toList level <;> simp
      | same first second => simp [perform]
      | clear => simp [perform]

/-- **The store is coherent**: no id is on the stack twice, no node lives under an id of the stack,
and these ids and the live ones together are those below the count. -/
structure Coherent (store : Store K V) : Prop where
  nodup : store.stack.Nodup
  vacant : ∀ id ∈ store.stack, store.nodes id = none
  all : ∀ id, id.index < store.count ↔ id ∈ store.stack ∨ ∃ node, store.nodes id = some node
  /-- No node lives under the id that is used next. -/
  fresh : store.nodes store.fresh = none

end Store

/-! ### A pool keeps what a store keeps -/

namespace Pool

/-- **The pool keeps what the store keeps**: its nodes are those of the map, the free list runs
through the stack, and there is a slot for every id. -/
structure Keeps (pool : Pool K V) (store : Store K V) : Prop where
  nodes_eq : pool.node? = store.nodes
  threaded : pool.Threaded store.stack
  size_eq : pool.slots.size = store.count

/-- The pool keeps what the store keeps, and the store is coherent. -/
def KeepsCoherent (pool : Pool K V) (store : Store K V) : Prop :=
  pool.Keeps store ∧ store.Coherent

theorem keeps_empty : ({} : Pool K V).Keeps {} where
  nodes_eq := by
    funext id
    simp [node?]
  threaded := threaded_empty
  size_eq := rfl

namespace Keeps

variable {pool : Pool K V} {store : Store K V}

/-- A store that is kept by a pool is coherent. -/
theorem coherent (h : pool.Keeps store) : store.Coherent where
  nodup := h.threaded.nodup
  vacant id hid := by
    rw [← h.nodes_eq]
    exact h.threaded.node?_eq_none hid
  all id := by
    rw [← h.size_eq, ← h.nodes_eq]
    constructor
    · intro hid
      -- a slot within the pool either holds a node or is on the free list
      cases hslot : pool.slots[id.index] with
      | occupied node => exact Or.inr ⟨node, node?_eq_some_iff.2 (by simp [hid, hslot])⟩
      | vacant next => exact Or.inl (h.threaded.complete id next (by simp [hid, hslot]))
    · rintro (hid | ⟨node, hnode⟩)
      · obtain ⟨next, hslot⟩ := h.threaded.chain.vacant_of_mem hid
        exact (Array.getElem?_eq_some_iff.1 hslot).1
      · exact index_lt_of_node? hnode
  fresh := by
    have hfresh := h.threaded.node?_freshId
    rw [h.nodes_eq, freshId, h.size_eq] at hfresh
    exact hfresh

theorem keepsCoherent (h : pool.Keeps store) : pool.KeepsCoherent store := ⟨h, h.coherent⟩

/-! ### One operation -/

/-- Where no node lives, reading faults as the store says. -/
theorem get_eq (h : pool.Keeps store) (id : NodeId) : pool.get id = store.find .dangling id := by
  unfold Store.find get
  rw [← h.nodes_eq, ← h.size_eq, node?]
  cases hslot : pool.slots[id.index]? with
  | none =>
      have hout : ¬ id.index < pool.slots.size := Nat.not_lt.2 (Array.getElem?_eq_none_iff.1 hslot)
      simp [hout]
  | some slot =>
      obtain ⟨hin, _⟩ := Array.getElem?_eq_some_iff.1 hslot
      cases slot with
      | occupied node => rfl
      | vacant next => simp [hin]

/-- Where no node lives, releasing faults as the store says. -/
theorem release_eq_error (h : pool.Keeps store) {id : NodeId} (hnone : store.nodes id = none) :
    ∃ fault, pool.release id = .error fault ∧ store.release id = .error fault := by
  have hnode : pool.node? id = none := by rw [h.nodes_eq, hnone]
  unfold Store.release Store.find release
  rw [hnone, ← h.size_eq]
  cases hslot : pool.slots[id.index]? with
  | none =>
      have hout : ¬ id.index < pool.slots.size := Nat.not_lt.2 (Array.getElem?_eq_none_iff.1 hslot)
      exact ⟨_, rfl, by simp only [hout, if_false]; rfl⟩
  | some slot =>
      obtain ⟨hin, _⟩ := Array.getElem?_eq_some_iff.1 hslot
      cases slot with
      | occupied node => simp [node?, hslot] at hnode
      | vacant next => exact ⟨_, rfl, by simp only [hin, if_true]; rfl⟩

/-- **Allocation** takes the id released last, or a new one. -/
theorem allocate (h : pool.Keeps store) (key : K) (value : V) (height : Nat) :
    Simulates KeepsCoherent (pool.perform (.command (.allocate key value height)))
      (store.allocate key value height) := by
  have hthreaded := h.threaded
  simp only [Pool.perform, step, Store.allocate, Store.toArray_nowhere]
  cases hstack : store.stack with
  | cons id stack =>
      rw [hstack] at hthreaded
      obtain ⟨pool', hallocate, hthreaded', hnodes⟩ :=
        hthreaded.allocate (by simp) key value height
      obtain ⟨next, hslot⟩ := hthreaded.chain.vacant_of_mem (List.mem_cons_self ..)
      obtain ⟨hlt, _⟩ := Array.getElem?_eq_some_iff.1 hslot
      have hsize : pool'.slots.size = pool.slots.size :=
        (size_of_allocate hallocate).trans (Nat.max_eq_left hlt)
      rw [hallocate]
      exact .answered (keepsCoherent
        { nodes_eq := by rw [hnodes, h.nodes_eq]; rfl
          threaded := hthreaded'
          size_eq := hsize.trans h.size_eq })
  | nil =>
      rw [hstack] at hthreaded
      by_cases hroom : store.count < capacity
      · obtain ⟨pool', hallocate, hthreaded', hnodes⟩ :=
          hthreaded.allocate (fun _ => h.size_eq ▸ hroom) key value height
        have hid : pool.freshId [] = ⟨store.count⟩ := congrArg NodeId.mk h.size_eq
        have hsize := size_of_allocate hallocate
        rw [hid] at hallocate hnodes
        simp only [hallocate, hroom, if_true]
        exact .answered (keepsCoherent
          { nodes_eq := by rw [hnodes, h.nodes_eq]
            threaded := hthreaded'
            size_eq := by
              rw [hsize, hid, h.size_eq]
              exact Nat.max_eq_right (Nat.le_succ _) })
      · have hfree : pool.free = none := hthreaded.chain.start_eq
        have hfull : pool.allocate key value height = .error .poolFull := by
          simp [Pool.allocate, hfree, h.size_eq, hroom]
        simp only [hfull, hroom, if_false]
        exact .stopped .poolFull

/-- **Releasing** gives the node back and keeps its id for the next allocation. -/
theorem release (h : pool.Keeps store) (id : NodeId) :
    Simulates KeepsCoherent (pool.perform (.command (.release id))) (store.release id) := by
  simp only [Pool.perform, step]
  cases hnode : store.nodes id with
  | none =>
      obtain ⟨fault, hpool, hstore⟩ := h.release_eq_error hnode
      rw [hpool, hstore]
      exact .stopped fault
  | some node =>
      obtain ⟨pool', hrelease, hthreaded, hnodes⟩ :=
        h.threaded.release ((congrFun h.nodes_eq id).trans hnode)
      have hstore : store.release id = .ok (.node node,
          { store with
            nodes := Function.update store.nodes id none
            stack := id :: store.stack }) := by
        simp [Store.release, Store.find, hnode]
      rw [hrelease, hstore]
      exact .answered (keepsCoherent
        { nodes_eq := by rw [hnodes, h.nodes_eq]
          threaded := hthreaded
          size_eq := (size_of_release hrelease).trans h.size_eq })

/-- **Reading** shows what was written last. -/
theorem read (h : pool.Keeps store) (id : NodeId) :
    Simulates KeepsCoherent (pool.perform (.command (.get id)))
      (store.perform (.command (.get id))) := by
  simp only [Pool.perform, step, Store.perform, h.get_eq]
  cases store.find .dangling id with
  | error fault => exact .stopped fault
  | ok node => exact .answered h.keepsCoherent

/-- **Writing** changes the node under one id. -/
theorem change (h : pool.Keeps store) (id : NodeId)
    (write : Node K V → Except Fault (Answer K V × Node K V)) :
    Simulates KeepsCoherent
      (do let old ← pool.get id
          let (answer, node) ← write old
          let pool ← pool.set id node
          pure (answer, pool))
      (store.change id write) := by
  unfold Store.change
  rw [h.get_eq]
  cases hold : store.find .dangling id with
  | error fault => exact .stopped fault
  | ok old =>
      rw [Fault.ok_bind, Fault.ok_bind]
      cases hwrite : write old with
      | error fault => exact .stopped fault
      | ok result =>
          have hnode : pool.node? id = some old := by
            rw [← get_eq_ok_iff, h.get_eq, hold]
          obtain ⟨pool', hset, hthreaded, hnodes⟩ := h.threaded.set hnode result.2
          simp only [Fault.ok_bind, hset]
          exact .answered (keepsCoherent
            { nodes_eq := by rw [hnodes, h.nodes_eq]
              threaded := hthreaded
              size_eq := (size_of_set hset).trans h.size_eq })

/-- **A pool follows the store at every operation.** -/
theorem perform (h : pool.Keeps store) (operation : Operation K V) :
    Simulates KeepsCoherent (pool.perform operation) (store.perform operation) := by
  cases operation with
  | overwrite id node => exact h.change id fun old => pure (.node old, node)
  | command command =>
      cases command with
      | allocate key value height => exact h.allocate key value height
      | release id => exact h.release id
      | get id => exact h.read id
      | setKey id key => exact h.change id fun node => pure (.key node.key, { node with key })
      | setValue id value =>
          exact h.change id fun node => pure (.value node.value, { node with value })
      | setLink id level target span =>
          have hchange := h.change id fun node => Store.setLink node level { next := target, span }
          simp only [Store.setLink_eq, bind_assoc, pure_bind] at hchange
          simp only [Store.perform, Store.setLink_eq]
          exact hchange
      | same first second => exact .answered h.keepsCoherent
      | clear => exact .answered keeps_empty.keepsCoherent

end Keeps

/-! ### Sequences of operations -/

/-- **A pool refines the store through every sequence of operations.**  Both are empty at first.
Result by result both answer the same or stop for the same reason, and after each operation the pool
keeps what the store keeps.  No allocation ever finds a node on the free list. -/
theorem trace_refines_store (operations : List (Operation K V)) :
    ({} : Pool K V).KeepsCoherent {} ∧
    List.Forall₂ (Simulates KeepsCoherent) (trace perform ({} : Pool K V) operations)
      (trace Store.perform ({} : Store K V) operations) ∧
    .error .liveOnFreeList ∉ trace perform ({} : Pool K V) operations := by
  have hempty : ({} : Pool K V).KeepsCoherent {} := keeps_empty.keepsCoherent
  have hsimulates := trace_simulates
    (fun (pool : Pool K V) store operation (h : pool.KeepsCoherent store) =>
      h.1.perform operation) hempty operations
  refine ⟨hempty, hsimulates, ?_⟩
  intro hmem
  obtain ⟨result, hresult, hagree⟩ := exists_of_forall₂ hsimulates hmem
  cases hagree
  obtain ⟨store, operation, hperform⟩ := exists_of_mem_trace hresult
  exact store.perform_ne_liveOnFreeList operation hperform

/-- Ids are used again in the opposite order of their release, and then a new one is. -/
example :
    (trace perform ({} : Pool Nat Nat)
      ([.allocate 1 1 1, .allocate 2 2 1, .allocate 3 3 1, .release ⟨0⟩, .release ⟨2⟩,
        .allocate 4 4 1, .allocate 5 5 1, .allocate 6 6 1].map .command)).filterMap
        (fun result => match result with
          | .ok (.allocated id, _) => some id.index
          | _ => none) = [0, 1, 2, 2, 0, 3] := by
  decide

end Pool

end IndexedSkipList
