/-
**Which slots of a pool are occupied, and in which order the others are handed out.**

To its user a pool is a partial map from ids to nodes together with a stack of vacant ids.  The map
is `Pool.node?`.  The stack is threaded through the slots themselves, and `Pool.Threaded` says that
it is intact: the free list runs through the given ids, each of them once, and misses no vacant
slot.  The operations keep it intact and change the map at one id.

Main definitions:

* `Pool.node?` — the node that lives under an id;
* `Pool.FreeFrom` — the free list, followed from an id on;
* `Pool.Threaded` — the free list runs through exactly the vacant slots;
* `Pool.freshId` — the id that the next allocation hands out.

Main results:

* `Pool.Threaded.allocate`, `Pool.Threaded.release`, `Pool.Threaded.set` — **each operation succeeds
  where it should**, changes the map at one id and keeps the free list intact;
* `Pool.Threaded.ext` — the nodes and the order of the vacant slots decide a pool;
* `Pool.Threaded.length_add_length` — live and vacant ids together are all slots.
-/

import IndexedSkipList.Pool.Basic
import Mathlib.Data.List.Perm.Lattice
import Mathlib.Data.List.Range
import Mathlib.Logic.Function.Basic

set_option relaxedAutoImplicit false
set_option autoImplicit false

namespace IndexedSkipList

theorem NodeId.index_ne {a b : NodeId} (h : a ≠ b) : a.index ≠ b.index := by
  intro he
  apply h
  cases a
  cases b
  simp_all

namespace Pool

variable {K V : Type}

/-! ### The pool as a partial map -/

/-- The node that lives under `id`, if there is one. -/
def node? (pool : Pool K V) (id : NodeId) : Option (Node K V) :=
  match pool.slots[id.index]? with
  | some (.occupied node) => some node
  | _ => none

theorem node?_eq_some_iff {pool : Pool K V} {id : NodeId} {node : Node K V} :
    pool.node? id = some node ↔ pool.slots[id.index]? = some (.occupied node) := by
  unfold node?
  split <;> simp_all

theorem node?_eq_none_of_vacant {pool : Pool K V} {id : NodeId} {next : Option NodeId}
    (h : pool.slots[id.index]? = some (.vacant next)) : pool.node? id = none := by
  simp [node?, h]

theorem get_eq_ok_iff {pool : Pool K V} {id : NodeId} {node : Node K V} :
    pool.get id = .ok node ↔ pool.node? id = some node := by
  unfold get node?
  split <;> simp_all

theorem index_lt_of_node? {pool : Pool K V} {id : NodeId} {node : Node K V}
    (h : pool.node? id = some node) : id.index < pool.slots.size := by
  obtain ⟨hlt, _⟩ := Array.getElem?_eq_some_iff.1 (node?_eq_some_iff.1 h)
  exact hlt

/-! ### The free list -/

/-- The free list from `start` on runs through the ids of the list, and then ends. -/
inductive FreeFrom (slots : Array (Slot K V)) : Option NodeId → List NodeId → Prop where
  | last : FreeFrom slots none []
  | step {id : NodeId} {next : Option NodeId} {ids : List NodeId} :
      slots[id.index]? = some (.vacant next) → FreeFrom slots next ids →
        FreeFrom slots (some id) (id :: ids)

/-- What happens to other slots does not touch the free list. -/
theorem FreeFrom.frame {slots slots' : Array (Slot K V)} {start : Option NodeId}
    {ids : List NodeId} (h : FreeFrom slots start ids)
    (hsame : ∀ id ∈ ids, slots'[id.index]? = slots[id.index]?) : FreeFrom slots' start ids := by
  induction h with
  | last => exact .last
  | step hslot _ ih =>
      refine .step ?_ (ih fun id hid => hsame id (List.mem_cons_of_mem _ hid))
      rw [hsame _ (List.mem_cons_self ..), hslot]

theorem FreeFrom.vacant_of_mem {slots : Array (Slot K V)} {start : Option NodeId}
    {ids : List NodeId} (h : FreeFrom slots start ids) {id : NodeId} (hid : id ∈ ids) :
    ∃ next, slots[id.index]? = some (.vacant next) := by
  induction h with
  | last => simp at hid
  | step hslot _ ih =>
      rcases List.mem_cons.1 hid with rfl | hid
      · exact ⟨_, hslot⟩
      · exact ih hid

theorem FreeFrom.start_eq {slots : Array (Slot K V)} {start : Option NodeId} {ids : List NodeId}
    (h : FreeFrom slots start ids) : start = ids.head? := by
  cases h with
  | last => rfl
  | step => rfl

/-- The ids that the free list runs through decide what their slots hold. -/
theorem FreeFrom.slot_eq {slots slots' : Array (Slot K V)} {start start' : Option NodeId}
    {ids : List NodeId} (h : FreeFrom slots start ids) (h' : FreeFrom slots' start' ids) :
    ∀ id ∈ ids, slots'[id.index]? = slots[id.index]? := by
  induction h generalizing start' with
  | last => simp
  | step hslot hrest ih =>
      cases h' with
      | step hslot' hrest' =>
          refine List.forall_mem_cons.2 ⟨?_, ih hrest'⟩
          rw [hslot, hslot', hrest.start_eq, hrest'.start_eq]

/-- **The free list is intact**: it runs through the given ids, and these are the ids of the vacant
slots, each of them once. -/
structure Threaded (pool : Pool K V) (vacant : List NodeId) : Prop where
  chain : FreeFrom pool.slots pool.free vacant
  nodup : vacant.Nodup
  complete : ∀ (id : NodeId) (next : Option NodeId),
    pool.slots[id.index]? = some (.vacant next) → id ∈ vacant

/-- The id that is handed out next: the one on top of the stack, else the first that has no slot. -/
def freshId (pool : Pool K V) (vacant : List NodeId) : NodeId :=
  vacant.headD ⟨pool.slots.size⟩

theorem threaded_empty : Threaded ({} : Pool K V) [] where
  chain := .last
  nodup := List.nodup_nil
  complete := by simp

/-- No node lives under a vacant id. -/
theorem Threaded.node?_eq_none {pool : Pool K V} {vacant : List NodeId} (h : pool.Threaded vacant)
    {id : NodeId} (hid : id ∈ vacant) : pool.node? id = none := by
  obtain ⟨next, hslot⟩ := h.chain.vacant_of_mem hid
  exact node?_eq_none_of_vacant hslot

/-- No node lives under the id that is handed out next. -/
theorem Threaded.node?_freshId {pool : Pool K V} {vacant : List NodeId} (h : pool.Threaded vacant) :
    pool.node? (pool.freshId vacant) = none := by
  cases vacant with
  | nil => simp [freshId, node?]
  | cons id ids => exact h.node?_eq_none (List.mem_cons_self ..)

/-- **The nodes and the order of the vacant slots decide a pool** of a given size. -/
theorem Threaded.ext {pool pool' : Pool K V} {vacant : List NodeId} (h : pool.Threaded vacant)
    (h' : pool'.Threaded vacant) (hnodes : pool'.node? = pool.node?)
    (hsize : pool'.slots.size = pool.slots.size) : pool' = pool := by
  have hfree : pool'.free = pool.free := h'.chain.start_eq.trans h.chain.start_eq.symm
  have hslots : pool'.slots = pool.slots := by
    refine Array.ext_getElem? fun i => ?_
    by_cases hmem : (⟨i⟩ : NodeId) ∈ vacant
    · exact h.chain.slot_eq h'.chain ⟨i⟩ hmem
    · -- a slot that is not vacant holds a node
      by_cases hi : i < pool.slots.size
      · cases hslot : pool.slots[i] with
        | vacant next => exact absurd (h.complete ⟨i⟩ next (by simp [hi, hslot])) hmem
        | occupied node =>
            have hnode : pool.node? ⟨i⟩ = some node :=
              node?_eq_some_iff.2 (by simp [hi, hslot])
            have hnode' : pool'.node? ⟨i⟩ = some node := by rw [hnodes, hnode]
            exact (node?_eq_some_iff.1 hnode').trans (node?_eq_some_iff.1 hnode).symm
      · rw [Array.getElem?_eq_none (by omega), Array.getElem?_eq_none (by omega)]
  cases pool
  cases pool'
  simp only [mk.injEq]
  exact ⟨hslots, hfree⟩

/-! ### What the operations compute -/

theorem allocate_of_vacant {pool : Pool K V} {id : NodeId} {next : Option NodeId}
    (hfree : pool.free = some id) (hslot : pool.slots[id.index]? = some (.vacant next))
    (key : K) (value : V) (height : Nat) :
    pool.allocate key value height =
      .ok (id,
        { slots := pool.slots.setIfInBounds id.index
            (.occupied { key, value, tower := Tower.blank height })
          free := next }) := by
  simp [allocate, hfree, hslot]

theorem allocate_of_full {pool : Pool K V} (hfree : pool.free = none)
    (hroom : pool.slots.size < capacity) (key : K) (value : V) (height : Nat) :
    pool.allocate key value height =
      .ok (⟨pool.slots.size⟩,
        { pool with
          slots := pool.slots.push (.occupied { key, value, tower := Tower.blank height }) }) := by
  simp [allocate, hfree, hroom]

theorem release_of_node? {pool : Pool K V} {id : NodeId} {node : Node K V}
    (h : pool.node? id = some node) :
    pool.release id =
      .ok (node,
        { slots := pool.slots.setIfInBounds id.index (.vacant pool.free), free := some id }) := by
  simp [release, node?_eq_some_iff.1 h]

theorem set_of_node? {pool : Pool K V} {id : NodeId} {old : Node K V}
    (h : pool.node? id = some old) (node : Node K V) :
    pool.set id node =
      .ok { pool with slots := pool.slots.setIfInBounds id.index (.occupied node) } := by
  simp [set, node?_eq_some_iff.1 h]

/-- Only the id of a slot that there was not before makes the pool larger. -/
theorem size_of_allocate {pool pool' : Pool K V} {key : K} {value : V} {height : Nat} {id : NodeId}
    (h : pool.allocate key value height = .ok (id, pool')) :
    pool'.slots.size = max pool.slots.size (id.index + 1) := by
  unfold allocate at h
  split at h
  · split at h
    · next next hslot =>
        cases h
        obtain ⟨hlt, _⟩ := Array.getElem?_eq_some_iff.1 hslot
        rw [Array.size_setIfInBounds]
        omega
    · cases h
    · cases h
  · split at h
    · cases h
      rw [Array.size_push]
      exact (Nat.max_eq_right (Nat.le_succ _)).symm
    · cases h

theorem size_of_release {pool pool' : Pool K V} {id : NodeId} {node : Node K V}
    (h : pool.release id = .ok (node, pool')) : pool'.slots.size = pool.slots.size := by
  unfold release at h
  split at h
  · cases h
    exact Array.size_setIfInBounds
  · cases h
  · cases h

theorem size_of_set {pool pool' : Pool K V} {id : NodeId} {node : Node K V}
    (h : pool.set id node = .ok pool') : pool'.slots.size = pool.slots.size := by
  unfold set at h
  split at h
  · cases h
    exact Array.size_setIfInBounds
  · cases h
  · cases h

/-- A slot that is written with a node holds it; the other slots are as they were. -/
theorem node?_setIfInBounds {pool : Pool K V} {id : NodeId} (hid : id.index < pool.slots.size)
    (node : Node K V) (free : Option NodeId) :
    node? { slots := pool.slots.setIfInBounds id.index (.occupied node), free } =
      Function.update pool.node? id (some node) := by
  funext other
  by_cases hother : other = id
  · subst hother
    simp [node?, hid]
  · rw [Function.update_of_ne hother]
    simp [node?, (NodeId.index_ne hother).symm]

/-! ### The operations on the map and the stack -/

/-- Writing a node into the slot of a live or vacant id leaves the rest of the free list intact. -/
theorem FreeFrom.setIfInBounds {slots : Array (Slot K V)} {start : Option NodeId}
    {ids : List NodeId} (h : FreeFrom slots start ids) {id : NodeId} (hid : id ∉ ids)
    (slot : Slot K V) : FreeFrom (slots.setIfInBounds id.index slot) start ids := by
  refine h.frame fun other hother => ?_
  have hne : other ≠ id := fun he => hid (he ▸ hother)
  exact Array.getElem?_setIfInBounds_ne (NodeId.index_ne hne).symm

/-- **Allocation takes the id on top of the stack**, or a new one when the stack is empty and ids
are left. -/
theorem Threaded.allocate {pool : Pool K V} {vacant : List NodeId} (h : pool.Threaded vacant)
    (hroom : vacant = [] → pool.slots.size < capacity) (key : K) (value : V) (height : Nat) :
    ∃ pool', pool.allocate key value height = .ok (pool.freshId vacant, pool') ∧
      pool'.Threaded vacant.tail ∧
      pool'.node? = Function.update pool.node? (pool.freshId vacant)
        (some { key, value, tower := Tower.blank height }) := by
  obtain ⟨hchain, hnodup, hcomplete⟩ := h
  generalize hfree : pool.free = start at hchain
  -- the pool grows, or the slot released last is taken and the one before it becomes the first
  cases hchain with
  | last =>
      refine ⟨_, allocate_of_full hfree (hroom rfl) key value height, ⟨?_, hnodup, ?_⟩, ?_⟩
      · simpa [hfree] using FreeFrom.last
      · intro id next hslot
        simp only [Array.getElem?_push] at hslot
        split at hslot
        · simp at hslot
        · simpa using hcomplete id next hslot
      · funext other
        by_cases hother : other = ⟨pool.slots.size⟩
        · subst hother
          simp [node?, freshId]
        · have hne := NodeId.index_ne hother
          simp [node?, freshId, Function.update_of_ne hother, Array.getElem?_push, hne]
  | @step id next ids hslot hrest =>
      obtain ⟨hlt, _⟩ := Array.getElem?_eq_some_iff.1 hslot
      obtain ⟨hnot, hnodup'⟩ := List.nodup_cons.1 hnodup
      refine ⟨_, allocate_of_vacant hfree hslot key value height,
        ⟨hrest.setIfInBounds hnot _, hnodup', ?_⟩, node?_setIfInBounds hlt _ _⟩
      intro other next' hother
      have hne : other ≠ id := by
        rintro rfl
        simp [hlt] at hother
      rw [Array.getElem?_setIfInBounds_ne (NodeId.index_ne hne).symm] at hother
      exact (List.mem_cons.1 (hcomplete other next' hother)).resolve_left hne

/-- A live id is not vacant. -/
theorem Threaded.not_mem {pool : Pool K V} {vacant : List NodeId} (h : pool.Threaded vacant)
    {id : NodeId} {node : Node K V} (hnode : pool.node? id = some node) : id ∉ vacant := by
  intro hid
  rw [h.node?_eq_none hid] at hnode
  cases hnode

/-- **Releasing a live id puts it on top of the stack** and gives its node back. -/
theorem Threaded.release {pool : Pool K V} {vacant : List NodeId} (h : pool.Threaded vacant)
    {id : NodeId} {node : Node K V} (hnode : pool.node? id = some node) :
    ∃ pool', pool.release id = .ok (node, pool') ∧ pool'.Threaded (id :: vacant) ∧
      pool'.node? = Function.update pool.node? id none := by
  have hlt := index_lt_of_node? hnode
  have hnot := h.not_mem hnode
  refine ⟨_, release_of_node? hnode, ⟨?_, List.nodup_cons.2 ⟨hnot, h.nodup⟩, ?_⟩, ?_⟩
  · exact .step (by simp [hlt]) (h.chain.setIfInBounds hnot _)
  · intro other next hother
    by_cases hne : other = id
    · exact hne ▸ List.mem_cons_self ..
    · rw [Array.getElem?_setIfInBounds_ne (NodeId.index_ne hne).symm] at hother
      exact List.mem_cons_of_mem _ (h.complete other next hother)
  · funext other
    by_cases hne : other = id
    · subst hne
      simp [node?, hlt]
    · simp [node?, (NodeId.index_ne hne).symm, Function.update_of_ne hne]

/-- **Putting a node in the place of another** changes no other node and no vacant slot. -/
theorem Threaded.set {pool : Pool K V} {vacant : List NodeId} (h : pool.Threaded vacant)
    {id : NodeId} {old : Node K V} (hold : pool.node? id = some old) (node : Node K V) :
    ∃ pool', pool.set id node = .ok pool' ∧ pool'.Threaded vacant ∧
      pool'.node? = Function.update pool.node? id (some node) := by
  have hlt := index_lt_of_node? hold
  have hnot := h.not_mem hold
  refine ⟨_, set_of_node? hold node, ⟨h.chain.setIfInBounds hnot _, h.nodup, ?_⟩,
    node?_setIfInBounds hlt _ _⟩
  intro other next hother
  have hne : other ≠ id := by
    rintro rfl
    simp [hlt] at hother
  rw [Array.getElem?_setIfInBounds_ne (NodeId.index_ne hne).symm] at hother
  exact h.complete other next hother

/-! ### Counting slots -/

/-- **Live and vacant ids together are all slots**, so their numbers add up to the number of
slots. -/
theorem Threaded.length_add_length {pool : Pool K V} {vacant live : List NodeId}
    (h : pool.Threaded vacant) (hnodup : live.Nodup)
    (hlive : ∀ id, id ∈ live ↔ ∃ node, pool.node? id = some node) :
    live.length + vacant.length = pool.slots.size := by
  have hdisjoint : live.Disjoint vacant := by
    intro id hid hvacant
    obtain ⟨node, hnode⟩ := (hlive id).1 hid
    rw [h.node?_eq_none hvacant] at hnode
    cases hnode
  have hall : (live ++ vacant).Nodup := hnodup.append h.nodup hdisjoint
  have hindices : ((live ++ vacant).map NodeId.index).Nodup :=
    hall.map fun a b hab => by
      by_contra hne
      exact NodeId.index_ne hne hab
  -- every slot holds a node or is vacant, so the ids of both kinds number all slots
  have hperm : ((live ++ vacant).map NodeId.index).Perm (List.range pool.slots.size) := by
    refine (List.perm_ext_iff_of_nodup hindices List.nodup_range).2 fun i => ?_
    simp only [List.mem_map, List.mem_append, List.mem_range]
    constructor
    · rintro ⟨id, hid | hid, rfl⟩
      · obtain ⟨node, hnode⟩ := (hlive id).1 hid
        exact index_lt_of_node? hnode
      · obtain ⟨next, hslot⟩ := h.chain.vacant_of_mem hid
        exact (Array.getElem?_eq_some_iff.1 hslot).1
    · intro hi
      refine ⟨⟨i⟩, ?_, rfl⟩
      cases hslot : pool.slots[i] with
      | occupied node =>
          exact Or.inl ((hlive ⟨i⟩).2 ⟨node, node?_eq_some_iff.2 (by simp [hi, hslot])⟩)
      | vacant next => exact Or.inr (h.complete ⟨i⟩ next (by simp [hi, hslot]))
  have hlength := hperm.length_eq
  simpa using hlength

end Pool

end IndexedSkipList
