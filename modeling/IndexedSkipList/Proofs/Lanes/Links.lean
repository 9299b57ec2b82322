/-
**Links, and what there is besides links.**

Putting a node into the lanes or taking it out rewrites links, one lane at a time, and leaves
everything else as it is.  To say so, the lanes are seen in two halves.  The *outline* of the lanes
is what is left when every link is wiped: which slots are vacant, which entry lives in each of the
others, and how tall each tower is.  The other half is `Lanes.link?`, the link that leaves a place
on a level, where there is one.

A change on one lane is described by `Lanes.Relinks`: the outline stays, the links on that level are
given, and the links on all other levels stay.

Main definitions:

* `Lanes.tower?`, `Lanes.link?` — the tower at a place, and the link that leaves it on a level;
* `Lanes.outline` — the lanes with all links wiped;
* `Lanes.Relinks` — a change of the links on one level;
* `Lanes.SameAbove` — the head is the same from a level on.

Main results:

* `Lanes.setLink_relinks` — a link can be written wherever there is one;
* `Lanes.onPath_relinks` — **changes on several lanes do not interfere**;
* `Lanes.raise_relinks` — the head gets new spans and nothing else changes.
-/

import IndexedSkipList.Lanes
import IndexedSkipList.Proofs.Pool.Occupancy

set_option relaxedAutoImplicit false
set_option autoImplicit false

namespace IndexedSkipList

variable {K V : Type}

/-! ### Reading links -/

namespace Tower

theorem link_eq_ok_iff {tower : Tower} {level : Nat} {l : Link} :
    link tower level = .ok l ↔ tower[level]? = some l := by
  unfold link
  split <;> simp_all

theorem setLink_of_lt {tower : Tower} {level : Nat} (h : level < tower.size) (l : Link) :
    setLink tower level l = .ok (tower.setIfInBounds level l) := by
  simp [setLink, h]

end Tower

namespace Lanes

/-- The tower at a place, if something stands there. -/
def tower? (lanes : Lanes K V) : Place → Option Tower
  | .head => some lanes.head
  | .node id => (lanes.pool.node? id).map (·.tower)

/-- The link that leaves a place on a level, if there is one. -/
def link? (lanes : Lanes K V) (place : Place) (level : Nat) : Option Link :=
  (lanes.tower? place).bind fun tower => tower[level]?

theorem link?_head (lanes : Lanes K V) (level : Nat) :
    lanes.link? .head level = lanes.head[level]? := rfl

theorem tower_eq_ok_iff {lanes : Lanes K V} {place : Place} {tower : Tower} :
    lanes.tower place = .ok tower ↔ lanes.tower? place = some tower := by
  cases place with
  | head => simp [Lanes.tower, tower?]
  | node id =>
      simp only [Lanes.tower, tower?]
      cases hnode : lanes.pool.node? id with
      | some node => simp [Pool.get_eq_ok_iff.2 hnode]
      | none =>
          cases hget : lanes.pool.get id with
          | ok node =>
              rw [Pool.get_eq_ok_iff.1 hget] at hnode
              cases hnode
          | error fault => simp

theorem link_eq_ok_iff {lanes : Lanes K V} {place : Place} {level : Nat} {l : Link} :
    lanes.link place level = .ok l ↔ lanes.link? place level = some l := by
  unfold Lanes.link link?
  cases htower : lanes.tower place with
  | ok tower =>
      rw [tower_eq_ok_iff.1 htower]
      exact Tower.link_eq_ok_iff
  | error fault =>
      have hnone : lanes.tower? place = none := by
        cases h : lanes.tower? place with
        | none => rfl
        | some tower =>
            rw [tower_eq_ok_iff.2 h] at htower
            cases htower
      rw [hnone]
      constructor
      · intro h
        cases h
      · intro h
        cases h

/-- What is done under one id does not touch the links of the other places. -/
theorem link?_of_update {lanes : Lanes K V} {pool : Pool K V} {id : NodeId}
    {node : Option (Node K V)} (hnodes : pool.node? = Function.update lanes.pool.node? id node)
    {place : Place} (hplace : place ≠ .node id) (level : Nat) :
    link? { lanes with pool } place level = lanes.link? place level := by
  cases place with
  | head => rfl
  | node other =>
      have hother : other ≠ id := by simpa using hplace
      simp only [link?, tower?, hnodes, Function.update_of_ne hother]

end Lanes

/-! ### The outline -/

/-- A node with its links wiped. -/
def Node.outline (node : Node K V) : Node K V :=
  { node with tower := Tower.blank node.tower.size }

/-- A slot with the links of its node wiped. -/
def Slot.outline : Slot K V → Slot K V
  | .occupied node => .occupied node.outline
  | .vacant next => .vacant next

/-- A pool with all links wiped. -/
def Pool.outline (pool : Pool K V) : Pool K V := { pool with slots := pool.slots.map Slot.outline }

/-- The lanes with all links wiped. -/
def Lanes.outline (lanes : Lanes K V) : Lanes K V where
  head := Tower.blank lanes.head.size
  pool := lanes.pool.outline

theorem Node.outline_setIfInBounds (node : Node K V) (level : Nat) (l : Link) :
    Node.outline { node with tower := node.tower.setIfInBounds level l } = node.outline := by
  simp [Node.outline]

namespace Pool

theorem node?_outline (pool : Pool K V) (id : NodeId) :
    pool.outline.node? id = (pool.node? id).map Node.outline := by
  simp only [node?, outline, Array.getElem?_map]
  cases pool.slots[id.index]? with
  | none => rfl
  | some slot => cases slot <;> rfl

theorem outline_slots_eq_vacant_iff {pool : Pool K V} {i : Nat} {next : Option NodeId} :
    pool.outline.slots[i]? = some (.vacant next) ↔ pool.slots[i]? = some (.vacant next) := by
  simp only [outline, Array.getElem?_map]
  cases pool.slots[i]? with
  | none => simp
  | some slot => cases slot <;> simp [Slot.outline]

theorem freeFrom_outline_iff {pool : Pool K V} {start : Option NodeId} {ids : List NodeId} :
    FreeFrom pool.outline.slots start ids ↔ FreeFrom pool.slots start ids := by
  constructor
  · intro h
    induction h with
    | last => exact .last
    | step hslot _ ih => exact .step (outline_slots_eq_vacant_iff.1 hslot) ih
  · intro h
    induction h with
    | last => exact .last
    | step hslot _ ih => exact .step (outline_slots_eq_vacant_iff.2 hslot) ih

theorem threaded_outline_iff {pool : Pool K V} {vacant : List NodeId} :
    pool.outline.Threaded vacant ↔ pool.Threaded vacant := by
  constructor
  · rintro ⟨hchain, hnodup, hcomplete⟩
    exact ⟨freeFrom_outline_iff.1 hchain, hnodup,
      fun id next h => hcomplete id next (outline_slots_eq_vacant_iff.2 h)⟩
  · rintro ⟨hchain, hnodup, hcomplete⟩
    exact ⟨freeFrom_outline_iff.2 hchain, hnodup,
      fun id next h => hcomplete id next (outline_slots_eq_vacant_iff.1 h)⟩

/-- Putting a node in the place of one with the same outline keeps the outline of the pool. -/
theorem outline_setIfInBounds {pool : Pool K V} {id : NodeId} {old node : Node K V}
    (hold : pool.node? id = some old) (hsame : node.outline = old.outline) :
    outline { pool with slots := pool.slots.setIfInBounds id.index (.occupied node) } =
      pool.outline := by
  have hslot := node?_eq_some_iff.1 hold
  have hslots : (pool.slots.setIfInBounds id.index (.occupied node)).map Slot.outline =
      pool.slots.map Slot.outline := by
    refine Array.ext_getElem? fun i => ?_
    rw [Array.getElem?_map, Array.getElem?_map, Array.getElem?_setIfInBounds]
    split
    · next hi =>
        subst hi
        rw [if_pos (index_lt_of_node? hold), hslot]
        simp [Slot.outline, hsame]
    · rfl
  simp only [outline, hslots]

end Pool

namespace Lanes

theorem head_size_of_outline_eq {a b : Lanes K V} (h : a.outline = b.outline) :
    a.head.size = b.head.size := by
  have hhead : (Tower.blank a.head.size).size = (Tower.blank b.head.size).size :=
    congrArg (fun lanes : Lanes K V => lanes.head.size) h
  simpa [Tower.blank] using hhead

/-- **The head is as tall as before**, and its links on the levels from `level` on are the same. -/
structure SameAbove (level : Nat) (before after : Lanes K V) : Prop where
  head_size : after.head.size = before.head.size
  link?_head : ∀ l, level ≤ l → after.link? .head l = before.link? .head l

theorem SameAbove.mono {level level' : Nat} {a b : Lanes K V} (h : SameAbove level a b)
    (hle : level ≤ level') : SameAbove level' a b where
  head_size := h.head_size
  link?_head l hl := h.link?_head l (hle.trans hl)

theorem SameAbove.trans {level : Nat} {a b c : Lanes K V} (h : SameAbove level a b)
    (h' : SameAbove level b c) : SameAbove level a c where
  head_size := h'.head_size.trans h.head_size
  link?_head l hl := (h'.link?_head l hl).trans (h.link?_head l hl)

/-! ### Changes on one lane -/

/-- `after` has the links `links` on `level`, and is otherwise as `before`. -/
structure Relinks (level : Nat) (links : Place → Option Link) (before after : Lanes K V) :
    Prop where
  outline_eq : after.outline = before.outline
  link?_eq : ∀ place, after.link? place level = links place
  link?_other : ∀ other, other ≠ level → ∀ place, after.link? place other = before.link? place other

theorem Relinks.trans {level : Nat} {links links' : Place → Option Link} {a b c : Lanes K V}
    (h : Relinks level links a b) (h' : Relinks level links' b c) : Relinks level links' a c where
  outline_eq := h'.outline_eq.trans h.outline_eq
  link?_eq := h'.link?_eq
  link?_other other hother place :=
    (h'.link?_other other hother place).trans (h.link?_other other hother place)

theorem setLink_head {lanes : Lanes K V} {level : Nat} (h : level < lanes.head.size) (l : Link) :
    lanes.setLink .head level l =
      .ok { lanes with head := lanes.head.setIfInBounds level l } := by
  simp [setLink, Tower.setLink_of_lt h]

theorem setLink_node {lanes : Lanes K V} {id : NodeId} {node : Node K V} {level : Nat}
    (hnode : lanes.pool.node? id = some node) (h : level < node.tower.size) (l : Link) :
    lanes.setLink (.node id) level l =
      .ok { lanes with
        pool := { lanes.pool with
          slots := lanes.pool.slots.setIfInBounds id.index
            (.occupied { node with tower := node.tower.setIfInBounds level l }) } } := by
  simp [setLink, Pool.get_eq_ok_iff.2 hnode, Tower.setLink_of_lt h, Pool.set_of_node? hnode]

/-- **A link can be written wherever there is one**, and only that link changes. -/
theorem setLink_relinks {lanes : Lanes K V} {place : Place} {level : Nat} {old : Link}
    (hold : lanes.link? place level = some old) (l : Link) :
    ∃ after, lanes.setLink place level l = .ok after ∧
      Relinks level (Function.update (lanes.link? · level) place (some l)) lanes after := by
  -- split by where is written, and then by where is read
  cases place with
  | head =>
      rw [link?_head] at hold
      obtain ⟨hlt, _⟩ := Array.getElem?_eq_some_iff.1 hold
      refine ⟨_, setLink_head hlt l, by simp [outline], ?_, ?_⟩
      · intro place
        cases place with
        | head => simp [link?_head, hlt]
        | node id => rfl
      · intro other hother place
        cases place with
        | head => simp [link?_head, hother.symm]
        | node id => rfl
  | node id =>
      obtain ⟨tower, htower, hlink⟩ := Option.bind_eq_some_iff.1 hold
      obtain ⟨node, hnode, rfl⟩ := Option.map_eq_some_iff.1 htower
      obtain ⟨hlt, _⟩ := Array.getElem?_eq_some_iff.1 hlink
      have hnodes := Pool.node?_setIfInBounds (Pool.index_lt_of_node? hnode)
        { node with tower := node.tower.setIfInBounds level l } lanes.pool.free
      refine ⟨_, setLink_node hnode hlt l, ?_, ?_, ?_⟩
      · simp only [outline]
        rw [Pool.outline_setIfInBounds hnode (Node.outline_setIfInBounds node level l)]
      · intro place
        cases place with
        | head => rfl
        | node other =>
            simp only [link?, tower?, hnodes]
            by_cases hother : other = id
            · subst hother
              simp [hlt]
            · have hne : Place.node other ≠ .node id := by simpa using hother
              rw [Function.update_of_ne hother, Function.update_of_ne hne]
      · intro level' hlevel place
        cases place with
        | head => rfl
        | node other =>
            simp only [link?, tower?, hnodes]
            by_cases hother : other = id
            · subst hother
              simp [hnode, hlevel.symm]
            · rw [Function.update_of_ne hother]

/-! ### Changes on several lanes -/

/-- **Changes on several lanes do not interfere.**  If the change on each of the levels can be made
whenever the links on that level are those of `lanes`, then the changes can be made one after the
other, and each level ends up with its own links. -/
theorem onPath_relinks {change : Nat → Stop → Lanes K V → Except Fault (Lanes K V)}
    {stops : Nat → Stop} {links : Nat → Place → Option Link} :
    ∀ {count level : Nat} {lanes : Lanes K V},
      (∀ l, level ≤ l → l < level + count → ∀ before : Lanes K V,
        (∀ place, before.link? place l = lanes.link? place l) →
          ∃ after, change l (stops l) before = .ok after ∧ Relinks l (links l) before after) →
      ∃ after, onPath change level ((List.range' level count).map stops) lanes = .ok after ∧
        after.outline = lanes.outline ∧
        (∀ l, level ≤ l → l < level + count → ∀ place, after.link? place l = links l place) ∧
        (∀ l, ¬ (level ≤ l ∧ l < level + count) →
          ∀ place, after.link? place l = lanes.link? place l) := by
  intro count
  -- induction on the levels that are left; whatever has been changed is on other levels
  induction count with
  | zero =>
      intro level lanes _
      exact ⟨lanes, rfl, rfl, fun l h₁ h₂ => by omega, fun _ _ _ => rfl⟩
  | succ count ih =>
      intro level lanes hchange
      obtain ⟨mid, hmid, hrelinks⟩ := hchange level le_rfl (by omega) lanes fun _ => rfl
      have hchange' : ∀ l, level + 1 ≤ l → l < level + 1 + count → ∀ before : Lanes K V,
          (∀ place, before.link? place l = mid.link? place l) →
            ∃ after, change l (stops l) before = .ok after ∧ Relinks l (links l) before after := by
        intro l h₁ h₂ before hbefore
        refine hchange l (by omega) (by omega) before fun place => ?_
        rw [hbefore, hrelinks.link?_other l (by omega)]
      obtain ⟨after, hafter, houtline, hin, hout⟩ := ih hchange'
      refine ⟨after, ?_, houtline.trans hrelinks.outline_eq, ?_, ?_⟩
      · simp [List.range'_succ, onPath, hmid, hafter]
      · intro l h₁ h₂ place
        by_cases hl : l = level
        · subst hl
          rw [hout l (by omega), hrelinks.link?_eq]
        · exact hin l (by omega) (by omega) place
      · intro l hl place
        rw [hout l (by omega), hrelinks.link?_other l (by omega)]

/-- **New spans for the head.**  Where the head has the links, their spans can be set; nothing else
changes. -/
theorem raise_relinks (span : Nat) :
    ∀ {count level : Nat} {lanes : Lanes K V}, level + count ≤ lanes.head.size →
      ∃ after, raise span level count lanes = .ok after ∧ after.outline = lanes.outline ∧
        (∀ l, level ≤ l → l < level + count →
          after.link? .head l = (lanes.link? .head l).map ({ · with span })) ∧
        (∀ l, ¬ (level ≤ l ∧ l < level + count) → after.link? .head l = lanes.link? .head l) ∧
        (∀ id l, after.link? (.node id) l = lanes.link? (.node id) l) := by
  intro count
  induction count with
  | zero =>
      intro level lanes _
      exact ⟨lanes, rfl, rfl, fun l h₁ h₂ => by omega, fun _ _ => rfl, fun _ _ => rfl⟩
  | succ count ih =>
      intro level lanes hsize
      obtain ⟨old, hold⟩ : ∃ old, lanes.head[level]? = some old :=
        ⟨_, Array.getElem?_eq_getElem (by omega)⟩
      have hlink : lanes.link? .head level = some old := hold
      obtain ⟨mid, hmid, hrelinks⟩ := setLink_relinks hlink { old with span }
      have hmidsize := head_size_of_outline_eq hrelinks.outline_eq
      obtain ⟨after, hafter, houtline, hin, hout, hnodes⟩ :=
        ih (show level + 1 + count ≤ mid.head.size by omega)
      refine ⟨after, ?_, houtline.trans hrelinks.outline_eq, ?_, ?_, ?_⟩
      · simp [raise, Tower.link_eq_ok_iff.2 hold, hmid, hafter]
      · intro l h₁ h₂
        by_cases hl : l = level
        · subst hl
          rw [hout l (by omega), hrelinks.link?_eq, link?_head lanes, hold]
          simp
        · rw [hin l (by omega) (by omega), hrelinks.link?_other l hl]
      · intro l hl
        rw [hout l (by omega), hrelinks.link?_other l (by omega)]
      · intro id l
        rw [hnodes]
        by_cases hl : l = level
        · subst hl
          rw [hrelinks.link?_eq, Function.update_of_ne (by simp)]
        · exact hrelinks.link?_other l hl _

end Lanes

end IndexedSkipList
