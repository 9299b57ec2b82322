/-
**Pools that house the columns of a row.**

A pool houses a row of sites if its nodes are exactly those of the sites, each with the entry and
the height of its column, and its free list is intact.  Where the links of the nodes lead does not
matter here; so housing a row is a property of the outline of the pool, and survives whatever is
done to the links.

Main definitions:

* `Pool.Houses` — the pool houses a row of sites.

Main results:

* `Pool.Houses.allocate`, `Pool.Houses.release`, `Pool.Houses.set` — a column more, a column less,
  and another column under the same id;
* `Pool.Houses.length_add_length` — sites and vacant slots together are all slots.
-/

import IndexedSkipList.Proofs.Lanes.Columns
import IndexedSkipList.Proofs.Lanes.Links

set_option relaxedAutoImplicit false
set_option autoImplicit false

namespace IndexedSkipList

variable {K V : Type}

@[simp] theorem Site.outline_outline (site : Site K V) : site.outline.outline = site.outline := by
  simp [Site.outline, Node.outline, Tower.blank]

/-- One site put in front, the ids of a row are the same. -/
theorem ids_middle_perm (behind ahead : List (Site K V)) (site : Site K V) :
    ((behind ++ site :: ahead).map (·.id)).Perm (site.id :: (behind ++ ahead).map (·.id)) := by
  have hperm : (behind ++ site :: ahead).Perm (site :: (behind ++ ahead)) := List.perm_middle
  exact hperm.map (·.id)

namespace Pool

/-- **The nodes of the pool are those of `sites`**, and the slots without a node are `vacant`. -/
structure Houses (pool : Pool K V) (sites : List (Site K V)) (vacant : List NodeId) : Prop where
  /-- The node of each site has its entry and its height. -/
  standing : ∀ site ∈ sites, (pool.node? site.id).map Node.outline = some site.outline
  /-- There are no other nodes. -/
  live : ∀ id node, pool.node? id = some node → id ∈ sites.map (·.id)
  nodup : (sites.map (·.id)).Nodup
  /-- The free list is intact. -/
  threaded : pool.Threaded vacant

theorem houses_empty : Houses ({} : Pool K V) [] [] where
  standing := by simp
  live := by simp [node?]
  nodup := List.nodup_nil
  threaded := threaded_empty

namespace Houses

variable {pool : Pool K V} {sites : List (Site K V)} {vacant : List NodeId}

/-- Under the id of a site lives a node with its entry and its height. -/
theorem exists_node (h : pool.Houses sites vacant) {site : Site K V} (hsite : site ∈ sites) :
    ∃ node, pool.node? site.id = some node ∧ node.key = site.key ∧ node.value = site.value ∧
      node.tower.size = site.height := by
  obtain ⟨node, hnode, houtline⟩ := Option.map_eq_some_iff.1 (h.standing site hsite)
  simp only [Node.outline, Site.outline, Node.mk.injEq] at houtline
  obtain ⟨hkey, hvalue, htower⟩ := houtline
  refine ⟨node, hnode, hkey, hvalue, ?_⟩
  simpa [Tower.blank] using congrArg Array.size htower

theorem mem_ids_iff (h : pool.Houses sites vacant) (id : NodeId) :
    id ∈ sites.map (·.id) ↔ ∃ node, pool.node? id = some node := by
  constructor
  · intro hid
    obtain ⟨site, hsite, rfl⟩ := List.mem_map.1 hid
    obtain ⟨node, hnode, _⟩ := h.exists_node hsite
    exact ⟨node, hnode⟩
  · rintro ⟨node, hnode⟩
    exact h.live id node hnode

theorem not_mem_ids (h : pool.Houses sites vacant) {id : NodeId} (hid : pool.node? id = none) :
    id ∉ sites.map (·.id) := by
  intro hmem
  obtain ⟨node, hnode⟩ := (h.mem_ids_iff id).1 hmem
  rw [hid] at hnode
  cases hnode

/-- **Sites and vacant slots together are all slots.** -/
theorem length_add_length (h : pool.Houses sites vacant) :
    sites.length + vacant.length = pool.slots.size := by
  simpa using h.threaded.length_add_length h.nodup h.mem_ids_iff

/-- What is done to the links does not matter. -/
theorem of_outline_eq {pool' : Pool K V} (h : pool.Houses sites vacant)
    (houtline : pool'.outline = pool.outline) : pool'.Houses sites vacant where
  standing site hsite := by
    rw [← node?_outline, houtline, node?_outline, h.standing site hsite]
  live id node hnode := by
    have hold : (pool.node? id).map Node.outline = some node.outline := by
      rw [← node?_outline, ← houtline, node?_outline, hnode]
      rfl
    obtain ⟨old, hold, _⟩ := Option.map_eq_some_iff.1 hold
    exact h.live id old hold
  nodup := h.nodup
  threaded := by
    rw [← threaded_outline_iff, houtline, threaded_outline_iff]
    exact h.threaded

/-- **A column more**, under the id that is handed out next. -/
theorem allocate {behind ahead : List (Site K V)} (h : pool.Houses (behind ++ ahead) vacant)
    (hroom : vacant = [] → pool.slots.size < capacity) {site : Site K V}
    (hid : site.id = pool.freshId vacant) :
    ∃ pool', pool.allocate site.key site.value site.height = .ok (site.id, pool') ∧
      pool'.Houses (behind ++ site :: ahead) vacant.tail ∧
      pool'.node? = Function.update pool.node? site.id (some site.outline) := by
  obtain ⟨pool', hallocate, hthreaded, hnodes⟩ :=
    h.threaded.allocate hroom site.key site.value site.height
  rw [← hid] at hallocate hnodes
  change pool'.node? = Function.update pool.node? site.id (some site.outline) at hnodes
  have hnew : site.id ∉ (behind ++ ahead).map (·.id) :=
    h.not_mem_ids (hid ▸ h.threaded.node?_freshId)
  refine ⟨pool', hallocate, ⟨?_, ?_, ?_, hthreaded⟩, hnodes⟩
  · intro other hother
    rw [hnodes]
    by_cases hsame : other = site
    · rw [hsame, Function.update_self, Option.map_some, site.outline_outline]
    · have hmem : other ∈ behind ++ ahead := by
        simp only [List.mem_append, List.mem_cons] at hother ⊢
        tauto
      have hne : other.id ≠ site.id := fun he => hnew (he ▸ List.mem_map.2 ⟨other, hmem, rfl⟩)
      rw [Function.update_of_ne hne]
      exact h.standing other hmem
  · intro id node hnode
    rw [hnodes] at hnode
    by_cases hsame : id = site.id
    · simp [hsame]
    · rw [Function.update_of_ne hsame] at hnode
      have hmem := h.live id node hnode
      simp only [List.map_append, List.map_cons, List.mem_append, List.mem_cons] at hmem ⊢
      tauto
  · exact (ids_middle_perm behind ahead site).nodup_iff.2 (List.nodup_cons.2 ⟨hnew, h.nodup⟩)

/-- **Another column under the same id.** -/
theorem set {behind ahead : List (Site K V)} {site : Site K V}
    (h : pool.Houses (behind ++ site :: ahead) vacant) (site' : Site K V) (hid : site'.id = site.id)
    {node : Node K V} (hnode : node.outline = site'.outline) :
    ∃ pool', pool.set site.id node = .ok pool' ∧
      pool'.Houses (behind ++ site' :: ahead) vacant ∧
      pool'.node? = Function.update pool.node? site.id (some node) := by
  obtain ⟨old, hold, _⟩ := h.exists_node List.mem_append_cons_self
  obtain ⟨pool', hset, hthreaded, hnodes⟩ := h.threaded.set hold node
  have hids : (behind ++ site' :: ahead).map (·.id) = (behind ++ site :: ahead).map (·.id) := by
    simp [hid]
  have hperm := ids_middle_perm behind ahead site
  have hnew := (List.nodup_cons.1 (hperm.nodup_iff.1 h.nodup)).1
  refine ⟨pool', hset, ⟨?_, ?_, hids ▸ h.nodup, hthreaded⟩, hnodes⟩
  · intro other hother
    rw [hnodes]
    by_cases hsame : other = site'
    · rw [hsame, hid, Function.update_self, Option.map_some, hnode]
    · have hmem : other ∈ behind ++ ahead := by
        simp only [List.mem_append, List.mem_cons] at hother ⊢
        tauto
      have hne : other.id ≠ site.id := fun he => hnew (he ▸ List.mem_map.2 ⟨other, hmem, rfl⟩)
      rw [Function.update_of_ne hne]
      refine h.standing other ?_
      simp only [List.mem_append, List.mem_cons] at hmem ⊢
      tauto
  · intro id other hother
    rw [hids]
    rw [hnodes] at hother
    by_cases hsame : id = site.id
    · simp [hsame]
    · rw [Function.update_of_ne hsame] at hother
      exact h.live id other hother

/-- **A column less**, whose id is the next to be handed out. -/
theorem release {behind ahead : List (Site K V)} {site : Site K V}
    (h : pool.Houses (behind ++ site :: ahead) vacant) :
    ∃ node pool', pool.release site.id = .ok (node, pool') ∧ node.key = site.key ∧
      node.value = site.value ∧ pool'.Houses (behind ++ ahead) (site.id :: vacant) ∧
      pool'.node? = Function.update pool.node? site.id none := by
  obtain ⟨node, hnode, hkey, hvalue, _⟩ := h.exists_node List.mem_append_cons_self
  obtain ⟨pool', hrelease, hthreaded, hnodes⟩ := h.threaded.release hnode
  have hperm := ids_middle_perm behind ahead site
  obtain ⟨hnew, hnodup⟩ := List.nodup_cons.1 (hperm.nodup_iff.1 h.nodup)
  refine ⟨node, pool', hrelease, hkey, hvalue, ⟨?_, ?_, hnodup, hthreaded⟩, hnodes⟩
  · intro other hother
    have hne : other.id ≠ site.id := fun he => hnew (he ▸ List.mem_map.2 ⟨other, hother, rfl⟩)
    rw [hnodes, Function.update_of_ne hne]
    refine h.standing other ?_
    simp only [List.mem_append, List.mem_cons] at hother ⊢
    tauto
  · intro id other hother
    rw [hnodes] at hother
    by_cases hsame : id = site.id
    · rw [hsame, Function.update_self] at hother
      cases hother
    · rw [Function.update_of_ne hsame] at hother
      exact (List.mem_cons.1 (hperm.mem_iff.1 (h.live id other hother))).resolve_left hsame

end Houses

end Pool

end IndexedSkipList
