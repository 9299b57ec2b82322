/-
**Taking a node out of the lanes.**

On every level the link that leaves the stop of the search before the node is the only one that
changes.  Where it leads to the node, it takes over what the link of the node covered; on the levels
above it passed over the node and covers one place less.  In terms of the row the link is adapted to
a row in which one column less lies ahead.

The tower of the node has been taken from it before, so that on the way the node has no link that
could be looked at; no stop is the node itself, and no stop is asked for a level that it does not
stand on.

Main results:

* `Lanes.unlinkAt_relinks_next`, `Lanes.unlinkAt_relinks_over` — what is done on one lane;
* `Lanes.Represents.remove_links` — **which links change when a node is taken out**;
* `Lanes.Represents.remove` — **the lanes then represent the row without its column**;
* `Lanes.Represents.lower`, `Lanes.Represents.usedLevels_eq` — levels without a node go out of use.
-/

import IndexedSkipList.Proofs.Lanes.Represents

set_option relaxedAutoImplicit false
set_option autoImplicit false

namespace IndexedSkipList

variable {K V : Type}

namespace Lanes

/-! ### One lane -/

/-- The link of the stop takes over what the link of the node covered. -/
theorem unlinkAt_relinks_next {lanes : Lanes K V} {id : NodeId} {tower : Tower} {level : Nat}
    (stop : Stop) {l own : Link} (hlink : lanes.link? stop.place level = some l)
    (hnext : l.next = some id) (hown : tower[level]? = some own)
    (hspan : 1 ≤ l.span) (hbound : l.span + own.span < Counter.bound) :
    ∃ after, unlinkAt id tower level stop lanes = .ok after ∧
      Relinks level
        (Function.update (lanes.link? · level) stop.place
          (some { next := own.next, span := l.span + own.span - 1 }))
        lanes after := by
  obtain ⟨after, hafter, hrelinks⟩ :=
    setLink_relinks hlink { next := own.next, span := l.span + own.span - 1 }
  refine ⟨after, ?_, hrelinks⟩
  have hcovered : 1 ≤ l.span + own.span := by omega
  simp only [unlinkAt, link_eq_ok_iff.2 hlink, hnext, if_true, Tower.link_eq_ok_iff.2 hown,
    Counter.add_eq_ok hbound, Counter.sub_eq_ok hcovered, hafter, Fault.ok_bind]

/-- The link of the stop covers one place less. -/
theorem unlinkAt_relinks_over {lanes : Lanes K V} {id : NodeId} (tower : Tower) {level : Nat}
    (stop : Stop) {l : Link} (hlink : lanes.link? stop.place level = some l)
    (hnext : l.next ≠ some id) (hspan : 1 ≤ l.span) :
    ∃ after, unlinkAt id tower level stop lanes = .ok after ∧
      Relinks level
        (Function.update (lanes.link? · level) stop.place
          (some { next := l.next, span := l.span - 1 }))
        lanes after := by
  obtain ⟨after, hafter, hrelinks⟩ := setLink_relinks hlink { l with span := l.span - 1 }
  refine ⟨after, ?_, hrelinks⟩
  simp only [unlinkAt, link_eq_ok_iff.2 hlink, hnext, if_false, Counter.sub_eq_ok hspan, hafter,
    Fault.ok_bind]

/-! ### All lanes -/

/-- The links of a level after a node was taken out there. -/
def unlinkedLinks (lanes : Lanes K V) (behind ahead : List (Site K V)) (level : Nat) :
    Place → Option Link :=
  Function.update (lanes.link? · level) (placeAfter (front level behind))
    (some (reach level (between level behind ++ ahead)))

section Path

variable {lanes : Lanes K V} {height : Nat} {behind ahead : List (Site K V)} {site : Site K V}
  {tower : Tower}

/-- A node is taken out of one lane.  Lanes below may have been changed before, this one not. -/
theorem unlinkAt_stop {before : Lanes K V} {level : Nat}
    (hbefore : ∀ place, before.link? place level = lanes.link? place level)
    (hfits : behind.length + ahead.length + 1 < Counter.bound) (hid : site.id ∉ ahead.map (·.id))
    (hlink : lanes.link? (placeAfter (front level behind)) level =
      some (reach level (between level behind ++ site :: ahead)))
    (hown : level < site.height → tower[level]? = some (reach level ahead)) :
    ∃ after, unlinkAt site.id tower level (stopAfter (front level behind)) before = .ok after ∧
      Relinks level (unlinkedLinks lanes behind ahead level) before after := by
  have hshort : ∀ other ∈ between level behind, other.height ≤ level :=
    fun other hother => height_le_of_mem_between hother
  have htotal : (between level behind).length ≤ behind.length := by
    simp [between]
  have hspan := reach_span_le level ahead
  have hlink := (hbefore _).trans hlink
  unfold unlinkedLinks
  rw [← funext hbefore, reach_append_of_short hshort]
  -- the link of the stop leads to the node, or it passes over it
  by_cases htall : level < site.height
  · rw [reach_append_of_short hshort, reach_cons_of_tall htall] at hlink
    obtain ⟨after, hafter, hrelinks⟩ :=
      unlinkAt_relinks_next (stopAfter (front level behind)) hlink rfl (hown htall)
        (by simp) (by simp only; omega)
    refine ⟨after, hafter, ?_⟩
    have hsum : (between level behind).length + 1 + (reach level ahead).span - 1 =
        (between level behind).length + (reach level ahead).span := by omega
    simp only [hsum] at hrelinks
    exact hrelinks
  · have hover : reach level (site :: ahead) =
        { next := (reach level ahead).next, span := (reach level ahead).span + 1 } := by
      simp [reach, htall]
    rw [reach_append_of_short hshort, hover] at hlink
    have hnext : (reach level ahead).next ≠ some site.id := by
      intro hnext
      obtain ⟨other, hmem, hother, _⟩ := exists_of_reach_next hnext
      exact hid (List.mem_map.2 ⟨other, hmem, hother⟩)
    obtain ⟨after, hafter, hrelinks⟩ :=
      unlinkAt_relinks_over tower (stopAfter (front level behind)) hlink hnext
        (by simp only; omega)
    exact ⟨after, hafter, hrelinks⟩

/-- **A node is taken out of all lanes**, given the links that it had. -/
theorem onPath_unlinkAt (hfits : behind.length + ahead.length + 1 < Counter.bound)
    (hid : site.id ∉ ahead.map (·.id))
    (hlink : ∀ level, level < height →
      lanes.link? (placeAfter (front level behind)) level =
        some (reach level (between level behind ++ site :: ahead)))
    (hown : ∀ level, level < site.height → tower[level]? = some (reach level ahead)) :
    ∃ after, onPath (unlinkAt site.id tower) 0 (stopsAt height behind) lanes = .ok after ∧
      after.outline = lanes.outline ∧
      (∀ level, level < height →
        ∀ place, after.link? place level = unlinkedLinks lanes behind ahead level place) ∧
      (∀ level, height ≤ level → ∀ place, after.link? place level = lanes.link? place level) := by
  have hchange : ∀ level, 0 ≤ level → level < 0 + height → ∀ before : Lanes K V,
      (∀ place, before.link? place level = lanes.link? place level) →
        ∃ after, unlinkAt site.id tower level (stopAfter (front level behind)) before = .ok after ∧
          Relinks level (unlinkedLinks lanes behind ahead level) before after := by
    intro level _ hlevel before hbefore
    exact unlinkAt_stop hbefore hfits hid (hlink level (by omega)) (hown level)
  obtain ⟨after, hafter, houtline, hin, hout⟩ := onPath_relinks hchange
  refine ⟨after, ?_, houtline, fun level hlevel => hin level (by omega) (by omega),
    fun level hlevel => hout level (by omega)⟩
  rw [stopsAt, List.range_eq_range']
  exact hafter

end Path

namespace Represents

variable {lanes : Lanes K V} {height : Nat} {vacant : List NodeId}

/-! ### The node that goes -/

/-- The tower of a node, by the sites ahead of it. -/
theorem tower_getElem? {behind ahead : List (Site K V)} {site : Site K V}
    (h : lanes.Represents height (behind ++ site :: ahead) vacant) {node : Node K V}
    (hnode : lanes.pool.node? site.id = some node) {level : Nat} (hlevel : level < site.height) :
    node.tower[level]? = some (reach level ahead) := by
  have hlink := h.link?_node rfl hlevel
  simpa [link?, tower?, hnode] using hlink

/-- **Which links change when a node is taken out**: on each level the one that leaves the stop
before it. -/
theorem remove_links {behind ahead : List (Site K V)} {site : Site K V}
    (h : lanes.Represents height (behind ++ site :: ahead) vacant)
    (hfits : (behind ++ site :: ahead).length < Counter.bound) :
    ∃ node after, lanes.remove site.id (stopsAt height behind) = .ok (node, after) ∧
      node.key = site.key ∧ node.value = site.value ∧
      after.pool.Houses (behind ++ ahead) (site.id :: vacant) ∧
      after.head.size = lanes.head.size ∧
      (∀ level, level < height → after.link? (placeAfter (front level behind)) level =
        some (reach level (between level behind ++ ahead))) ∧
      (∀ place level, place ≠ .node site.id →
        (level < height → place ≠ placeAfter (front level behind)) →
          after.link? place level = lanes.link? place level) := by
  obtain ⟨node, hnode, hkey, hvalue, _⟩ := h.houses.exists_node List.mem_append_cons_self
  -- the node without its tower is a column of height zero
  have hemptied : Node.outline { node with tower := #[] } =
      Site.outline { site with height := 0 } := by
    simp [Node.outline, Site.outline, Tower.blank, hkey, hvalue]
  obtain ⟨pool, hset, hhouses, hnodes⟩ := h.houses.set { site with height := 0 } rfl hemptied
  have hnew := (List.nodup_cons.1
    ((ids_middle_perm behind ahead site).nodup_iff.1 h.houses.nodup)).1
  rw [List.map_append, List.mem_append, not_or] at hnew
  have hstop : ∀ level, placeAfter (front level behind) ≠ .node site.id :=
    placeAfter_front_ne_node hnew.1
  have htotal : behind.length + ahead.length + 1 < Counter.bound := by
    simp only [List.length_append, List.length_cons] at hfits
    omega
  obtain ⟨mid, hmid, hmidoutline, hunlinked, hmidabove⟩ :=
    onPath_unlinkAt htotal hnew.2
      (fun level hlevel => (link?_of_update hnodes (hstop level) level).trans (h.link?_stop hlevel))
      (fun level hlevel => h.tower_getElem? hnode hlevel)
  have hmidhouses := hhouses.of_outline_eq (congrArg Lanes.pool hmidoutline)
  obtain ⟨released, pool', hrelease, hkey', hvalue', hhouses', hnodes'⟩ := hmidhouses.release
  refine ⟨released, { mid with pool := pool' }, ?_, hkey', hvalue', hhouses',
    head_size_of_outline_eq (a := mid) (b := { lanes with pool }) hmidoutline, ?_, ?_⟩
  · simp only [Lanes.remove, Pool.get_eq_ok_iff.2 hnode, hset, hmid, Fault.ok_bind]
    exact congrArg (· >>= _) hrelease
  · intro level hlevel
    rw [link?_of_update hnodes' (hstop level), hunlinked level hlevel, unlinkedLinks,
      Function.update_self]
  · intro place level hplace hplace'
    rw [link?_of_update hnodes' hplace]
    by_cases hlevel : level < height
    · rw [hunlinked level hlevel, unlinkedLinks, Function.update_of_ne (hplace' hlevel),
        link?_of_update hnodes hplace]
    · rw [hmidabove level (by omega), link?_of_update hnodes hplace]

/-- **After a node was taken out, the lanes represent the row without its column**, and above the
levels in use the head is the same. -/
theorem remove {behind ahead : List (Site K V)} {site : Site K V}
    (h : lanes.Represents height (behind ++ site :: ahead) vacant)
    (hfits : (behind ++ site :: ahead).length < Counter.bound) :
    ∃ node after, lanes.remove site.id (stopsAt height behind) = .ok (node, after) ∧
      node.key = site.key ∧ node.value = site.value ∧
      after.Represents height (behind ++ ahead) (site.id :: vacant) ∧
      SameAbove height lanes after := by
  obtain ⟨node, after, hafter, hkey, hvalue, hhouses, hheadsize, hstop, hother⟩ :=
    h.remove_links hfits
  have hnew := (List.nodup_cons.1
    ((ids_middle_perm behind ahead site).nodup_iff.1 h.houses.nodup)).1
  rw [List.map_append, List.mem_append, not_or] at hnew
  have hbehind := h.link?_behind hnew.1 hstop hother
  refine ⟨node, after, hafter, hkey, hvalue, ?_, hheadsize,
    fun level hlevel => hother .head level (by simp) (by omega)⟩
  exact
    { houses := hhouses
      bounds := fun other hmem => by
        refine h.bounds other ?_
        simp only [List.mem_append, List.mem_cons] at hmem ⊢
        tauto
      height_le := hheadsize ▸ h.height_le
      links := fun before rest hsites level hlevel => by
        rcases List.append_eq_append_iff.1 hsites with ⟨mid, rfl, rfl⟩ | ⟨mid, rfl, rfl⟩
        · rcases List.eq_nil_or_concat' mid with rfl | ⟨mid, other, rfl⟩
          · rw [List.append_nil] at hlevel ⊢
            exact hbehind behind [] (by simp) level hlevel
          · -- the nodes ahead of the node: nothing changes
            have hbefore : behind ++ (mid ++ [other]) = (behind ++ mid) ++ [other] := by simp
            rw [hbefore, levelsAfter_concat] at hlevel
            rw [hbefore, placeAfter_concat]
            have hahead : site :: (mid ++ [other] ++ rest) = (site :: mid) ++ other :: rest := by
              simp
            exact h.link?_ahead hother hahead (fun he => hnew.2 (by simp [← he])) hlevel
        · exact hbehind before mid rfl level hlevel
      above := fun level hlevel hlevel' => by
        rw [hother .head level (by simp) (by omega)]
        exact h.above level hlevel (by omega) }

/-! ### Levels that go out of use -/

/-- **Levels without a column may go out of use.** -/
theorem lower {sites : List (Site K V)} (h : lanes.Represents height sites vacant) {height' : Nat}
    (hle : height' ≤ height) (hbounds : ∀ site ∈ sites, site.height ≤ height') :
    lanes.Represents height' sites vacant where
  houses := h.houses
  bounds site hsite := ⟨(h.bounds site hsite).1, hbounds site hsite⟩
  height_le := hle.trans h.height_le
  links behind ahead hsites level hlevel := by
    refine h.links behind ahead hsites level ?_
    rcases List.eq_nil_or_concat' behind with rfl | ⟨before, site, rfl⟩
    · rw [levelsAfter_nil] at hlevel ⊢
      omega
    · rwa [levelsAfter_concat] at hlevel ⊢
  above level hlevel hsize := by
    -- on a level that goes out of use the link of the head led nowhere before
    by_cases hlow : level < height
    · have hnext : (reach level sites).next = none :=
        reach_next_eq_none_iff.2 fun site hsite => (hbounds site hsite).trans hlevel
      refine ⟨(reach level sites).span, ?_⟩
      rw [← hnext]
      exact h.links [] sites rfl level hlow
    · exact h.above level (by omega) hsize

/-- **The levels that are left in use are as many as the tallest column has.** -/
theorem usedLevels_eq {sites : List (Site K V)} (h : lanes.Represents height sites vacant) :
    usedLevels lanes.head height = .ok (tallest (sites.map (·.height))) := by
  have hlinks : ∀ level, level < height → lanes.head[level]? = some (reach level sites) :=
    fun level hlevel => h.links [] sites rfl level hlevel
  have hbounds : ∀ site ∈ sites, site.height ≤ height := fun site hsite =>
    (h.bounds site hsite).2
  clear h
  -- induction on the levels that may be in use, the topmost first
  induction height with
  | zero =>
      have hzero : tallest (sites.map (·.height)) ≤ 0 := by
        rw [tallest_le_iff]
        simpa using hbounds
      simp [usedLevels, Nat.le_zero.1 hzero]
  | succ height ih =>
      have hlink := Tower.link_eq_ok_iff.2 (hlinks height (by omega))
      unfold usedLevels
      rw [hlink, Fault.ok_bind]
      by_cases hnext : (reach height sites).next = none
      · rw [hnext]
        exact ih (fun level hlevel => hlinks level (by omega)) (reach_next_eq_none_iff.1 hnext)
      · have htall : height < tallest (sites.map (·.height)) := by
          by_contra hlow
          exact hnext (reach_next_eq_none_iff.2 fun site hsite =>
            tallest_le_iff.1 (Nat.not_lt.1 hlow) _ (List.mem_map_of_mem hsite))
        have hle : tallest (sites.map (·.height)) ≤ height + 1 := by
          rw [tallest_le_iff]
          simpa using hbounds
        obtain ⟨id, hid⟩ := Option.ne_none_iff_exists'.1 hnext
        simp only [hid, Option.isNone_some, Bool.false_eq_true, if_false, Fault.pure_eq_ok]
        congr 1
        omega

end Represents

end Lanes

end IndexedSkipList
