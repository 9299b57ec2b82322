/-
**Putting a node into the lanes.**

On every level the link that leaves the stop of the search is the only old link that changes.  Where
the new node stands, it now leads there, and the node takes over the rest of what it covered; on the
levels above it passes over one place more.  In terms of the row these are one and the same rule:
the link is adapted to a row in which one more column lies ahead.

A level that comes into use has no column yet, so its link leads nowhere and covers the whole row;
this is the span that the head is given before.

Main results:

* `Lanes.spliceAt_relinks`, `Lanes.widenAt_relinks` — what is done on one lane;
* `Lanes.Represents.raise` — levels may come into use;
* `Lanes.Represents.insert_links` — **which links a new node changes**;
* `Lanes.Represents.insert` — **the lanes then represent the row with the new column**.
-/

import IndexedSkipList.Proofs.Lanes.Represents

set_option relaxedAutoImplicit false
set_option autoImplicit false

namespace IndexedSkipList

variable {K V : Type}

namespace Lanes

/-! ### One lane -/

/-- The link of the stop is cut in two at the new node. -/
theorem spliceAt_relinks {lanes : Lanes K V} {id : NodeId} {before level : Nat} (stop : Stop)
    {l own : Link} (hlink : lanes.link? stop.place level = some l)
    (hown : lanes.link? (.node id) level = some own) (hne : stop.place ≠ .node id)
    (hrank : stop.rank ≤ before) (hspan : before - stop.rank ≤ l.span)
    (hbound : before + 1 < Counter.bound) :
    ∃ after, spliceAt id before level stop lanes = .ok after ∧
      Relinks level
        (Function.update
          (Function.update (lanes.link? · level) stop.place
            (some { next := some id, span := before - stop.rank + 1 }))
          (.node id) (some { next := l.next, span := l.span - (before - stop.rank) }))
        lanes after := by
  obtain ⟨mid, hmid, hrelinks⟩ :=
    setLink_relinks hlink { next := some id, span := before - stop.rank + 1 }
  have hown' : mid.link? (.node id) level = some own := by
    rw [hrelinks.link?_eq, Function.update_of_ne hne.symm, hown]
  obtain ⟨after, hafter, hrelinks'⟩ :=
    setLink_relinks hown' { next := l.next, span := l.span - (before - stop.rank) }
  have hmidlinks : (mid.link? · level) = Function.update (lanes.link? · level) stop.place
      (some { next := some id, span := before - stop.rank + 1 }) := funext hrelinks.link?_eq
  rw [hmidlinks] at hrelinks'
  refine ⟨after, ?_, hrelinks.trans hrelinks'⟩
  have hsub := Counter.sub_eq_ok hrank
  have hrest := Counter.sub_eq_ok hspan
  have hreach : Counter.add (before - stop.rank) 1 = .ok (before - stop.rank + 1) :=
    Counter.add_eq_ok (by omega)
  simp only [spliceAt, hsub, link_eq_ok_iff.2 hlink, hrest, hreach, hmid, hafter, Fault.ok_bind]

/-- The link of the stop covers one place more. -/
theorem widenAt_relinks {lanes : Lanes K V} {level : Nat} (stop : Stop) {l : Link}
    (hlink : lanes.link? stop.place level = some l) (hbound : l.span + 1 < Counter.bound) :
    ∃ after, widenAt level stop lanes = .ok after ∧
      Relinks level
        (Function.update (lanes.link? · level) stop.place
          (some { next := l.next, span := l.span + 1 }))
        lanes after := by
  obtain ⟨after, hafter, hrelinks⟩ := setLink_relinks hlink { l with span := l.span + 1 }
  refine ⟨after, ?_, hrelinks⟩
  simp only [widenAt, link_eq_ok_iff.2 hlink, Counter.add_eq_ok hbound, hafter, Fault.ok_bind]

/-! ### All lanes -/

section Path

variable {lanes : Lanes K V} {height : Nat} {behind ahead : List (Site K V)} {site : Site K V}

/-- The links of a level after the new node was put in there: the link of the stop leads to it, and
its own link takes over. -/
def splicedLinks (lanes : Lanes K V) (behind ahead : List (Site K V)) (site : Site K V)
    (level : Nat) : Place → Option Link :=
  Function.update
    (Function.update (lanes.link? · level) (placeAfter (front level behind))
      (some (reach level (between level behind ++ site :: ahead))))
    (.node site.id) (some (reach level ahead))

/-- The links of a level that the new node does not reach: the link of the stop passes over it. -/
def widenedLinks (lanes : Lanes K V) (behind ahead : List (Site K V)) (site : Site K V)
    (level : Nat) : Place → Option Link :=
  Function.update (lanes.link? · level) (placeAfter (front level behind))
    (some (reach level (between level behind ++ site :: ahead)))

theorem length_eq_front_add_between (level : Nat) (behind : List (Site K V)) :
    behind.length = (front level behind).length + (between level behind).length := by
  conv_lhs => rw [← front_append_between level behind]
  rw [List.length_append]

/-- The new node is put into one lane.  Lanes below may have been changed before, this one not. -/
theorem spliceAt_stop {before : Lanes K V} {level : Nat} (hlevel : level < site.height)
    (hbefore : ∀ place, before.link? place level = lanes.link? place level)
    (hfits : behind.length + ahead.length + 1 < Counter.bound)
    (hstop : placeAfter (front level behind) ≠ .node site.id)
    (hlink : lanes.link? (placeAfter (front level behind)) level =
      some (reach level (between level behind ++ ahead)))
    (hown : ∃ own, lanes.link? (.node site.id) level = some own) :
    ∃ after, spliceAt site.id behind.length level (stopAfter (front level behind)) before =
        .ok after ∧
      Relinks level (splicedLinks lanes behind ahead site level) before after := by
  have hshort : ∀ other ∈ between level behind, other.height ≤ level :=
    fun other hother => height_le_of_mem_between hother
  have htotal := length_eq_front_add_between level behind
  obtain ⟨own, hown⟩ := hown
  rw [reach_append_of_short hshort] at hlink
  obtain ⟨after, hafter, hrelinks⟩ :=
    spliceAt_relinks (stopAfter (front level behind)) ((hbefore _).trans hlink)
      ((hbefore _).trans hown) hstop
      (show (front level behind).length ≤ behind.length by omega)
      (by simp only [stopAfter_rank]; omega) (by omega)
  refine ⟨after, hafter, ?_⟩
  have hskipped :
      behind.length - (front level behind).length = (between level behind).length := by
    omega
  have hlinks : splicedLinks lanes behind ahead site level =
      Function.update
        (Function.update (before.link? · level) (placeAfter (front level behind))
          (some { next := some site.id, span := (between level behind).length + 1 }))
        (.node site.id) (some (reach level ahead)) := by
    unfold splicedLinks
    rw [reach_append_of_short hshort, reach_cons_of_tall hlevel, funext hbefore]
  simp only [stopAfter_rank, stopAfter_place, hskipped, Nat.add_sub_cancel_left] at hrelinks
  rw [hlinks]
  exact hrelinks

/-- **The new node is put into the lanes that it reaches.** -/
theorem onPath_spliceAt (htall : site.height ≤ height)
    (hfits : behind.length + ahead.length + 1 < Counter.bound)
    (hstop : ∀ level, placeAfter (front level behind) ≠ .node site.id)
    (hlink : ∀ level, level < site.height →
      lanes.link? (placeAfter (front level behind)) level =
        some (reach level (between level behind ++ ahead)))
    (hown : ∀ level, level < site.height →
      ∃ own, lanes.link? (.node site.id) level = some own) :
    ∃ after,
      onPath (spliceAt site.id behind.length) 0 ((stopsAt height behind).take site.height) lanes =
        .ok after ∧
      after.outline = lanes.outline ∧
      (∀ level, level < site.height →
        ∀ place, after.link? place level = splicedLinks lanes behind ahead site level place) ∧
      (∀ level, site.height ≤ level →
        ∀ place, after.link? place level = lanes.link? place level) := by
  have hchange : ∀ level, 0 ≤ level → level < 0 + site.height → ∀ before : Lanes K V,
      (∀ place, before.link? place level = lanes.link? place level) →
        ∃ after, spliceAt site.id behind.length level (stopAfter (front level behind)) before =
            .ok after ∧
          Relinks level (splicedLinks lanes behind ahead site level) before after := by
    intro level _ hlevel before hbefore
    rw [Nat.zero_add] at hlevel
    exact spliceAt_stop hlevel hbefore hfits (hstop level) (hlink level hlevel) (hown level hlevel)
  obtain ⟨after, hafter, houtline, hin, hout⟩ := onPath_relinks hchange
  refine ⟨after, ?_, houtline, fun level hlevel => hin level (by omega) (by omega),
    fun level hlevel => hout level (by omega)⟩
  rw [stopsAt_take htall]
  exact hafter

/-- One lane passes over the new node. -/
theorem widenAt_stop {before : Lanes K V} {level : Nat} (hlevel : site.height ≤ level)
    (hbefore : ∀ place, before.link? place level = lanes.link? place level)
    (hfits : behind.length + ahead.length + 1 < Counter.bound)
    (hlink : lanes.link? (placeAfter (front level behind)) level =
      some (reach level (between level behind ++ ahead))) :
    ∃ after, widenAt level (stopAfter (front level behind)) before = .ok after ∧
      Relinks level (widenedLinks lanes behind ahead site level) before after := by
  have hshort : ∀ other ∈ between level behind, other.height ≤ level :=
    fun other hother => height_le_of_mem_between hother
  have htotal := length_eq_front_add_between level behind
  have hspan := reach_span_le level ahead
  rw [reach_append_of_short hshort] at hlink
  obtain ⟨after, hafter, hrelinks⟩ :=
    widenAt_relinks (stopAfter (front level behind)) ((hbefore _).trans hlink)
      (by simp only; omega)
  refine ⟨after, hafter, ?_⟩
  have hpassed : reach level (between level behind ++ site :: ahead) =
      { next := (reach level ahead).next
        span := (between level behind).length + (reach level ahead).span + 1 } := by
    rw [reach_append_of_short hshort]
    simp [reach, Nat.not_lt.2 hlevel, Nat.add_assoc]
  unfold widenedLinks
  rw [hpassed, ← funext hbefore]
  exact hrelinks

/-- **The lanes that the new node does not reach pass over it.** -/
theorem onPath_widenAt (hfits : behind.length + ahead.length + 1 < Counter.bound)
    (hlink : ∀ level, site.height ≤ level → level < height →
      lanes.link? (placeAfter (front level behind)) level =
        some (reach level (between level behind ++ ahead))) :
    ∃ after,
      onPath widenAt site.height ((stopsAt height behind).drop site.height) lanes = .ok after ∧
      after.outline = lanes.outline ∧
      (∀ level, site.height ≤ level → level < height →
        ∀ place, after.link? place level = widenedLinks lanes behind ahead site level place) ∧
      (∀ level, ¬ (site.height ≤ level ∧ level < height) →
        ∀ place, after.link? place level = lanes.link? place level) := by
  have hchange : ∀ level, site.height ≤ level → level < site.height + (height - site.height) →
      ∀ before : Lanes K V, (∀ place, before.link? place level = lanes.link? place level) →
        ∃ after, widenAt level (stopAfter (front level behind)) before = .ok after ∧
          Relinks level (widenedLinks lanes behind ahead site level) before after := by
    intro level hlow hhigh before hbefore
    exact widenAt_stop hlow hbefore hfits (hlink level hlow (by omega))
  obtain ⟨after, hafter, houtline, hin, hout⟩ := onPath_relinks hchange
  refine ⟨after, ?_, houtline, fun level h₁ h₂ => hin level h₁ (by omega),
    fun level hlevel => hout level (by omega)⟩
  rw [stopsAt_drop]
  exact hafter

end Path

namespace Represents

variable {lanes : Lanes K V} {height : Nat} {vacant : List NodeId}

/-! ### Levels that come into use -/

/-- **Levels may come into use**, as many as the head has links for; above them nothing changes. -/
theorem raise {sites : List (Site K V)} (h : lanes.Represents height sites vacant) (added : Nat)
    (hsize : height + added ≤ lanes.head.size) :
    ∃ after, lanes.raise sites.length height added = .ok after ∧
      after.Represents (height + added) sites vacant ∧
      SameAbove (height + added) lanes after := by
  obtain ⟨after, hafter, houtline, hin, hout, hnodes⟩ :=
    raise_relinks sites.length hsize
  have hheadsize := head_size_of_outline_eq houtline
  refine ⟨after, hafter, ?_, hheadsize, fun level hlevel => hout level (by omega)⟩
  exact
    { houses := h.houses.of_outline_eq (congrArg Lanes.pool houtline)
      bounds := fun site hsite => by
        have := h.bounds site hsite
        omega
      height_le := by omega
      links := fun behind ahead hsites level hlevel => by
        -- only the head has links on the levels that come into use
        rcases List.eq_nil_or_concat' behind with rfl | ⟨before, site, rfl⟩
        · rw [placeAfter_nil]
          rw [levelsAfter_nil] at hlevel
          obtain rfl : sites = ahead := hsites
          by_cases hold : level < height
          · rw [hout level (by omega)]
            exact h.links [] sites rfl level hold
          · obtain ⟨span, hlink⟩ := h.above level (by omega) (by omega)
            have hreach : reach level sites = { next := none, span := sites.length } := by
              have := reach_append_of_short
                (fun site hsite => ((h.bounds site hsite).2.trans (by omega : height ≤ level))) []
              simpa using this
            rw [hin level (by omega) hlevel, hlink, hreach]
            rfl
        · rw [levelsAfter_concat] at hlevel
          rw [placeAfter_concat, hnodes, ← placeAfter_concat before]
          exact h.links _ ahead hsites level (by rwa [levelsAfter_concat])
      above := fun level hlevel hlevel' => by
        rw [hout level (by omega)]
        exact h.above level (by omega) (by omega) }

/-! ### The new node -/

/-- **Which links a new node changes**: its own ones, and on each level the one that leaves the stop
of the search. -/
theorem insert_links {behind ahead : List (Site K V)}
    (h : lanes.Represents height (behind ++ ahead) vacant)
    (hfits : (behind ++ ahead).length + 1 < Counter.bound)
    (hroom : vacant = [] → lanes.pool.slots.size < Pool.capacity) {site : Site K V}
    (hid : site.id = lanes.pool.freshId vacant) (htall : site.height ≤ height) :
    ∃ pool after, pool.Houses (behind ++ site :: ahead) vacant.tail ∧
      lanes.insert site.key site.value site.height (stopsAt height behind) = .ok after ∧
      after.outline = outline { lanes with pool } ∧
      (∀ level, level < height → after.link? (placeAfter (front level behind)) level =
        some (reach level (between level behind ++ site :: ahead))) ∧
      (∀ level, level < site.height →
        after.link? (.node site.id) level = some (reach level ahead)) ∧
      (∀ place level, place ≠ .node site.id →
        (level < height → place ≠ placeAfter (front level behind)) →
          after.link? place level = lanes.link? place level) := by
  obtain ⟨pool, hallocate, hhouses, hnodes⟩ := h.houses.allocate hroom hid
  have hnew : site.id ∉ (behind ++ ahead).map (·.id) :=
    h.houses.not_mem_ids (hid ▸ h.houses.threaded.node?_freshId)
  have hstop : ∀ level, placeAfter (front level behind) ≠ .node site.id :=
    placeAfter_front_ne_node fun hmem => hnew (by simp [List.mem_map.1 hmem])
  -- the new node has its slot, but no link leads to it and its own links are blank
  have hown : ∀ level, level < site.height →
      ∃ own, link? { lanes with pool } (.node site.id) level = some own := by
    intro level hlevel
    exact ⟨{}, by simp [link?, tower?, hnodes, Site.outline, Tower.blank, hlevel]⟩
  have hlink : ∀ level, level < height →
      link? { lanes with pool } (placeAfter (front level behind)) level =
        some (reach level (between level behind ++ ahead)) := by
    intro level hlevel
    rw [link?_of_update hnodes (hstop level)]
    exact h.link?_stop hlevel
  have htotal : behind.length + ahead.length + 1 < Counter.bound := by
    rwa [List.length_append] at hfits
  obtain ⟨mid, hmid, hmidoutline, hspliced, hmidabove⟩ :=
    onPath_spliceAt htall htotal hstop (fun level hlevel => hlink level (by omega)) hown
  obtain ⟨after, hafter, hafteroutline, hwidened, hafterbelow⟩ :=
    onPath_widenAt htotal fun level (h₁ : site.height ≤ level) h₂ =>
      (hmidabove level h₁ _).trans (hlink level h₂)
  refine ⟨pool, after, hhouses, ?_, hafteroutline.trans hmidoutline, ?_, ?_, ?_⟩
  · have hbase : base (stopsAt height behind) = stopAfter behind :=
      base_stopsAt fun other hother => h.bounds other (by simp [hother])
    simp only [Lanes.insert, hallocate, Fault.ok_bind, hbase, stopAfter_rank, hmid]
    exact hafter
  · intro level hlevel
    by_cases hlow : level < site.height
    · rw [hafterbelow level (by omega), hspliced level hlow, splicedLinks,
        Function.update_of_ne (hstop level), Function.update_self]
    · rw [hwidened level (by omega) hlevel, widenedLinks, Function.update_self]
  · intro level hlevel
    rw [hafterbelow level (by omega), hspliced level hlevel, splicedLinks, Function.update_self]
  · intro place level hplace hplace'
    by_cases hlow : level < site.height
    · rw [hafterbelow level (by omega), hspliced level hlow, splicedLinks,
        Function.update_of_ne hplace, Function.update_of_ne (hplace' (by omega)),
        link?_of_update hnodes hplace]
    · have hmidplace :=
        (hmidabove level (by omega) place).trans (link?_of_update hnodes hplace level)
      by_cases hhigh : level < height
      · rw [hwidened level (by omega) hhigh, widenedLinks, Function.update_of_ne (hplace' hhigh),
          hmidplace]
      · rw [hafterbelow level (by omega), hmidplace]

/-- **After a node was put in, the lanes represent the row with its column**, and above the levels
in use the head is the same. -/
theorem insert {behind ahead : List (Site K V)}
    (h : lanes.Represents height (behind ++ ahead) vacant)
    (hfits : (behind ++ ahead).length + 1 < Counter.bound)
    (hroom : vacant = [] → lanes.pool.slots.size < Pool.capacity) {site : Site K V}
    (hid : site.id = lanes.pool.freshId vacant) (hlow : 1 ≤ site.height)
    (htall : site.height ≤ height) :
    ∃ after, lanes.insert site.key site.value site.height (stopsAt height behind) = .ok after ∧
      after.Represents height (behind ++ site :: ahead) vacant.tail ∧
      SameAbove height lanes after := by
  obtain ⟨pool, after, hhouses, hafter, houtline, hstop, hown, hother⟩ :=
    h.insert_links hfits hroom hid htall
  have hheadsize : after.head.size = lanes.head.size :=
    head_size_of_outline_eq (b := { lanes with pool }) houtline
  have hafterhouses : after.pool.Houses (behind ++ site :: ahead) vacant.tail :=
    hhouses.of_outline_eq (congrArg Lanes.pool houtline)
  have hids := (ids_middle_perm behind ahead site).nodup_iff.1 hafterhouses.nodup
  have hnew := (List.nodup_cons.1 hids).1
  rw [List.map_append, List.mem_append, not_or] at hnew
  have hbehind := h.link?_behind hnew.1 hstop hother
  refine ⟨after, hafter, ?_, hheadsize,
    fun level hlevel => hother .head level (by simp) (by omega)⟩
  exact
    { houses := hafterhouses
      bounds := fun other hother => by
        rcases List.mem_cons.1 (List.perm_middle.mem_iff.1 hother) with rfl | hother
        · exact ⟨hlow, htall⟩
        · exact h.bounds other hother
      height_le := hheadsize ▸ h.height_le
      links := fun before rest hsites level hlevel => by
        -- a place of the new row is behind the new node, or it is this node, or it is ahead of it
        rcases List.append_eq_append_iff.1 hsites with ⟨mid, rfl, hmid⟩ | ⟨mid, rfl, rfl⟩
        · cases mid with
          | nil =>
              obtain rfl : site :: ahead = rest := hmid
              rw [List.append_nil] at hlevel ⊢
              exact hbehind behind [] (by simp) level hlevel
          | cons first mid =>
              obtain ⟨rfl, rfl⟩ : site = first ∧ ahead = mid ++ rest := by simpa using hmid
              rcases List.eq_nil_or_concat' mid with rfl | ⟨mid, other, rfl⟩
              · rw [levelsAfter_concat] at hlevel
                rw [placeAfter_concat]
                exact hown level hlevel
              · have hbefore : behind ++ site :: (mid ++ [other]) =
                    (behind ++ site :: mid) ++ [other] := by simp
                rw [hbefore, levelsAfter_concat] at hlevel
                rw [hbefore, placeAfter_concat]
                -- the nodes ahead of the new one: nothing changes
                refine h.link?_ahead hother (show _ = mid ++ other :: rest by simp) ?_ hlevel
                exact fun he => hnew.2 (by simp [← he])
        · exact hbehind before mid rfl level hlevel
      above := fun level hlevel hlevel' => by
        rw [hother .head level (by simp) (by omega)]
        exact h.above level hlevel (by omega) }

end Represents

end Lanes

end IndexedSkipList
