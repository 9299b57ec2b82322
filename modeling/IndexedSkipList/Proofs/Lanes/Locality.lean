/-
**A site more or less changes one link on each level.**

Two rows that differ in one site decide almost the same links.  On a level, only the link of the
place where a search for the site stops is another: if the site stands on the level, the link of
this place leads to it and shares the places with the link of the site, and else it covers one place
more.  So two lanes of which the one represents a row and the other the row without a site differ on
each level in one link, and this holds in both directions, whether the site was put in or taken out.

It does not matter here how the change was made: what the links are is read from the rows before
and after it.

Main definitions:

* `LinkBehind`, `LinkAhead` — the links of a level that do not leave the stop;
* `Pool.AgreesBut` — the pools have the same nodes but for one;
* `Lanes.Rewrites` — on a level, one link is another.

Main results:

* `Lanes.Represents.link?_apart` — the links that do not leave the stop are the same;
* `Lanes.Represents.rewrites_tall`, `Lanes.Represents.rewrites_short` — **the link that is
  another**, where the site stands on the level and where it does not;
* `Lanes.Represents.link?_above` — above the levels in use, no link is another.
-/

import IndexedSkipList.Proofs.Lanes.Chains

set_option relaxedAutoImplicit false
set_option autoImplicit false

namespace IndexedSkipList

variable {K V : Type}

/-! ### Two rows that differ in a site -/

section Rows

variable {level : Nat} {behind ahead : List (Site K V)} {site : Site K V}

/-- Between the stop and the site there are no other sites on the level. -/
theorem reach_between (level : Nat) (behind ahead : List (Site K V)) :
    reach level (between level behind ++ ahead) =
      { next := (reach level ahead).next
        span := (between level behind).length + (reach level ahead).span } :=
  reach_append_of_short (fun _ hother => height_le_of_mem_between hother) ahead

/-- The link of the stop leads to a site that stands on the level. -/
theorem reach_between_tall (htall : level < site.height) :
    reach level (between level behind ++ site :: ahead) =
      { next := some site.id, span := (between level behind).length + 1 } := by
  rw [reach_between, reach_cons_of_tall htall]

/-- The link of the stop passes over a site that does not stand on the level. -/
theorem reach_between_short (hshort : site.height ≤ level) :
    reach level (between level behind ++ site :: ahead) =
      { reach level (between level behind ++ ahead) with
        span := (reach level (between level behind ++ ahead)).span + 1 } := by
  have hsite : reach level (site :: ahead) =
      { next := (reach level ahead).next, span := (reach level ahead).span + 1 } := by
    simp [reach, Nat.not_lt.2 hshort]
  rw [reach_between, reach_between, hsite]
  rfl

/-- A place behind that is not the stop has a site between, if it stands on the level. -/
theorem exists_tall_of_ne_front {height : Nat} {before mid : List (Site K V)}
    (hbefore : level < levelsAfter height before) (hne : before ≠ front level (before ++ mid)) :
    ∃ site ∈ mid, level < site.height := by
  by_contra hnone
  have hshort : ∀ site ∈ mid, site.height ≤ level := by
    intro site hsite
    by_contra htall
    exact hnone ⟨site, hsite, by omega⟩
  rw [front_append_of_short hshort, front_of_lt_levelsAfter hbefore] at hne
  exact hne rfl

/-- How many levels of the head are in use does not matter on those that are in use anyway. -/
theorem lt_levelsAfter_iff {height height' : Nat} (hlevel : level < height)
    (hlevel' : level < height') (behind : List (Site K V)) :
    level < levelsAfter height behind ↔ level < levelsAfter height' behind := by
  rcases List.eq_nil_or_concat' behind with rfl | ⟨before, site, rfl⟩
  · simp [hlevel, hlevel']
  · simp

end Rows

/-! ### The links behind a stop and ahead of it -/

section Parts

variable {height height' level : Nat} {behind ahead : List (Site K V)} {site : Site K V}
  {place : Place} {l : Link}

/-- **On the level, the link `l` leaves `place` behind the stop.**  The stop itself is then one of
the sites that come after the place, so the link looks no further than to the stop. -/
def LinkBehind (height level : Nat) (behind : List (Site K V)) (place : Place) (l : Link) : Prop :=
  ∃ before mid, behind = before ++ mid ∧ level < levelsAfter height before ∧
    place = placeAfter before ∧ (∃ other ∈ mid, level < other.height) ∧ l = reach level mid

/-- **On the level, the link `l` leaves `place`, a node ahead.** -/
def LinkAhead (level : Nat) (ahead : List (Site K V)) (place : Place) (l : Link) : Prop :=
  ∃ before other after, ahead = before ++ other :: after ∧ level < other.height ∧
    place = .node other.id ∧ l = reach level after

/-- The links behind the stop do not depend on how many levels of the head are in use. -/
theorem linkBehind_iff (hlevel : level < height) (hlevel' : level < height') :
    LinkBehind height level behind place l ↔ LinkBehind height' level behind place l := by
  simp only [LinkBehind, lt_levelsAfter_iff hlevel hlevel']

/-- A site ahead adds no links but its own. -/
theorem linkAhead_cons_iff (hid : place ≠ .node site.id) :
    LinkAhead level (site :: ahead) place l ↔ LinkAhead level ahead place l := by
  constructor
  · rintro ⟨before, other, after, hrow, htall, rfl, rfl⟩
    cases before with
    | nil =>
        obtain ⟨rfl, _⟩ := List.cons.inj hrow
        exact absurd rfl hid
    | cons first before =>
        obtain ⟨_, hrow⟩ := List.cons.inj hrow
        exact ⟨before, other, after, hrow, htall, rfl, rfl⟩
  · rintro ⟨before, other, after, rfl, hrest⟩
    exact ⟨site :: before, other, after, rfl, hrest⟩

/-- Behind the stop there are no links on a level that no site reaches. -/
theorem not_linkBehind_of_short (hshort : ∀ site ∈ behind, site.height ≤ level) :
    ¬ LinkBehind height level behind place l := by
  rintro ⟨before, mid, rfl, _, _, ⟨other, hother, htall⟩, _⟩
  exact absurd htall (Nat.not_lt.2 (hshort other (List.mem_append_right _ hother)))

/-- Ahead there are no links on a level that no site reaches. -/
theorem not_linkAhead_of_short (hshort : ∀ site ∈ ahead, site.height ≤ level) :
    ¬ LinkAhead level ahead place l := by
  rintro ⟨before, other, after, rfl, htall, _⟩
  exact absurd htall (Nat.not_lt.2 (hshort other (by simp)))

end Parts

/-! ### The nodes -/

/-- **The pools have the same nodes but for `id`**: under every other id lives a node with the same
key, the same value and as tall a tower, or none in either. -/
def Pool.AgreesBut (id : NodeId) (before after : Pool K V) : Prop :=
  ∀ other, other ≠ id →
    (after.node? other).map Node.outline = (before.node? other).map Node.outline

theorem Pool.AgreesBut.symm {id : NodeId} {before after : Pool K V}
    (h : AgreesBut id before after) : AgreesBut id after before :=
  fun other hother => (h other hother).symm

/-- Pools that house rows that differ in a site have the same nodes but for the one of the site. -/
theorem Pool.Houses.agreesBut {without within : Pool K V} {behind ahead : List (Site K V)}
    {site : Site K V} {vacant vacant' : List NodeId} (h : without.Houses (behind ++ ahead) vacant)
    (h' : within.Houses (behind ++ site :: ahead) vacant') : AgreesBut site.id without within := by
  intro other hother
  by_cases hmem : other ∈ (behind ++ ahead).map (·.id)
  · obtain ⟨found, hfound, rfl⟩ := List.mem_map.1 hmem
    have hfound' : found ∈ behind ++ site :: ahead := by
      simp only [List.mem_append, List.mem_cons] at hfound ⊢
      tauto
    rw [h.standing found hfound, h'.standing found hfound']
  · have hmem' : other ∉ (behind ++ site :: ahead).map (·.id) := by
      intro hin
      rcases List.mem_cons.1 ((ids_middle_perm behind ahead site).mem_iff.1 hin) with hsame | hin
      · exact hother hsame
      · exact hmem hin
    have hnone : without.node? other = none :=
      Option.eq_none_iff_forall_ne_some.2 fun node hnode => hmem (h.live other node hnode)
    have hnone' : within.node? other = none :=
      Option.eq_none_iff_forall_ne_some.2 fun node hnode => hmem' (h'.live other node hnode)
    rw [hnone, hnone']

namespace Lanes

/-! ### Links that are another -/

/-- **On the level, the link that leaves `place` is another**, `new` in the place of `old`.  What
leaves other places stays; only the node `id`, which comes or goes, is left out. -/
structure Rewrites (before after : Lanes K V) (id : NodeId) (level : Nat) (place : Place)
    (old new : Link) : Prop where
  old_eq : before.link place level = .ok old
  new_eq : after.link place level = .ok new
  other_iff : ∀ other, other ≠ place → other ≠ .node id → ∀ link,
    after.link other level = .ok link ↔ before.link other level = .ok link

/-- To go back is to put the old link in the place of the new one. -/
theorem Rewrites.symm {before after : Lanes K V} {id : NodeId} {level : Nat} {place : Place}
    {old new : Link} (h : Rewrites before after id level place old new) :
    Rewrites after before id level place new old where
  old_eq := h.new_eq
  new_eq := h.old_eq
  other_iff other hplace hid link := (h.other_iff other hplace hid link).symm

namespace Represents

variable {without within : Lanes K V} {height height' : Nat} {behind ahead : List (Site K V)}
  {site : Site K V} {vacant vacant' : List NodeId}

/-- No site reaches the levels above those in use. -/
theorem short_of_le {lanes : Lanes K V} {sites : List (Site K V)}
    (h : lanes.Represents height sites vacant) {level : Nat} (hlevel : height ≤ level) :
    ∀ site ∈ sites, site.height ≤ level :=
  fun site hsite => (h.bounds site hsite).2.trans hlevel

/-- No node has a link above the levels in use. -/
theorem link?_node_above {lanes : Lanes K V} {sites : List (Site K V)}
    (h : lanes.Represents height sites vacant) {level : Nat} (hlevel : height ≤ level)
    (id : NodeId) : lanes.link? (.node id) level = none := by
  cases hnode : lanes.pool.node? id with
  | none => simp [link?, tower?, hnode]
  | some node =>
      obtain ⟨site, hsite, rfl⟩ := List.mem_map.1 ((h.houses.mem_ids_iff id).2 ⟨node, hnode⟩)
      obtain ⟨node', hnode', _, _, hsize⟩ := h.houses.exists_node hsite
      obtain rfl : node = node' := Option.some.inj (hnode.symm.trans hnode')
      have hshort := h.short_of_le hlevel site hsite
      simp only [link?, tower?, hnode, Option.map_some, Option.bind_some]
      exact Array.getElem?_eq_none (by omega)

/-- **Above the levels in use, no link is another.** -/
theorem link?_above {sites sites' : List (Site K V)} {before after : Lanes K V}
    (h : before.Represents height sites vacant) (h' : after.Represents height' sites' vacant')
    {above : Nat} (hsame : SameAbove above before after) {level : Nat} (hheight : height ≤ level)
    (hheight' : height' ≤ level) (habove : above ≤ level) (place : Place) :
    after.link? place level = before.link? place level := by
  cases place with
  | head => exact hsame.link?_head level habove
  | node id => rw [h.link?_node_above hheight, h'.link?_node_above hheight']

/-- **The links of a level that do not leave the stop** leave places behind it or nodes ahead. -/
theorem link?_iff_of_ne_stop {lanes : Lanes K V} {rest : List (Site K V)}
    (h : lanes.Represents height (behind ++ rest) vacant) {level : Nat} (hlevel : level < height)
    {place : Place} (hstop : place ≠ placeAfter (front level behind)) (l : Link) :
    lanes.link? place level = some l ↔
      LinkBehind height level behind place l ∨ LinkAhead level rest place l := by
  rw [h.link?_eq_some_iff hlevel]
  constructor
  · rintro ⟨before, after, hrow, hbefore, rfl, rfl⟩
    rcases List.append_eq_append_iff.1 hrow with ⟨mid, rfl, rfl⟩ | ⟨mid, rfl, rfl⟩
    · rcases List.eq_nil_or_concat' mid with rfl | ⟨mid', other, rfl⟩
      · rw [List.append_nil] at hbefore hstop
        exact absurd (congrArg placeAfter (front_of_lt_levelsAfter hbefore)).symm hstop
      · rw [← List.append_assoc, levelsAfter_concat] at hbefore
        exact Or.inr ⟨mid', other, after, by simp, hbefore, by simp [← List.append_assoc], rfl⟩
    · have htall := exists_tall_of_ne_front hbefore fun hfront => hstop (congrArg placeAfter hfront)
      have hreach := reach_append_of_tall htall rest []
      rw [List.append_nil] at hreach
      exact Or.inl ⟨before, mid, rfl, hbefore, rfl, htall, hreach⟩
  · rintro (⟨before, mid, rfl, hbefore, rfl, htall, rfl⟩ |
      ⟨before, other, after, rfl, htall, rfl, rfl⟩)
    · have hreach := reach_append_of_tall htall rest []
      rw [List.append_nil] at hreach
      exact ⟨before, mid ++ rest, by simp, hbefore, rfl, hreach.symm⟩
    · exact ⟨behind ++ before ++ [other], after, by simp, by rwa [levelsAfter_concat],
        (placeAfter_concat _ other).symm, rfl⟩

section OneSite

variable (h : without.Represents height (behind ++ ahead) vacant)
  (h' : within.Represents height' (behind ++ site :: ahead) vacant')

include h h'

/-- **The links of the other places are the same** with the site and without it. -/
theorem link?_apart {level : Nat} (hlevel' : level < height') {place : Place}
    (hstop : place ≠ placeAfter (front level behind)) (hid : place ≠ .node site.id) (l : Link) :
    within.link? place level = some l ↔ without.link? place level = some l := by
  rw [h'.link?_iff_of_ne_stop hlevel' hstop, linkAhead_cons_iff hid]
  by_cases hlevel : level < height
  · rw [h.link?_iff_of_ne_stop hlevel hstop, linkBehind_iff hlevel hlevel']
  · -- on a level that is not in use without the site, there are no other links
    have hshort := h.short_of_le (Nat.not_lt.1 hlevel)
    have hbehind : ∀ other ∈ behind, other.height ≤ level := fun other hother =>
      hshort other (List.mem_append_left _ hother)
    have hahead : ∀ other ∈ ahead, other.height ≤ level := fun other hother =>
      hshort other (List.mem_append_right _ hother)
    have hnone : without.link? place level = none := by
      cases place with
      | head => exact absurd (by rw [front_eq_nil hbehind]; rfl) hstop
      | node id => exact h.link?_node_above (Nat.not_lt.1 hlevel) id
    simp only [hnone, not_linkBehind_of_short hbehind, not_linkAhead_of_short hahead, or_self,
      reduceCtorEq]

/-- What is put in the place of the link of the stop, the other links being the same. -/
theorem rewrites {level : Nat} (hlevel' : level < height') {old new : Link}
    (hold : without.link? (placeAfter (front level behind)) level = some old)
    (hnew : within.link? (placeAfter (front level behind)) level = some new) :
    Rewrites without within site.id level (placeAfter (front level behind)) old new where
  old_eq := link_eq_ok_iff.2 hold
  new_eq := link_eq_ok_iff.2 hnew
  other_iff other hstop hid link := by
    rw [link_eq_ok_iff, link_eq_ok_iff]
    exact link?_apart h h' hlevel' hstop hid link

/-- **Where the site does not stand on the level**, the link of the stop covers one place more. -/
theorem rewrites_short {level : Nat} (hlevel : level < height) (hlevel' : level < height')
    (hshort : site.height ≤ level) :
    ∃ old, Rewrites without within site.id level (placeAfter (front level behind)) old
      { old with span := old.span + 1 } := by
  refine ⟨_, rewrites h h' hlevel' (h.link?_stop hlevel) ?_⟩
  rw [h'.link?_stop hlevel', reach_between_short hshort]

/-- **Where the site stands on the level**, the link of the stop leads to it, and the link of the
site leads on to where that of the stop leads without it.  On levels in use, the two together cover
one place more. -/
theorem rewrites_tall (hsize : height' ≤ without.head.size) {level : Nat}
    (hlevel' : level < height') (htall : level < site.height) :
    ∃ old own, within.link (.node site.id) level = .ok own ∧ old.next = own.next ∧
      (level < height → (between level behind).length + 1 + own.span = old.span + 1) ∧
      Rewrites without within site.id level (placeAfter (front level behind)) old
        { next := some site.id, span := (between level behind).length + 1 } := by
  have hown : within.link (.node site.id) level = .ok (reach level ahead) :=
    link_eq_ok_iff.2 (h'.link?_node rfl htall)
  have hnew := h'.link?_stop hlevel'
  rw [reach_between_tall htall] at hnew
  by_cases hlevel : level < height
  · refine ⟨_, _, hown, ?_, ?_, rewrites h h' hlevel' (h.link?_stop hlevel) hnew⟩
    · rw [reach_between]
    · intro _
      rw [reach_between]
      dsimp only
      omega
  · -- on a level that is not in use without the site, the stop is the head
    have hshort := h.short_of_le (Nat.not_lt.1 hlevel)
    have hfront : front level behind = [] :=
      front_eq_nil fun other hother => hshort other (List.mem_append_left _ hother)
    obtain ⟨span, hold⟩ := h.above level (by omega) (by omega)
    refine ⟨{ next := none, span }, _, hown, ?_, fun hused => absurd hused hlevel,
      rewrites h h' hlevel' ?_ hnew⟩
    · exact (reach_next_eq_none_iff.2 fun other hother =>
        hshort other (List.mem_append_right _ hother)).symm
    · rw [hfront]
      exact hold

end OneSite

end Represents

end Lanes

end IndexedSkipList
