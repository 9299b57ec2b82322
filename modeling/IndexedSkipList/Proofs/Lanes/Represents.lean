/-
**Lanes that represent a row of sites, and searches in them.**

Lanes represent a row if the nodes are those of the row and every link is the one that the row
decides.  This is the invariant of the lanes: it ties all levels, all spans and the pool to one
list.  Above the levels in use only the head has links; they lead nowhere, and nothing is said about
their spans.

A search in such lanes ends somewhere in the row, whatever it accepts, and on every level it stops
at the last column behind that place.  A walk on one lane follows links over columns that are too
short for the lane, up to a site that is refused; on the lanes below, that site is a barrier, since
it stands on them as well.  If what is accepted lies behind what is refused, the place where the
search ends is the one in between.

A node that gets another value keeps its tower, so that every link is what it was; and since the
links of a row do not look at values, they are the links that the new row decides.

Main definitions:

* `Lanes.Represents` — the invariant;
* `Divides` — the sites behind a place are acceptable, and those ahead of it are not;
* `Barrier`, `Reached` — the first site ahead is refused, and the last one behind was accepted.

Main results:

* `Lanes.Represents.link?_behind`, `Lanes.Represents.link?_ahead` — the links of places behind and
  ahead of a change;
* `Lanes.Represents.search_within` — **every search succeeds and ends in the row**;
* `Lanes.Represents.search_eq` — **a search for a division of the row finds it**;
* `Lanes.Represents.write` — **after a value was written, the lanes represent the row with that
  value**.
-/

import IndexedSkipList.Proofs.Lanes.Housing

set_option relaxedAutoImplicit false
set_option autoImplicit false

namespace IndexedSkipList

variable {K V : Type}

/-- The sites behind a place are acceptable, and those ahead of it are not. -/
structure Divides (accepts : K → Nat → Bool) (behind ahead : List (Site K V)) : Prop where
  accepted : ∀ before site after, behind = before ++ site :: after →
    accepts site.key (before.length + 1) = true
  refused : ∀ before site after, ahead = before ++ site :: after →
    accepts site.key (behind.length + before.length + 1) = false

/-- The first of the sites ahead, if there is one, stands on the level and is refused. -/
def Barrier (accepts : K → Nat → Bool) (level : Nat) (behind ahead : List (Site K V)) : Prop :=
  ∀ site rest, ahead = site :: rest →
    level < site.height ∧ accepts site.key (behind.length + 1) = false

theorem Barrier.mono {accepts : K → Nat → Bool} {level level' : Nat}
    {behind ahead : List (Site K V)} (h : Barrier accepts level' behind ahead)
    (hle : level ≤ level') : Barrier accepts level behind ahead := fun site rest hahead =>
  ⟨hle.trans_lt (h site rest hahead).1, (h site rest hahead).2⟩

/-- The last of the sites behind, if there is one, is accepted. -/
def Reached (accepts : K → Nat → Bool) (behind : List (Site K V)) : Prop :=
  ∀ before site, behind = before ++ [site] → accepts site.key behind.length = true

/-- There is only one place to divide a row. -/
theorem Divides.eq_of_reached {accepts : K → Nat → Bool}
    {behind ahead behind' ahead' : List (Site K V)} (h : Divides accepts behind ahead)
    (hsites : behind ++ ahead = behind' ++ ahead')
    (hbarrier : Barrier accepts 0 behind' ahead') (hreached : Reached accepts behind') :
    behind' = behind := by
  rcases List.append_eq_append_iff.1 hsites with ⟨mid, rfl, rfl⟩ | ⟨mid, rfl, rfl⟩
  · rcases List.eq_nil_or_concat' mid with rfl | ⟨before, site, rfl⟩
    · simp
    · have hrefused := h.refused before site ahead' (by simp)
      have haccepted := hreached (behind ++ before) site (by simp)
      simp only [List.length_append, List.length_singleton, ← Nat.add_assoc] at haccepted
      rw [haccepted] at hrefused
      cases hrefused
  · cases mid with
    | nil => simp
    | cons site rest =>
        have haccepted := h.accepted behind' site rest rfl
        rw [(hbarrier site _ rfl).2] at haccepted
        cases haccepted

namespace Lanes

/-- **The lanes below `height` run through `sites`**, whose nodes are all there are; the slots that
hold no node are `vacant`. -/
structure Represents (lanes : Lanes K V) (height : Nat) (sites : List (Site K V))
    (vacant : List NodeId) : Prop where
  houses : lanes.pool.Houses sites vacant
  /-- Every column stands on the base, and on no level that is not in use. -/
  bounds : ∀ site ∈ sites, 1 ≤ site.height ∧ site.height ≤ height
  height_le : height ≤ lanes.head.size
  /-- Every link in use is the one that the row decides. -/
  links : ∀ behind ahead, sites = behind ++ ahead → ∀ level, level < levelsAfter height behind →
    lanes.link? (placeAfter behind) level = some (reach level ahead)
  /-- The links above lead nowhere. -/
  above : ∀ level, height ≤ level → level < lanes.head.size →
    ∃ span, lanes.link? .head level = some { next := none, span }

variable {lanes : Lanes K V} {height : Nat} {sites : List (Site K V)} {vacant : List NodeId}

namespace Represents

/-- The links of a node, by the sites ahead of it. -/
theorem link?_node (h : lanes.Represents height sites vacant) {behind ahead : List (Site K V)}
    {site : Site K V} (hsites : sites = behind ++ site :: ahead) {level : Nat}
    (hlevel : level < site.height) :
    lanes.link? (.node site.id) level = some (reach level ahead) := by
  have hlink := h.links (behind ++ [site]) ahead (by simp [hsites]) level
    (by rwa [levelsAfter_concat])
  rwa [placeAfter_concat] at hlink

/-- The link of a stop, before anything is changed. -/
theorem link?_stop {behind ahead : List (Site K V)}
    (h : lanes.Represents height (behind ++ ahead) vacant) {level : Nat} (hlevel : level < height) :
    lanes.link? (placeAfter (front level behind)) level =
      some (reach level (between level behind ++ ahead)) :=
  h.links (front level behind) (between level behind ++ ahead)
    (by rw [← List.append_assoc, front_append_between]) level
    (lt_levelsAfter_front hlevel behind)

/-- The link at the base leads to the next site. -/
theorem link?_base (h : lanes.Represents height sites vacant) (hhead : 0 < lanes.head.size)
    {behind ahead : List (Site K V)} (hsites : sites = behind ++ ahead) :
    ∃ l, lanes.link? (placeAfter behind) 0 = some l ∧ l.next = ahead.head?.map (·.id) := by
  have hbehind : ∀ site ∈ behind, 1 ≤ site.height := fun site hsite =>
    (h.bounds site (by simp [hsites, hsite])).1
  have hahead : (reach 0 ahead).next = ahead.head?.map (·.id) := by
    cases ahead with
    | nil => rfl
    | cons site ahead =>
        have hsite : 0 < site.height := (h.bounds site (by simp [hsites])).1
        simp [reach_cons_of_tall hsite]
  rcases List.eq_nil_or_concat' behind with rfl | ⟨before, site, rfl⟩
  · by_cases hheight : height = 0
    · -- no lane is in use, so the row is empty and the link of the head is one of those above
      obtain ⟨span, hlink⟩ := h.above 0 (by omega) hhead
      have hnil : ahead = [] := by
        refine List.eq_nil_iff_forall_not_mem.2 fun site hsite => ?_
        have := h.bounds site (by simp [hsites, hsite])
        omega
      subst hnil
      exact ⟨_, hlink, rfl⟩
    · exact ⟨_, h.links [] ahead hsites 0 (by simp; omega), hahead⟩
  · have hsite : 0 < site.height := hbehind site (by simp)
    exact ⟨_, h.links _ ahead hsites 0 (by simpa using hsite), hahead⟩

/-! ### Links that are adapted to another row -/

section Adapted

variable {after : Lanes K V} {behind ahead : List (Site K V)} {id : NodeId}

/-- **If the links that leave the stops are adapted to other sites ahead**, and only a node that is
not behind has other links besides, then all places behind are adapted. -/
theorem link?_behind {ahead' : List (Site K V)}
    (h : lanes.Represents height (behind ++ ahead) vacant) (hid : id ∉ behind.map (·.id))
    (hstop : ∀ level, level < height → after.link? (placeAfter (front level behind)) level =
      some (reach level (between level behind ++ ahead')))
    (hother : ∀ place level, place ≠ .node id →
      (level < height → place ≠ placeAfter (front level behind)) →
        after.link? place level = lanes.link? place level) :
    ∀ before mid, behind = before ++ mid → ∀ level, level < levelsAfter height before →
      after.link? (placeAfter before) level = some (reach level (mid ++ ahead')) := by
  have hnodup := h.houses.nodup
  rw [List.map_append] at hnodup
  have hold : ∀ before mid, behind = before ++ mid → ∀ level, level < levelsAfter height before →
      lanes.link? (placeAfter before) level = some (reach level (mid ++ ahead)) := by
    intro before mid hbefore level hlevel
    exact h.links before (mid ++ ahead) (by simp [hbefore]) level hlevel
  refine reach_of_relinked (List.nodup_append.1 hnodup).1 ?_ hold hstop ?_
  · exact fun other hmem => (h.bounds other (by simp [hmem])).2
  · intro before mid hbefore level hne
    refine hother _ level (placeAfter_ne_node fun hmem => hid ?_) fun _ => hne
    rw [hbefore, List.map_append]
    simp [List.mem_map.1 hmem]

/-- The nodes ahead keep their links. -/
theorem link?_ahead {mid rest : List (Site K V)} {other : Site K V}
    (h : lanes.Represents height (behind ++ ahead) vacant)
    (hother : ∀ place level, place ≠ .node id →
      (level < height → place ≠ placeAfter (front level behind)) →
        after.link? place level = lanes.link? place level)
    (hahead : ahead = mid ++ other :: rest) (hne : other.id ≠ id) {level : Nat}
    (hlevel : level < other.height) :
    after.link? (.node other.id) level = some (reach level rest) := by
  have hapart : other.id ∉ behind.map (·.id) := by
    intro hmem
    have hnodup := h.houses.nodup
    rw [List.map_append] at hnodup
    exact (List.nodup_append.1 hnodup).2.2 _ hmem _ (List.mem_map_of_mem (by simp [hahead])) rfl
  have hrow : behind ++ ahead = (behind ++ mid) ++ other :: rest := by simp [hahead]
  rw [hother _ level (by simpa using hne) fun _ => (placeAfter_front_ne_node hapart level).symm]
  exact h.link?_node hrow hlevel

end Adapted

end Represents

/-! ### Walking along a lane -/

namespace Represents

/-- **One move along a lane**: over the columns that are too short for it, to the first one that
stands on it, if that one is acceptable. -/
theorem advance?_tall (h : lanes.Represents height sites vacant)
    (hfits : sites.length < Counter.bound) {behind short ahead : List (Site K V)} {site : Site K V}
    (hsites : sites = behind ++ (short ++ site :: ahead)) {level : Nat}
    (hlevel : level < levelsAfter height behind) (hshort : ∀ other ∈ short, other.height ≤ level)
    (htall : level < site.height) (accepts : K → Nat → Bool) :
    lanes.advance? accepts level (stopAfter behind) =
      .ok (if accepts site.key (behind.length + short.length + 1) then
        some (stopAfter (behind ++ short ++ [site])) else none) := by
  have hlink := link_eq_ok_iff.2 (h.links behind _ hsites level hlevel)
  rw [reach_append_of_short hshort, reach_cons_of_tall htall] at hlink
  obtain ⟨node, hnode, hkey, _⟩ := h.houses.exists_node (show site ∈ sites by simp [hsites])
  have hrank : behind.length + (short.length + 1) < Counter.bound := by
    have := congrArg List.length hsites
    simp only [List.length_append, List.length_cons] at this
    omega
  have hstop : stopAfter (behind ++ short ++ [site]) =
      { place := .node site.id, rank := behind.length + (short.length + 1) } := by
    simp only [stopAfter, placeAfter_concat, List.length_append, List.length_singleton,
      Nat.add_assoc]
  simp only [advance?, stopAfter_place, stopAfter_rank, hlink, Fault.ok_bind,
    Pool.get_eq_ok_iff.2 hnode, Counter.add_eq_ok hrank, hkey, Fault.pure_eq_ok, hstop,
    Nat.add_assoc]

/-- There is no move where all columns ahead are too short. -/
theorem advance?_short (h : lanes.Represents height sites vacant)
    {behind ahead : List (Site K V)} (hsites : sites = behind ++ ahead) {level : Nat}
    (hlevel : level < levelsAfter height behind) (hshort : ∀ other ∈ ahead, other.height ≤ level)
    (accepts : K → Nat → Bool) :
    lanes.advance? accepts level (stopAfter behind) = .ok none := by
  have hlink := link_eq_ok_iff.2 (h.links behind _ hsites level hlevel)
  have hreach := reach_append_of_short hshort []
  rw [List.append_nil] at hreach
  rw [hreach] at hlink
  simp [advance?, hlink]

/-- There is no move where the next site on the lane is refused. -/
theorem advance?_barrier (h : lanes.Represents height sites vacant)
    (hfits : sites.length < Counter.bound) {accepts : K → Nat → Bool} {level : Nat}
    {start short limit : List (Site K V)} (hsites : sites = start ++ (short ++ limit))
    (hlevel : level < levelsAfter height start) (hshort : ∀ other ∈ short, other.height ≤ level)
    (hbarrier : Barrier accepts level (start ++ short) limit) :
    lanes.advance? accepts level (stopAfter start) = .ok none := by
  cases limit with
  | nil => exact h.advance?_short hsites hlevel (by simpa using hshort) accepts
  | cons site limit =>
      obtain ⟨htall, hrefused⟩ := hbarrier site limit rfl
      rw [List.length_append] at hrefused
      rw [h.advance?_tall hfits hsites hlevel hshort htall accepts, hrefused]
      rfl

/-- **A walk along a lane ends before the first site on the lane that is refused.**  It passes over
`mid`; up to the next site on the lane there are only columns that are too short for it. -/
theorem walk_within (h : lanes.Represents height sites vacant)
    (hfits : sites.length < Counter.bound) {accepts : K → Nat → Bool} {level : Nat} :
    ∀ {moves : Nat} {start room limit : List (Site K V)}, sites = start ++ (room ++ limit) →
      level < levelsAfter height start → room.length ≤ moves →
      Barrier accepts level (start ++ room) limit → Reached accepts start →
      ∃ mid short rest, room = mid ++ (short ++ rest) ∧
        walk (lanes.advance? accepts level) moves (stopAfter start) =
          .ok (stopAfter (start ++ mid)) ∧
        level < levelsAfter height (start ++ mid) ∧ (∀ other ∈ short, other.height ≤ level) ∧
        Barrier accepts level (start ++ mid ++ short) (rest ++ limit) ∧
        Reached accepts (start ++ mid) := by
  -- induction on the moves left, of which there are as many as sites that may be passed
  intro moves
  induction moves with
  | zero =>
      intro start room limit hsites hlevel hmoves hbarrier hreached
      obtain rfl : room = [] := List.length_eq_zero_iff.1 (by omega)
      rw [List.append_nil] at hbarrier
      have hstop := h.advance?_barrier hfits hsites hlevel (by simp) (by simpa using hbarrier)
      refine ⟨[], [], [], rfl, ?_, by simpa, by simp, by simpa using hbarrier, by simpa⟩
      unfold walk
      simp [hstop]
  | succ moves ih =>
      intro start room limit hsites hlevel hmoves hbarrier hreached
      rcases exists_first_tall level room with hshort | ⟨short, site, rest, rfl, hshort, htall⟩
      · have hstop := h.advance?_barrier hfits hsites hlevel hshort hbarrier
        refine ⟨[], room, [], by simp, ?_, by simpa, hshort, by simpa using hbarrier, by simpa⟩
        unfold walk
        simp [hstop]
      · have hrow : sites = start ++ (short ++ site :: (rest ++ limit)) := by simp [hsites]
        cases haccepts : accepts site.key (start.length + short.length + 1) with
        | false =>
            have hbarrier' : Barrier accepts level (start ++ short) (site :: (rest ++ limit)) := by
              rintro first after hfirst
              obtain ⟨rfl, _⟩ := List.cons_eq_cons.1 hfirst
              exact ⟨htall, by rwa [List.length_append]⟩
            have hstop := h.advance?_barrier hfits hrow hlevel hshort hbarrier'
            refine ⟨[], short, site :: rest, rfl, ?_, by simpa, hshort, by simpa using hbarrier',
              by simpa⟩
            unfold walk
            simp [hstop]
        | true =>
            have hmove := h.advance?_tall hfits hrow hlevel hshort htall accepts
            have hlevel' : level < levelsAfter height (start ++ short ++ [site]) := by
              rwa [levelsAfter_concat]
            have hrest : rest.length ≤ moves := by
              simp only [List.length_append, List.length_cons] at hmoves
              omega
            have hreached' : Reached accepts (start ++ short ++ [site]) := by
              intro before last hlast
              obtain ⟨_, hsame⟩ := List.append_inj' hlast rfl
              obtain rfl := List.singleton_inj.1 hsame
              simpa [Nat.add_assoc] using haccepts
            have hrow' : sites = start ++ short ++ [site] ++ (rest ++ limit) := by simp [hsites]
            obtain ⟨mid, short', rest', rfl, hwalk, hafter, hshort', hbarrier', hend⟩ :=
              ih hrow' hlevel' hrest (by simpa using hbarrier) hreached'
            refine ⟨short ++ site :: mid, short', rest', by simp, ?_, by simpa using hafter,
              hshort', by simpa using hbarrier', by simpa using hend⟩
            unfold walk
            rw [hmove, haccepts]
            simpa using hwalk

/-! ### Searching -/

/-- Going down from a stop that has a link on all levels below `level`. -/
theorem descend_within (h : lanes.Represents height sites vacant)
    (hfits : sites.length < Counter.bound) {accepts : K → Nat → Bool} :
    ∀ {level : Nat} {start room limit : List (Site K V)},
      sites = start ++ (room ++ limit) → level ≤ levelsAfter height start → level ≤ height →
      (level = 0 → room = []) → Barrier accepts level (start ++ room) limit →
      Reached accepts start →
      ∃ mid rest, room = mid ++ rest ∧
        (∀ path, lanes.descend accepts level (stopAfter start) path =
          .ok (stopsAt level (start ++ mid) ++ path)) ∧
        Barrier accepts 0 (start ++ mid) (rest ++ limit) ∧ Reached accepts (start ++ mid) := by
  intro level
  induction level with
  | zero =>
      intro start room limit _ _ _ hroom hbarrier hreached
      obtain rfl := hroom rfl
      exact ⟨[], [], rfl, by simp [Lanes.descend, stopsAt], by simpa using hbarrier, by simpa⟩
  | succ level ih =>
      intro start room limit hsites hlevel hheight _ hbarrier hreached
      have hmoves : room.length ≤ lanes.pool.slots.size := by
        rw [← h.houses.length_add_length, hsites]
        simp only [List.length_append]
        omega
      obtain ⟨mid, short, rest, rfl, hwalk, hafter, hshort, hbarrier', hend⟩ :=
        h.walk_within hfits hsites (show level < _ by omega) hmoves (hbarrier.mono (by omega))
          hreached
      -- on the base no column is too short, so the walk there leaves nothing in between
      have hbase : level = 0 → short = [] := by
        rintro rfl
        refine List.eq_nil_iff_forall_not_mem.2 fun other hother => ?_
        have := h.bounds other (by simp [hsites, hother])
        have := hshort other hother
        omega
      have hrow : sites = start ++ mid ++ (short ++ (rest ++ limit)) := by simp [hsites]
      obtain ⟨mid', rest', rfl, hdescend, hbarrier'', hend'⟩ :=
        ih hrow hafter.le (by omega) hbase hbarrier' hend
      refine ⟨mid ++ mid', rest' ++ rest, by simp, fun path => ?_, by simpa using hbarrier'',
        by simpa using hend'⟩
      have hfront : front level (start ++ mid ++ mid') = start ++ mid := by
        rw [front_append_of_short fun other hother => hshort other (by simp [hother]),
          front_of_lt_levelsAfter hafter]
      unfold Lanes.descend
      rw [hwalk, Fault.ok_bind, hdescend, ← List.append_assoc start, stopsAt_succ, hfront]
      simp

/-- **A search ends somewhere in the row**, whatever it accepts: behind a site that it accepts, or
at the head, and before a site that it refuses, or at the end.  On every level it stops at the last
column behind that stands on it. -/
theorem search_within (h : lanes.Represents height sites vacant)
    (hfits : sites.length < Counter.bound) (accepts : K → Nat → Bool) :
    ∃ behind ahead, sites = behind ++ ahead ∧
      lanes.search accepts height = .ok (stopsAt height behind) ∧
      Barrier accepts 0 behind ahead ∧ Reached accepts behind := by
  have hnil : height = 0 → sites = [] := by
    rintro rfl
    refine List.eq_nil_iff_forall_not_mem.2 fun site hsite => ?_
    have := h.bounds site hsite
    omega
  have hrow : sites = [] ++ (sites ++ []) := by simp
  have hbarrier : Barrier accepts height ([] ++ sites) ([] : List (Site K V)) := by simp [Barrier]
  have hreached : Reached accepts ([] : List (Site K V)) := by simp [Reached]
  obtain ⟨behind, ahead, hsites, hdescend, hbarrier, hreached⟩ :=
    h.descend_within hfits hrow le_rfl le_rfl hnil hbarrier hreached
  refine ⟨behind, ahead, hsites, ?_, by simpa using hbarrier, hreached⟩
  simpa [Lanes.search, stopAfter_nil] using hdescend []

/-- **A search for a division of the row finds it.** -/
theorem search_eq (h : lanes.Represents height sites vacant)
    (hfits : sites.length < Counter.bound) {accepts : K → Nat → Bool}
    {behind ahead : List (Site K V)} (hsites : sites = behind ++ ahead)
    (hdivides : Divides accepts behind ahead) :
    lanes.search accepts height = .ok (stopsAt height behind) := by
  obtain ⟨behind', ahead', hsites', hsearch, hbarrier, hreached⟩ := h.search_within hfits accepts
  rw [hsearch, hdivides.eq_of_reached (hsites ▸ hsites') hbarrier hreached]

end Represents

/-! ### Writing a value where it stands -/

/-- A node that is replaced by one with the same tower leaves all links as they are. -/
theorem link?_of_update_same_tower {lanes : Lanes K V} {pool : Pool K V} {id : NodeId}
    {node node' : Node K V} (hnode : lanes.pool.node? id = some node)
    (hnodes : pool.node? = Function.update lanes.pool.node? id (some node'))
    (htower : node'.tower = node.tower) (place : Place) (level : Nat) :
    link? { lanes with pool } place level = lanes.link? place level := by
  by_cases hplace : place = .node id
  · subst hplace
    simp only [link?, tower?, hnodes, Function.update_self, hnode, Option.map_some, htower]
  · exact link?_of_update hnodes hplace level

namespace Represents

/-- Lanes with the same links represent every row of the same shape that their pool houses. -/
theorem of_shape {sites sites' : List (Site K V)} (h : lanes.Represents height sites vacant)
    {pool : Pool K V} (hhouses : pool.Houses sites' vacant)
    (hshape : sites'.map Site.shape = sites.map Site.shape)
    (hlinks : ∀ place level, link? { lanes with pool } place level = lanes.link? place level) :
    Lanes.Represents { lanes with pool } height sites' vacant where
  houses := hhouses
  bounds site' hsite' := by
    obtain ⟨site, hsite, hsame⟩ := List.mem_map.1 (hshape ▸ List.mem_map_of_mem hsite')
    rw [← show site.height = site'.height from congrArg Prod.snd hsame]
    exact h.bounds site hsite
  height_le := h.height_le
  links behind' ahead' hsites' level hlevel := by
    rw [hsites', List.map_append] at hshape
    obtain ⟨behind, ahead, hsites, hbehind, hahead⟩ := List.map_eq_append_iff.1 hshape.symm
    rw [levelsAfter_eq_of_shape hbehind.symm] at hlevel
    rw [hlinks, placeAfter_eq_of_shape hbehind.symm, reach_eq_of_shape hahead.symm]
    exact h.links behind ahead hsites level hlevel
  above level hlevel hsize := by
    rw [hlinks]
    exact h.above level hlevel hsize

/-- **After a value was written, the lanes represent the row with that value.** -/
theorem write {behind ahead : List (Site K V)} {site : Site K V}
    (h : lanes.Represents height (behind ++ site :: ahead) vacant) (value : V) :
    ∃ node pool, lanes.pool.get site.id = .ok node ∧ node.value = site.value ∧
      lanes.pool.set site.id { node with value } = .ok pool ∧
      Lanes.Represents { lanes with pool } height
        (behind ++ { site with value } :: ahead) vacant := by
  obtain ⟨node, hnode, hkey, hvalue, hsize⟩ := h.houses.exists_node List.mem_append_cons_self
  have houtline : Node.outline { node with value } = Site.outline { site with value } := by
    simp [Node.outline, Site.outline, hkey, hsize]
  obtain ⟨pool, hset, hhouses, hnodes⟩ := h.houses.set { site with value } rfl houtline
  refine ⟨node, pool, Pool.get_eq_ok_iff.2 hnode, hvalue, hset, ?_⟩
  refine h.of_shape hhouses ?_ (link?_of_update_same_tower hnode hnodes rfl)
  simp [Site.shape]

end Represents

end Lanes

end IndexedSkipList
