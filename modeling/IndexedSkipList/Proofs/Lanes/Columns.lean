/-
**A row of columns, and the links between them.**

Forget for a moment that nodes live in slots and follow each other by links.  What is left of the
lanes is a row of columns, each an entry with a height; a site is a column together with the id of
the slot that its node lives in.  The row decides every link: on a level, the link that leaves a
place leads to the first column ahead that is taller than the level, and its span is the number of
columns up to that one; if there is none it leads nowhere and covers all that is ahead
(`reach`).  The row decides as well where a search must stop: on a level, at the last column below
the target that is taller than the level (`front`).

A place in the row is given by the list of sites behind it.

Main definitions:

* `Column`, `Site` — an entry with its height, and where its node lives;
* `tallest` — the greatest of some heights;
* `reach` — the link that leaves a place on a level, by the sites ahead of the place;
* `placeAfter`, `stopAfter`, `levelsAfter` — the place behind some sites, its rank, and the number
  of links that leave it;
* `front`, `stopsAt` — the sites up to the last one that stands on a level, and the stops of a
  search on all levels.

Main results:

* `reach_append_of_short`, `reach_append_of_tall` — a link passes over short columns and does not
  look beyond the first tall one;
* `front_append_of_short` — nor does a search stop at short columns;
* `placeAfter_injective` — different prefixes of a row end at different places;
* `reach_of_relinked` — **when other sites come to lie ahead of a place, one link on each level has
  to be adapted**.
-/

import IndexedSkipList.Lanes
import Mathlib.Data.List.DropRight
import Mathlib.Data.List.Infix
import Mathlib.Data.List.Nodup
import Mathlib.Order.MinMax

set_option relaxedAutoImplicit false
set_option autoImplicit false

namespace IndexedSkipList

/-- An entry and the number of levels it stands on. -/
structure Column (K V : Type) where
  key : K
  value : V
  height : Nat
  deriving DecidableEq

/-- A column and the id that its node lives under. -/
structure Site (K V : Type) extends Column K V where
  id : NodeId
  deriving DecidableEq

variable {K V : Type}

/-- The entry of a column. -/
def Column.entry (column : Column K V) : K × V := (column.key, column.value)

/-- The node of a site, with its links wiped. -/
def Site.outline (site : Site K V) : Node K V where
  key := site.key
  value := site.value
  tower := Tower.blank site.height

/-- The greatest of some heights, zero if there are none. -/
def tallest (heights : List Nat) : Nat := heights.foldr max 0

theorem lt_tallest_iff {n : Nat} {heights : List Nat} :
    n < tallest heights ↔ ∃ height ∈ heights, n < height := by
  induction heights with
  | nil => simp [tallest]
  | cons height heights ih =>
      have hfold : tallest (height :: heights) = max height (tallest heights) := rfl
      simp [hfold, ih]

theorem tallest_le_iff {n : Nat} {heights : List Nat} :
    tallest heights ≤ n ↔ ∀ height ∈ heights, height ≤ n := by
  rw [← Nat.not_lt, lt_tallest_iff]
  simp

/-! ### The links of a row -/

/-- **The link that leaves a place on `level`**, by the sites ahead of that place. -/
def reach (level : Nat) : List (Site K V) → Link
  | [] => {}
  | site :: ahead =>
      if level < site.height then { next := some site.id, span := 1 }
      else { next := (reach level ahead).next, span := (reach level ahead).span + 1 }

@[simp] theorem reach_nil (level : Nat) : reach level ([] : List (Site K V)) = {} := rfl

theorem reach_cons_of_tall {level : Nat} {site : Site K V} (h : level < site.height)
    (ahead : List (Site K V)) :
    reach level (site :: ahead) = { next := some site.id, span := 1 } := by
  simp [reach, h]

/-- A link passes over the columns that are too short for its level. -/
theorem reach_append_of_short {level : Nat} {short : List (Site K V)}
    (h : ∀ site ∈ short, site.height ≤ level) (ahead : List (Site K V)) :
    reach level (short ++ ahead) =
      { next := (reach level ahead).next, span := short.length + (reach level ahead).span } := by
  induction short with
  | nil => simp
  | cons site short ih =>
      have hsite : ¬ level < site.height := by
        have := h site (List.mem_cons_self ..)
        omega
      simp only [List.cons_append, reach, hsite, if_false,
        ih fun other hother => h other (List.mem_cons_of_mem _ hother), List.length_cons,
        Link.mk.injEq, true_and]
      omega

/-- A link does not look beyond the first column that is tall enough for its level. -/
theorem reach_append_of_tall {level : Nat} {mid : List (Site K V)}
    (h : ∃ site ∈ mid, level < site.height) (ahead ahead' : List (Site K V)) :
    reach level (mid ++ ahead) = reach level (mid ++ ahead') := by
  induction mid with
  | nil => simp at h
  | cons site mid ih =>
      by_cases hsite : level < site.height
      · simp [reach, hsite]
      · have hmid : ∃ other ∈ mid, level < other.height := by
          obtain ⟨other, hother, htall⟩ := h
          rcases List.mem_cons.1 hother with rfl | hother
          · exact absurd htall hsite
          · exact ⟨other, hother, htall⟩
        simp only [List.cons_append, reach, hsite, if_false, ih hmid]

/-- Either no column stands on the level, or there is a first one that does. -/
theorem exists_first_tall (level : Nat) (sites : List (Site K V)) :
    (∀ site ∈ sites, site.height ≤ level) ∨
      ∃ short site rest, sites = short ++ site :: rest ∧ (∀ other ∈ short, other.height ≤ level) ∧
        level < site.height := by
  induction sites with
  | nil => exact Or.inl (by simp)
  | cons site sites ih =>
      by_cases htall : level < site.height
      · exact Or.inr ⟨[], site, sites, rfl, by simp, htall⟩
      · have hsite : site.height ≤ level := by omega
        rcases ih with hshort | ⟨short, other, rest, rfl, hshort, hother⟩
        · exact Or.inl (by simpa [hsite] using hshort)
        · exact Or.inr ⟨site :: short, other, rest, rfl, by simpa [hsite] using hshort, hother⟩

/-- A link leads to a site ahead that is tall enough for its level. -/
theorem exists_of_reach_next {level : Nat} {ahead : List (Site K V)} {id : NodeId}
    (h : (reach level ahead).next = some id) :
    ∃ site ∈ ahead, site.id = id ∧ level < site.height := by
  induction ahead with
  | nil => simp at h
  | cons site ahead ih =>
      by_cases hsite : level < site.height
      · rw [reach_cons_of_tall hsite] at h
        exact ⟨site, List.mem_cons_self .., by simpa using h, hsite⟩
      · simp only [reach, hsite, if_false] at h
        obtain ⟨other, hother, hid, htall⟩ := ih h
        exact ⟨other, List.mem_cons_of_mem _ hother, hid, htall⟩

/-- A link leads nowhere exactly if no column ahead stands on its level. -/
theorem reach_next_eq_none_iff {level : Nat} {ahead : List (Site K V)} :
    (reach level ahead).next = none ↔ ∀ site ∈ ahead, site.height ≤ level := by
  induction ahead with
  | nil => simp
  | cons site ahead ih =>
      by_cases hsite : level < site.height
      · simp [reach, hsite, Nat.not_le.2 hsite]
      · simp [reach, hsite, ih, Nat.not_lt.1 hsite]

/-- A link covers no more places than there are. -/
theorem reach_span_le (level : Nat) (ahead : List (Site K V)) :
    (reach level ahead).span ≤ ahead.length := by
  induction ahead with
  | nil => simp
  | cons site ahead ih =>
      simp only [reach, List.length_cons]
      split
      · simp
      · simpa using ih

/-! ### Places of a row -/

/-- The place behind the given sites. -/
def placeAfter (behind : List (Site K V)) : Place :=
  match behind.getLast? with
  | none => .head
  | some site => .node site.id

/-- The place behind the given sites, together with its rank. -/
def stopAfter (behind : List (Site K V)) : Stop where
  place := placeAfter behind
  rank := behind.length

/-- The number of links in use at the place behind the given sites, if `height` of those of the head
are. -/
def levelsAfter (height : Nat) (behind : List (Site K V)) : Nat :=
  match behind.getLast? with
  | none => height
  | some site => site.height

@[simp] theorem placeAfter_nil : placeAfter ([] : List (Site K V)) = .head := rfl

@[simp] theorem placeAfter_concat (behind : List (Site K V)) (site : Site K V) :
    placeAfter (behind ++ [site]) = .node site.id := by
  simp [placeAfter]

@[simp] theorem levelsAfter_nil (height : Nat) :
    levelsAfter height ([] : List (Site K V)) = height := rfl

@[simp] theorem levelsAfter_concat (height : Nat) (behind : List (Site K V)) (site : Site K V) :
    levelsAfter height (behind ++ [site]) = site.height := by
  simp [levelsAfter]

theorem stopAfter_nil : stopAfter ([] : List (Site K V)) = {} := rfl

@[simp] theorem stopAfter_place (behind : List (Site K V)) :
    (stopAfter behind).place = placeAfter behind := rfl

@[simp] theorem stopAfter_rank (behind : List (Site K V)) :
    (stopAfter behind).rank = behind.length := rfl

/-- A place that is not the head is the one behind some site. -/
theorem exists_concat_of_ne_nil {behind : List (Site K V)} (h : behind ≠ []) :
    ∃ before site, behind = before ++ [site] :=
  ⟨behind.dropLast, behind.getLast h, (List.dropLast_append_getLast h).symm⟩

theorem placeAfter_eq_node_iff {behind : List (Site K V)} {id : NodeId} :
    placeAfter behind = .node id ↔ ∃ before site, behind = before ++ [site] ∧ site.id = id := by
  constructor
  · intro h
    have hne : behind ≠ [] := by
      rintro rfl
      simp at h
    obtain ⟨before, site, rfl⟩ := exists_concat_of_ne_nil hne
    exact ⟨before, site, rfl, by simpa using h⟩
  · rintro ⟨before, site, rfl, rfl⟩
    simp

/-- The place behind some sites of a list is not a node that is not in the list. -/
theorem placeAfter_ne_node {behind : List (Site K V)} {id : NodeId}
    (h : id ∉ behind.map (·.id)) : placeAfter behind ≠ .node id := by
  intro hplace
  obtain ⟨before, site, rfl, rfl⟩ := placeAfter_eq_node_iff.1 hplace
  simp at h

/-- In a row without repetitions, different prefixes end at different places. -/
theorem placeAfter_injective {sites before behind : List (Site K V)}
    (hnodup : (sites.map (·.id)).Nodup) (hbefore : before <+: sites) (hbehind : behind <+: sites)
    (h : placeAfter before = placeAfter behind) : before = behind := by
  -- of two prefixes one begins with the other; its last id would occur a second time
  wlog hle : before.length ≤ behind.length generalizing before behind
  · exact (this hbehind hbefore h.symm (by omega)).symm
  obtain ⟨mid, rfl⟩ := List.prefix_of_prefix_length_le hbefore hbehind hle
  rcases List.eq_nil_or_concat' mid with rfl | ⟨mid', site, rfl⟩
  · simp
  · exfalso
    rw [← List.append_assoc, placeAfter_concat] at h
    obtain ⟨first, twin, rfl, hid⟩ := placeAfter_eq_node_iff.1 h
    obtain ⟨ahead, rfl⟩ := hbehind
    simp only [List.append_assoc, List.map_append, List.map_cons, List.cons_append,
      List.nil_append] at hnodup
    have hnot := (List.nodup_cons.1 (List.nodup_append.1 hnodup).2.1).1
    simp [hid] at hnot

/-! ### What decides the links -/

/-- What the links of a row look at: where the node of a site lives, and its height. -/
def Site.shape (site : Site K V) : NodeId × Nat := (site.id, site.height)

/-- Links do not look at keys and values. -/
theorem reach_eq_of_shape {sites sites' : List (Site K V)}
    (h : sites'.map Site.shape = sites.map Site.shape) (level : Nat) :
    reach level sites' = reach level sites := by
  induction sites generalizing sites' with
  | nil =>
      rw [List.map_nil, List.map_eq_nil_iff] at h
      rw [h]
  | cons site sites ih =>
      obtain ⟨site', rest, rfl, hsite, hrest⟩ := List.map_eq_cons_iff.1 h
      obtain ⟨hid, hheight⟩ := Prod.ext_iff.1 hsite
      dsimp only [Site.shape] at hid hheight
      simp only [reach, ih hrest, hid, hheight]

theorem placeAfter_eq_of_shape {behind behind' : List (Site K V)}
    (h : behind'.map Site.shape = behind.map Site.shape) :
    placeAfter behind' = placeAfter behind := by
  have hlast := congrArg List.getLast? h
  rw [List.getLast?_map, List.getLast?_map] at hlast
  unfold placeAfter
  cases hnew : behind'.getLast? <;> cases hold : behind.getLast? <;> simp_all [Site.shape]

theorem levelsAfter_eq_of_shape {behind behind' : List (Site K V)}
    (h : behind'.map Site.shape = behind.map Site.shape) (height : Nat) :
    levelsAfter height behind' = levelsAfter height behind := by
  have hlast := congrArg List.getLast? h
  rw [List.getLast?_map, List.getLast?_map] at hlast
  unfold levelsAfter
  cases hnew : behind'.getLast? <;> cases hold : behind.getLast? <;> simp_all [Site.shape]

/-! ### Where a search stops on a level -/

/-- **The sites up to the last one that stands on `level`.** -/
def front (level : Nat) (behind : List (Site K V)) : List (Site K V) :=
  behind.rdropWhile fun site => decide (site.height ≤ level)

theorem front_isPrefix (level : Nat) (behind : List (Site K V)) : front level behind <+: behind :=
  List.rdropWhile_prefix _ _

/-- The place of a stop is not a node that is not behind it. -/
theorem placeAfter_front_ne_node {behind : List (Site K V)} {id : NodeId}
    (h : id ∉ behind.map (·.id)) (level : Nat) : placeAfter (front level behind) ≠ .node id :=
  placeAfter_ne_node fun hmem => h (((front_isPrefix level behind).map (·.id)).subset hmem)

/-- Columns that are too short for the level do not count. -/
theorem front_append_of_short {level : Nat} {short : List (Site K V)}
    (h : ∀ site ∈ short, site.height ≤ level) (behind : List (Site K V)) :
    front level (behind ++ short) = front level behind := by
  induction short using List.reverseRecOn with
  | nil => simp
  | append_singleton short site ih =>
      have hsite : site.height ≤ level := h site (by simp)
      rw [← List.append_assoc, front, List.rdropWhile_concat_pos _ _ _ (by simpa using hsite)]
      exact ih fun other hother => h other (by simp [hother])

/-- A place that has a link on the level is where the search stops, if nothing is ahead of it. -/
theorem front_of_lt_levelsAfter {level height : Nat} {behind : List (Site K V)}
    (h : level < levelsAfter height behind) : front level behind = behind := by
  rcases List.eq_nil_or_concat' behind with rfl | ⟨before, site, rfl⟩
  · rfl
  · rw [levelsAfter_concat] at h
    exact List.rdropWhile_concat_neg _ _ _ (by simpa using h)

/-- What lies behind the stop is too short for the level. -/
theorem exists_short_of_front (level : Nat) (behind : List (Site K V)) :
    ∃ short, behind = front level behind ++ short ∧ ∀ site ∈ short, site.height ≤ level := by
  refine ⟨behind.rtakeWhile fun site => decide (site.height ≤ level), ?_, ?_⟩
  · exact List.rdropWhile_append_rtakeWhile.symm
  · intro site hsite
    simpa using List.mem_rtakeWhile_imp hsite

/-- The search stops at a place that has a link on the level. -/
theorem lt_levelsAfter_front {level height : Nat} (h : level < height)
    (behind : List (Site K V)) : level < levelsAfter height (front level behind) := by
  rcases List.eq_nil_or_concat' (front level behind) with hnil | ⟨before, site, hconcat⟩
  · rw [hnil]
    exact h
  · have hne : front level behind ≠ [] := by simp [hconcat]
    have hlast := List.rdropWhile_last_not _ behind hne
    rw [hconcat, levelsAfter_concat]
    have hsite : (front level behind).getLast hne = site := by simp [hconcat]
    change ¬ decide (((front level behind).getLast hne).height ≤ level) = true at hlast
    rw [hsite] at hlast
    simpa using hlast

/-- Where all columns stand on the level, the search stops at the last one. -/
theorem front_eq_self {level : Nat} {behind : List (Site K V)}
    (h : ∀ site ∈ behind, level < site.height) : front level behind = behind := by
  rcases List.eq_nil_or_concat' behind with rfl | ⟨before, site, rfl⟩
  · rfl
  · have hsite : level < site.height := h site (by simp)
    exact List.rdropWhile_concat_neg _ _ _ (by simpa using hsite)

/-- Where no column stands on the level, the search stops at the head. -/
theorem front_eq_nil {level : Nat} {behind : List (Site K V)}
    (h : ∀ site ∈ behind, site.height ≤ level) : front level behind = [] := by
  exact front_append_of_short h []

/-- The sites between the stop on `level` and the place that is searched for. -/
def between (level : Nat) (behind : List (Site K V)) : List (Site K V) :=
  behind.drop (front level behind).length

theorem front_append_between (level : Nat) (behind : List (Site K V)) :
    front level behind ++ between level behind = behind :=
  (List.prefix_append_drop (front_isPrefix level behind)).symm

theorem height_le_of_mem_between {level : Nat} {behind : List (Site K V)} {site : Site K V}
    (h : site ∈ between level behind) : site.height ≤ level := by
  obtain ⟨short, hbehind, hshort⟩ := exists_short_of_front level behind
  have heq : short = between level behind := by
    refine (List.append_right_inj (front level behind)).1 ?_
    rw [← hbehind, front_append_between]
  exact hshort site (heq ▸ h)

/-- **Changing what is ahead changes one link on each level.**  If on every level the link that
leaves the stop is adapted to the sites that are now ahead, and the other links that leave places of
the row stay, then all of these links are the ones that the row decides. -/
theorem reach_of_relinked {links links' : Place → Nat → Option Link} {height : Nat}
    {behind old new : List (Site K V)} (hnodup : (behind.map (·.id)).Nodup)
    (hbounds : ∀ site ∈ behind, site.height ≤ height)
    (hlinks : ∀ before mid, behind = before ++ mid → ∀ level, level < levelsAfter height before →
      links (placeAfter before) level = some (reach level (mid ++ old)))
    (hstop : ∀ level, level < height →
      links' (placeAfter (front level behind)) level =
        some (reach level (between level behind ++ new)))
    (hother : ∀ before mid, behind = before ++ mid → ∀ level,
      placeAfter before ≠ placeAfter (front level behind) →
        links' (placeAfter before) level = links (placeAfter before) level) :
    ∀ before mid, behind = before ++ mid → ∀ level, level < levelsAfter height before →
      links' (placeAfter before) level = some (reach level (mid ++ new)) := by
  intro before mid hbehind level hlevel
  by_cases hfront : before = front level behind
  · have hheight : level < height := by
      rcases List.eq_nil_or_concat' before with hnil | ⟨before', site, hconcat⟩
      · simpa [hnil] using hlevel
      · have hsite := hbounds site (by simp [hbehind, hconcat])
        rw [hconcat, levelsAfter_concat] at hlevel
        omega
    have hmid : mid = between level behind := by
      refine (List.append_right_inj before).1 ?_
      rw [← hbehind, hfront, front_append_between]
    rw [hfront, hmid]
    exact hstop level hheight
  · have hplace : placeAfter before ≠ placeAfter (front level behind) := by
      intro h
      exact hfront (placeAfter_injective hnodup ⟨mid, hbehind.symm⟩ (front_isPrefix level behind) h)
    -- a column that stands on the level lies between, else the search would have stopped earlier
    have htall : ∃ site ∈ mid, level < site.height := by
      by_contra hnone
      have hshort : ∀ site ∈ mid, site.height ≤ level := by
        intro site hsite
        by_contra hsite'
        exact hnone ⟨site, hsite, by omega⟩
      apply hfront
      rw [hbehind, front_append_of_short hshort, front_of_lt_levelsAfter hlevel]
    rw [hother before mid hbehind level hplace, hlinks before mid hbehind level hlevel,
      reach_append_of_tall htall old new]

/-- **The stops of a search for a place of the row**, on the levels below `height`. -/
def stopsAt (height : Nat) (behind : List (Site K V)) : List Stop :=
  (List.range height).map fun level => stopAfter (front level behind)

theorem stopsAt_succ (level : Nat) (behind : List (Site K V)) :
    stopsAt (level + 1) behind = stopsAt level behind ++ [stopAfter (front level behind)] := by
  simp [stopsAt, List.range_succ]

/-- The stops on the levels below `tall`. -/
theorem stopsAt_take {height tall : Nat} (h : tall ≤ height) (behind : List (Site K V)) :
    (stopsAt height behind).take tall =
      (List.range' 0 tall).map fun level => stopAfter (front level behind) := by
  rw [stopsAt, List.range_eq_range', ← List.map_take, List.take_range'_of_length_ge h]

/-- The stops on the levels from `tall` on. -/
theorem stopsAt_drop (height tall : Nat) (behind : List (Site K V)) :
    (stopsAt height behind).drop tall =
      (List.range' tall (height - tall)).map fun level => stopAfter (front level behind) := by
  rw [stopsAt, List.range_eq_range', ← List.map_drop, List.drop_range']
  simp

/-- The stop at the base is the place that is searched for. -/
theorem base_stopsAt {height : Nat} {behind : List (Site K V)}
    (h : ∀ site ∈ behind, 1 ≤ site.height ∧ site.height ≤ height) :
    Lanes.base (stopsAt height behind) = stopAfter behind := by
  cases height with
  | zero =>
      have hnil : behind = [] := by
        refine List.eq_nil_iff_forall_not_mem.2 fun site hsite => ?_
        have := h site hsite
        omega
      subst hnil
      rfl
  | succ height =>
      have hfront : front 0 behind = behind := front_eq_self fun site hsite => (h site hsite).1
      simp [Lanes.base, stopsAt, List.range_succ_eq_map, hfront]

end IndexedSkipList
