/-
**Lists that represent a sorted row, and what they answer.**

A list holds a row of sites if its lanes represent it and what the list keeps besides the lanes goes
with it: as many levels in use as the tallest column has, as many entries as there are sites, and a
head whose links are as many as the policy allows.  For this it does not matter how the keys are
ordered.  A list represents a row if moreover the row is sorted by the keys.

Every question to a list that represents a row has an answer, and the answer is the one that the
entries of the row give: what meets a target, at which place it stands, and what stands at a place.

Main definitions:

* `SkipList.Holds`, `SkipList.Represents` — the invariants, without the order and with it;
* `entriesOf` — the entries of a row.

Main results:

* `SkipList.Holds.stopsBelow_eq` — the search before a division of the row;
* `SkipList.Represents.entry?_eq`, `SkipList.Represents.get?_eq`, `SkipList.Represents.contains_eq`,
  `SkipList.Represents.rank_eq` — **answers by key**;
* `SkipList.Holds.select_eq`, `SkipList.Holds.first?_eq`, `SkipList.Holds.last?_eq` — **answers by
  place**.
-/

import IndexedSkipList.Proofs.Key.Dictionary
import IndexedSkipList.Proofs.Lanes.Chains
import IndexedSkipList.SkipList.Basic

set_option relaxedAutoImplicit false
set_option autoImplicit false

namespace IndexedSkipList

variable {K V R : Type}

/-- The entries of a row. -/
def entriesOf (sites : List (Site K V)) : List (K × V) := sites.map fun site => site.entry

@[simp] theorem length_entriesOf (sites : List (Site K V)) :
    (entriesOf sites).length = sites.length := List.length_map ..

theorem entriesOf_append (behind ahead : List (Site K V)) :
    entriesOf (behind ++ ahead) = entriesOf behind ++ entriesOf ahead := List.map_append

theorem entriesOf_cons (site : Site K V) (ahead : List (Site K V)) :
    entriesOf (site :: ahead) = site.entry :: entriesOf ahead := rfl

/-- An entry is found where its site is. -/
theorem find?_entriesOf (target : Target K) (sites : List (Site K V)) :
    Dictionary.find? (entriesOf sites) target =
      (sites.find? fun site => target site.key = .eq).map fun site => site.entry := by
  rw [Dictionary.find?, entriesOf, List.find?_map]
  rfl

/-- The division of a row is that of its entries. -/
theorem Parted.entriesOf {target : Target K} {behind ahead : List (Site K V)}
    (h : Parted (fun site => target site.key) behind ahead) :
    Parted (fun entry => target entry.1) (entriesOf behind) (entriesOf ahead) :=
  Parted.map (fun site : Site K V => site.entry) h

section Finding

variable {target : Target K} {behind ahead : List (Site K V)} {site : Site K V}

theorem find?_entriesOf_absent (h : Parted (fun site => target site.key) behind ahead) :
    Dictionary.find? (entriesOf (behind ++ ahead)) target = none := by
  rw [find?_entriesOf, h.find?_absent]
  rfl

theorem find?_entriesOf_present (h : Parted (fun site => target site.key) behind ahead)
    (hmet : target site.key = .eq) :
    Dictionary.find? (entriesOf (behind ++ site :: ahead)) target = some site.entry := by
  rw [find?_entriesOf, h.find?_present hmet]
  rfl

end Finding

namespace HeightPolicy

/-- The default policy is accepted. -/
theorem validate_default : ({} : HeightPolicy).validate = .ok () := by decide +kernel

/-- An accepted policy has a ceiling from one to `maxLevels`. -/
theorem maxHeight_bounds {policy : HeightPolicy} (h : policy.validate = .ok ()) :
    1 ≤ policy.maxHeight ∧ policy.maxHeight ≤ maxLevels := by
  have hheight := ((validate_eq_ok_iff policy).1 h).1
  simpa [hasValidHeight] using hheight

end HeightPolicy

namespace SkipList

/-- **The list holds the row `sites`**, in whatever order its keys are; the slots of its pool that
hold no node are `vacant`. -/
structure Holds (list : SkipList K V R) (sites : List (Site K V)) (vacant : List NodeId) :
    Prop where
  lanes : list.lanes.Represents list.height sites vacant
  height_eq : list.height = tallest (sites.map (·.height))
  size_eq : list.size = sites.length
  /-- There are ids for all entries. -/
  fits : sites.length ≤ Pool.capacity
  accepted : list.policy.validate = .ok ()
  head_size : list.lanes.head.size = list.policy.maxHeight

/-- **The list represents the row `sites`**, which is sorted by the keys. -/
structure Represents [Ord K] (list : SkipList K V R) (sites : List (Site K V))
    (vacant : List NodeId) : Prop extends list.Holds sites vacant where
  sorted : sites.Pairwise fun a b => compare a.key b.key = .lt

/-- An empty list with an accepted policy holds the empty row. -/
theorem holds_blank {policy : HeightPolicy} (h : policy.validate = .ok ()) (source : R) :
    (blank policy source : SkipList K V R).Holds [] [] := by
  have hlevel : ∀ level, level < policy.maxHeight →
      (blank policy source : SkipList K V R).lanes.link? .head level = some {} := by
    intro level hlevel
    simp [blank, Lanes.blank, Lanes.link?_head, Tower.blank, hlevel]
  have hsize : (blank policy source : SkipList K V R).lanes.head.size = policy.maxHeight := by
    simp [blank, Lanes.blank, Tower.blank]
  exact
    { lanes :=
        { houses := Pool.houses_empty
          bounds := by simp
          height_le := Nat.zero_le _
          links := fun behind ahead hsites level hlevel => by
            obtain ⟨rfl, rfl⟩ := List.append_eq_nil_iff.1 hsites.symm
            exact absurd hlevel (Nat.not_lt_zero level)
          above := fun level _ hlevel' => ⟨0, hlevel level (hsize ▸ hlevel')⟩ }
      height_eq := rfl
      size_eq := rfl
      fits := by simp
      accepted := h
      head_size := hsize }

theorem represents_blank [Ord K] {policy : HeightPolicy} (h : policy.validate = .ok ())
    (source : R) : (blank policy source : SkipList K V R).Represents [] [] where
  toHolds := holds_blank h source
  sorted := List.Pairwise.nil

namespace Holds

variable {list : SkipList K V R} {sites : List (Site K V)} {vacant : List NodeId}

theorem length_lt_bound (h : list.Holds sites vacant) : sites.length < Counter.bound :=
  h.fits.trans_lt (by decide)

/-- The head has a link at the base, whether it is in use or not. -/
theorem head_pos (h : list.Holds sites vacant) : 0 < list.lanes.head.size := by
  rw [h.head_size]
  exact (HeightPolicy.maxHeight_bounds h.accepted).1

/-! ### Searching for a target -/

/-- **A search for a target stops before the division of the row.** -/
theorem stopsBelow_eq (h : list.Holds sites vacant) {target : Target K}
    {behind ahead : List (Site K V)} (hsites : sites = behind ++ ahead)
    (hbelow : ∀ site ∈ behind, target site.key = .lt)
    (hahead : ∀ site ∈ ahead, target site.key ≠ .lt) :
    list.stopsBelow target = .ok (stopsAt list.height behind) := by
  refine h.lanes.search_eq h.length_lt_bound hsites ⟨?_, ?_⟩
  · intro before site after hbehind
    simpa [Target.below] using hbelow site (by simp [hbehind])
  · intro before site after hsplit
    simpa [Target.below] using hahead site (by simp [hsplit])

/-- **A search for a target ends somewhere in the row**, however the target judges the keys. -/
theorem stopsBelow_within (h : list.Holds sites vacant) (target : Target K) :
    ∃ behind ahead, sites = behind ++ ahead ∧
      list.stopsBelow target = .ok (stopsAt list.height behind) := by
  obtain ⟨behind, ahead, hsites, hsearch, _⟩ :=
    h.lanes.search_within h.length_lt_bound target.below
  exact ⟨behind, ahead, hsites, hsearch⟩

/-- There is room for the stops of a search. -/
theorem pathTo_eq (h : list.Holds sites vacant) {target : Target K} {path : List Stop}
    (hstops : list.stopsBelow target = .ok path) : list.pathTo target = .ok path := by
  have hroom : list.height ≤ maxLevels := by
    have := h.lanes.height_le
    rw [h.head_size] at this
    exact this.trans (HeightPolicy.maxHeight_bounds h.accepted).2
  simp [pathTo, roomFor, hroom, hstops]

theorem base_eq (h : list.Holds sites vacant) {behind ahead : List (Site K V)}
    (hsites : sites = behind ++ ahead) :
    Lanes.base (stopsAt list.height behind) = stopAfter behind :=
  base_stopsAt fun site hsite => h.lanes.bounds site (by simp [hsites, hsite])

/-- **What is found at a stop** is the site ahead, if it meets the target. -/
theorem matching?_eq (h : list.Holds sites vacant) (target : Target K)
    {behind ahead : List (Site K V)} (hsites : sites = behind ++ ahead) :
    list.matching? target (Lanes.base (stopsAt list.height behind)) =
      .ok ((ahead.head?.filter fun site => target site.key = .eq).map (·.id)) := by
  obtain ⟨l, hlink, hnext⟩ := h.lanes.link?_base h.head_pos hsites
  rw [h.base_eq hsites]
  cases ahead with
  | nil => simp [matching?, Lanes.link_eq_ok_iff.2 hlink, hnext]
  | cons site ahead =>
      obtain ⟨node, hnode, hkey, _⟩ := h.lanes.houses.exists_node
        (show site ∈ sites by simp [hsites])
      simp only [matching?, stopAfter_place, Lanes.link_eq_ok_iff.2 hlink, hnext, List.head?_cons,
        Option.map_some, Fault.ok_bind, Pool.get_eq_ok_iff.2 hnode, hkey, Fault.pure_eq_ok]
      by_cases hmet : target site.key = .eq <;> simp [Option.filter, hmet]

/-- The site ahead is found if it meets the target. -/
theorem matching?_met (h : list.Holds sites vacant) {target : Target K}
    {behind ahead : List (Site K V)} {site : Site K V} (hsites : sites = behind ++ site :: ahead)
    (hmet : target site.key = .eq) :
    list.matching? target (Lanes.base (stopsAt list.height behind)) = .ok (some site.id) := by
  rw [h.matching?_eq target hsites]
  simp [hmet]

/-- **Nothing is found where the site ahead does not meet the target.** -/
theorem matching?_unmet (h : list.Holds sites vacant) {target : Target K}
    {behind ahead : List (Site K V)} (hsites : sites = behind ++ ahead)
    (hunmet : ∀ site ∈ ahead.head?, target site.key ≠ .eq) :
    list.matching? target (Lanes.base (stopsAt list.height behind)) = .ok none := by
  rw [h.matching?_eq target hsites, Option.filter_eq_none_iff.2 (by simpa using hunmet)]
  rfl

/-- Whatever is found has a node with its entry. -/
theorem exists_node_of_find? (h : list.Holds sites vacant) {target : Target K}
    {site : Site K V} (hfind : (sites.find? fun site => target site.key = .eq) = some site) :
    ∃ node, list.lanes.pool.get site.id = .ok node ∧ node.entry = site.entry := by
  obtain ⟨node, hnode, hkey, hvalue, _⟩ :=
    h.lanes.houses.exists_node (List.mem_of_find?_eq_some hfind)
  exact ⟨node, Pool.get_eq_ok_iff.2 hnode, by simp [Node.entry, Column.entry, hkey, hvalue]⟩

/-! ### Answers by place -/

/-- **A search for a place** stops behind the site that stands there. -/
theorem search_place (h : list.Holds sites vacant) {behind ahead : List (Site K V)}
    {site : Site K V} (hsites : sites = behind ++ site :: ahead) :
    list.lanes.search (fun _ rank => decide (rank ≤ behind.length + 1)) list.height =
      .ok (stopsAt list.height (behind ++ [site])) := by
  have hrow : sites = (behind ++ [site]) ++ ahead := by simp [hsites]
  refine h.lanes.search_eq h.length_lt_bound hrow ⟨?_, ?_⟩
  · intro before other after hsplit
    have := congrArg List.length hsplit
    simp only [List.length_append, List.length_cons, List.length_nil] at this
    simp only [decide_eq_true_eq]
    omega
  · intro before other after _
    simp only [List.length_append, List.length_singleton, decide_eq_false_iff_not]
    omega

/-- **The entry at a place**, counted from one. -/
theorem select_eq (h : list.Holds sites vacant) (place : Nat) :
    list.select place = .ok (Dictionary.select (entriesOf sites) place) := by
  rw [Dictionary.select]
  -- a place in the row is that of a site, and the row is divided behind this site
  by_cases hout : place = 0 ∨ list.size < place
  · have hnone : (if place = 0 then none else (entriesOf sites)[place - 1]?) = none := by
      rcases hout with hzero | hlarge
      · simp [hzero]
      · rw [h.size_eq] at hlarge
        rw [if_neg (by omega), List.getElem?_eq_none_iff, length_entriesOf]
        omega
    simp [select, hout, hnone]
  · rw [not_or, h.size_eq] at hout
    obtain ⟨place, rfl⟩ : ∃ n, place = n + 1 := ⟨place - 1, by omega⟩
    have hlt : place < sites.length := by omega
    obtain ⟨behind, site, ahead, hsites, hlength⟩ :
        ∃ behind site ahead, sites = behind ++ site :: ahead ∧ behind.length = place :=
      ⟨sites.take place, sites[place], sites.drop (place + 1), by simp, by simp; omega⟩
    have hsites' : sites = (behind ++ [site]) ++ ahead := by simp [hsites]
    have hseek := h.lanes.seek_eq (h.search_place hsites)
    rw [hlength] at hseek
    obtain ⟨node, hnode, hkey, hvalue, _⟩ :=
      h.lanes.houses.exists_node (show site ∈ sites by simp [hsites])
    have hentry : node.entry = site.entry := by simp [Node.entry, Column.entry, hkey, hvalue]
    have hget : (entriesOf sites)[place]? = some site.entry := by
      rw [hsites, entriesOf_append, entriesOf_cons]
      simp [← hlength]
    rw [← h.size_eq] at hout
    simp only [select, not_or.2 hout, if_false, hseek, Fault.ok_bind, h.base_eq hsites',
      stopAfter_place, placeAfter_concat, stopAfter_rank]
    simp [hlength, Pool.get_eq_ok_iff.2 hnode, hentry, hget]

/-- **The first entry** is the one at the start of the row. -/
theorem first?_eq (h : list.Holds sites vacant) :
    list.first? = .ok (entriesOf sites).head? := by
  obtain ⟨l, hlink, hnext⟩ := h.lanes.link?_base h.head_pos (List.nil_append sites).symm
  have hhead : Tower.link list.lanes.head 0 = .ok l := Tower.link_eq_ok_iff.2 hlink
  cases sites with
  | nil => simp [first?, hhead, hnext, entriesOf]
  | cons site ahead =>
      obtain ⟨node, hnode, hkey, hvalue, _⟩ :=
        h.lanes.houses.exists_node (List.mem_cons_self (a := site) (l := ahead))
      have hentry : node.entry = site.entry := by simp [Node.entry, Column.entry, hkey, hvalue]
      simp [first?, hhead, hnext, Pool.get_eq_ok_iff.2 hnode, hentry, entriesOf_cons]

/-- **The last entry** is the one at the end of the row. -/
theorem last?_eq (h : list.Holds sites vacant) :
    list.last? = .ok (entriesOf sites).getLast? := by
  rw [last?, h.select_eq, h.size_eq, ← length_entriesOf, List.getLast?_eq_getElem?,
    Dictionary.select]
  split
  · next hzero =>
      rw [List.length_eq_zero_iff.1 hzero]
      rfl
  · rfl

end Holds

namespace Represents

variable [Ord K] {list : SkipList K V R} {sites : List (Site K V)} {vacant : List NodeId}

/-- **What meets a target is found by a search for it.** -/
theorem find?_eq (h : list.Represents sites vacant) {target : Target K} (hagrees : target.Agrees) :
    list.find? target =
      .ok ((sites.find? fun site => target site.key = .eq).map fun site => site.id) := by
  rcases exists_parted hagrees h.sorted with
    ⟨behind, ahead, hsites, hparted⟩ | ⟨behind, met, ahead, hsites, hmet, hparted⟩
  · have hstops := h.stopsBelow_eq hsites hparted.below hparted.above_not_lt
    have hmatching := h.matching?_unmet hsites hparted.ahead_unmet
    rw [find?, hstops, Fault.ok_bind, hmatching]
    rw [hsites, hparted.find?_absent]
    rfl
  · have hstops := h.stopsBelow_eq hsites hparted.below (hparted.met_not_lt hmet)
    have hmatching := h.matching?_met hsites hmet
    rw [find?, hstops, Fault.ok_bind, hmatching]
    rw [hsites, hparted.find?_present hmet]
    rfl

/-! ### Answers by key -/

/-- **The entry under a target** is the one of the row that meets it. -/
theorem entry?_eq (h : list.Represents sites vacant) {target : Target K}
    (hagrees : target.Agrees) :
    list.entry? target = .ok (Dictionary.find? (entriesOf sites) target) := by
  rw [find?_entriesOf]
  simp only [ entry?, h.find?_eq hagrees, Fault.ok_bind]
  cases hfind : sites.find? fun site => target site.key = .eq with
  | none => rfl
  | some site =>
      obtain ⟨node, hnode, hentry⟩ := h.exists_node_of_find? hfind
      simp [hnode, hentry]

/-- **The value under a target** is the one of the entry that meets it. -/
theorem get?_eq (h : list.Represents sites vacant) {target : Target K} (hagrees : target.Agrees) :
    list.get? target = .ok (Dictionary.get? (entriesOf sites) target) := by
  rw [Dictionary.get?, find?_entriesOf]
  simp only [get?, h.find?_eq hagrees, Fault.ok_bind]
  cases hfind : sites.find? fun site => target site.key = .eq with
  | none => rfl
  | some site =>
      obtain ⟨node, hnode, hentry⟩ := h.exists_node_of_find? hfind
      have hvalue : node.value = site.entry.2 := by rw [← hentry]; rfl
      simp [hnode, hvalue]

/-- **A target is met** if an entry of the row meets it. -/
theorem contains_eq (h : list.Represents sites vacant) {target : Target K}
    (hagrees : target.Agrees) :
    list.contains target = .ok (Dictionary.contains (entriesOf sites) target) := by
  rw [Dictionary.contains, find?_entriesOf]
  simp [contains, h.find?_eq hagrees]

/-- **The rank of a target** is the place of the entry that meets it, counted from one, and zero if
there is none. -/
theorem rank_eq (h : list.Represents sites vacant) {target : Target K} (hagrees : target.Agrees) :
    list.rank target = .ok (Dictionary.rank (entriesOf sites) target) := by
  rw [Dictionary.rank]
  rcases exists_parted hagrees h.sorted with
    ⟨behind, ahead, hsites, hparted⟩ | ⟨behind, met, ahead, hsites, hmet, hparted⟩
  · have hstops := h.stopsBelow_eq hsites hparted.below hparted.above_not_lt
    have hmatching := h.matching?_unmet hsites hparted.ahead_unmet
    have habsent : (entriesOf sites).findIdx? (fun entry => target entry.1 = .eq) = none := by
      rw [hsites, entriesOf_append]
      exact hparted.entriesOf.findIdx?_absent
    simp only [rank, hstops, Fault.ok_bind, hmatching, habsent]
    rfl
  · have hstops := h.stopsBelow_eq hsites hparted.below (hparted.met_not_lt hmet)
    have hmatching := h.matching?_met hsites hmet
    have hentries : (entriesOf sites).findIdx? (fun entry => target entry.1 = .eq) =
        some behind.length := by
      rw [hsites, entriesOf_append, entriesOf_cons, hparted.entriesOf.findIdx?_present hmet,
        length_entriesOf]
    have hbound : behind.length + 1 < Counter.bound := by
      have hfits := h.length_lt_bound
      rw [hsites] at hfits
      simp only [List.length_append, List.length_cons] at hfits
      omega
    simp only [rank, hstops, Fault.ok_bind, hmatching, hentries]
    rw [h.base_eq hsites, stopAfter_rank, Counter.add_eq_ok hbound]
    rfl

end Represents

end SkipList

end IndexedSkipList
