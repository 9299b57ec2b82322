/-
**Walks that nothing counts.**

A walk gives up when it has made more moves than there are slots.  This is a safeguard: here the
moves are described without it, as a trail that goes on for as long as there is a next move.
Nothing in the description says that there is an end, so that a trail exists is what it means for
the walk to end, and there is at most one.  A walk that did not give up has made the moves of such a
trail, and so has a search on all of its lanes together.  A search for a place goes down no further
when it stands there; its trail is that of the search that accepts the places up to it, which makes
no moves from there on.

In lanes that represent a row every move leads ahead, over columns that are too short for the lane,
and a step down to the next lane leads nowhere.  So the trail of a search runs through accepted
sites of the row from behind to ahead, on whatever lanes its moves are made, and it cannot have more
moves than there are sites that may be accepted.

Main definitions:

* `Trail` — the states that a step leads through, up to where it leads no further;
* `Lanes.Descends` — the moves of a search on all lanes together, and its stops;
* `Lanes.Seeks` — the moves of a search for a place;
* `LeadsAhead` — stops at accepted sites of a row, each ahead of the one before.

Main results:

* `Trail.unique`, `Lanes.Descends.unique`, `Lanes.Seeks.unique` — there is only one way to go;
* `Lanes.exists_trail_of_walk`, `Lanes.exists_descends_of_search` — **what ends in time ends**;
* `Lanes.Represents.seeks_of_descends` — **the moves of a search for a place**;
* `Lanes.Represents.leadsAhead_of_descends` — **a search only leads ahead**;
* `LeadsAhead.length_le_countP`, `LeadsAhead.length_le_rank` — how many moves there can be.
-/

import IndexedSkipList.Proofs.Lanes.Chains

set_option relaxedAutoImplicit false
set_option autoImplicit false

namespace IndexedSkipList

/-! ### Steps without a bound -/

section Steps

variable {S : Type} {step : S → Except Fault (Option S)}

/-- **The states that a step leads through**, one after the other, up to the one from which it leads
no further. -/
inductive Trail (step : S → Except Fault (Option S)) : S → List S → Prop where
  | stays {state : S} : step state = .ok none → Trail step state []
  | moves {state next : S} {states : List S} :
      step state = .ok (some next) → Trail step next states → Trail step state (next :: states)

/-- A step leads only one way. -/
theorem Trail.unique {state : S} {states states' : List S} (h : Trail step state states)
    (h' : Trail step state states') : states = states' := by
  induction h generalizing states' with
  | stays hstays =>
      cases h' with
      | stays => rfl
      | moves hmoves => simp [hstays] at hmoves
  | moves hmoves _ ih =>
      cases h' with
      | stays hstays => simp [hmoves] at hstays
      | moves hmoves' hrest =>
          obtain rfl := Option.some.inj (Except.ok.inj (hmoves.symm.trans hmoves'))
          rw [ih hrest]

end Steps

variable {K V : Type}

namespace Lanes

/-- **The moves of a search on the lanes below `level`**, on all of them together and in the order
in which they are made, and where it stops on each lane, the one of the base first. -/
inductive Descends (lanes : Lanes K V) (accepts : K → Nat → Bool) :
    (level : Nat) → (stop : Stop) → (trail stops : List Stop) → Prop where
  | arrived {stop : Stop} : Descends lanes accepts 0 stop [] []
  | lane {level : Nat} {stop : Stop} {moves trail stops : List Stop} :
      Trail (lanes.advance? accepts level) stop moves →
        Descends lanes accepts level (moves.getLastD stop) trail stops →
        Descends lanes accepts (level + 1) stop (moves ++ trail)
          (stops ++ [moves.getLastD stop])

/-- **The moves of a search for a place on the lanes below `level`**, on all of them together and in
the order in which they are made.  The search goes down no further when it stands at the place. -/
inductive Seeks (lanes : Lanes K V) (place : Nat) :
    (level : Nat) → (stop : Stop) → (trail : List Stop) → Prop where
  | arrived {stop : Stop} : Seeks lanes place 0 stop []
  | found {level : Nat} {stop : Stop} {moves : List Stop} :
      Trail (lanes.approach? place level) stop moves → (moves.getLastD stop).rank = place →
        Seeks lanes place (level + 1) stop moves
  | lane {level : Nat} {stop : Stop} {moves trail : List Stop} :
      Trail (lanes.approach? place level) stop moves → (moves.getLastD stop).rank ≠ place →
        Seeks lanes place level (moves.getLastD stop) trail →
        Seeks lanes place (level + 1) stop (moves ++ trail)

variable {lanes : Lanes K V} {accepts : K → Nat → Bool}

/-- A search goes only one way. -/
theorem Descends.unique {level : Nat} {stop : Stop} {trail trail' stops stops' : List Stop}
    (h : lanes.Descends accepts level stop trail stops)
    (h' : lanes.Descends accepts level stop trail' stops') : trail = trail' ∧ stops = stops' := by
  induction h generalizing trail' stops' with
  | arrived =>
      cases h'
      exact ⟨rfl, rfl⟩
  | lane hmoves _ ih =>
      cases h' with
      | lane hmoves' hbelow =>
          obtain rfl := hmoves.unique hmoves'
          obtain ⟨rfl, rfl⟩ := ih hbelow
          exact ⟨rfl, rfl⟩

/-- A search for a place goes only one way. -/
theorem Seeks.unique {place level : Nat} {stop : Stop} {trail trail' : List Stop}
    (h : lanes.Seeks place level stop trail) (h' : lanes.Seeks place level stop trail') :
    trail = trail' := by
  induction h generalizing trail' with
  | arrived =>
      cases h'
      rfl
  | found hmoves hrank =>
      cases h' with
      | found hmoves' _ => exact hmoves.unique hmoves'
      | lane hmoves' hrank' _ =>
          obtain rfl := hmoves.unique hmoves'
          exact absurd hrank hrank'
  | lane hmoves hrank _ ih =>
      cases h' with
      | found hmoves' hrank' =>
          obtain rfl := hmoves.unique hmoves'
          exact absurd hrank' hrank
      | lane hmoves' _ hbelow =>
          obtain rfl := hmoves.unique hmoves'
          rw [ih hbelow]

/-- A search ends where its last move leads. -/
theorem Descends.headD_eq {level : Nat} {stop : Stop} {trail stops : List Stop}
    (h : lanes.Descends accepts level stop trail stops) :
    stops.headD stop = trail.getLastD stop := by
  induction h with
  | arrived => rfl
  | @lane level stop moves trail stops _ _ ih =>
      have hlast : (moves ++ trail).getLastD stop = trail.getLastD (moves.getLastD stop) := by
        simp [List.getLastD_eq_getLast?]
      rw [hlast, ← ih]
      cases stops <;> rfl

/-- **A walk that does not give up** has made the moves of a trail, up to its end. -/
theorem exists_trail_of_walk {level moves : Nat} {stop last : Stop}
    (h : walk (lanes.advance? accepts level) moves stop = .ok last) :
    ∃ trail, Trail (lanes.advance? accepts level) stop trail ∧ trail.getLastD stop = last := by
  induction moves generalizing stop with
  | zero =>
      unfold walk at h
      obtain ⟨next?, hstep, h⟩ := Fault.bind_eq_ok_iff.1 h
      cases next? with
      | none => exact ⟨[], .stays hstep, Except.ok.inj h⟩
      | some next => cases h
  | succ moves ih =>
      unfold walk at h
      obtain ⟨next?, hstep, h⟩ := Fault.bind_eq_ok_iff.1 h
      cases next? with
      | none => exact ⟨[], .stays hstep, Except.ok.inj h⟩
      | some next =>
          obtain ⟨trail, htrail, hlast⟩ := ih h
          exact ⟨next :: trail, .moves hstep htrail, by rwa [List.getLastD_cons]⟩

theorem exists_descends_of_descend {level : Nat} {stop : Stop} {path result : List Stop}
    (h : lanes.descend accepts level stop path = .ok result) :
    ∃ trail stops, lanes.Descends accepts level stop trail stops ∧ result = stops ++ path := by
  induction level generalizing stop path with
  | zero =>
      obtain rfl : path = result := Except.ok.inj h
      exact ⟨[], [], .arrived, rfl⟩
  | succ level ih =>
      unfold descend at h
      obtain ⟨last, hwalk, h⟩ := Fault.bind_eq_ok_iff.1 h
      obtain ⟨moves, hmoves, rfl⟩ := exists_trail_of_walk hwalk
      obtain ⟨trail, stops, hbelow, rfl⟩ := ih h
      exact ⟨moves ++ trail, stops ++ [moves.getLastD stop], .lane hmoves hbelow, by simp⟩

/-- **A search that does not give up** has made the moves of a search that nothing counts. -/
theorem exists_descends_of_search {height : Nat} {stops : List Stop}
    (h : lanes.search accepts height = .ok stops) :
    ∃ trail, lanes.Descends accepts height {} trail stops := by
  obtain ⟨trail, stops', hdescends, rfl⟩ := exists_descends_of_descend h
  rw [List.append_nil]
  exact ⟨trail, hdescends⟩

end Lanes

/-! ### Trails through a row -/

/-- **Stops at accepted sites, each ahead of the one before**: `behind` is what lies behind the
start, and `ahead` what lies ahead of it. -/
inductive LeadsAhead (accepts : K → Nat → Bool) :
    (behind ahead : List (Site K V)) → (trail : List Stop) → Prop where
  | stays {behind ahead : List (Site K V)} : LeadsAhead accepts behind ahead []
  | moves {behind passed ahead : List (Site K V)} {site : Site K V} {trail : List Stop} :
      accepts site.key (behind.length + passed.length + 1) = true →
        LeadsAhead accepts (behind ++ passed ++ [site]) ahead trail →
        LeadsAhead accepts behind (passed ++ site :: ahead)
          (stopAfter (behind ++ passed ++ [site]) :: trail)

namespace LeadsAhead

variable {accepts : K → Nat → Bool} {behind ahead : List (Site K V)} {trail : List Stop}

/-- Every stop is behind an accepted site of the row. -/
theorem exists_site (h : LeadsAhead accepts behind ahead trail) : ∀ stop ∈ trail,
    ∃ before site after, behind ++ ahead = before ++ site :: after ∧
      stop = stopAfter (before ++ [site]) ∧ accepts site.key (before.length + 1) = true := by
  induction h with
  | stays => simp
  | @moves behind passed ahead site trail haccepts _ ih =>
      intro stop hstop
      rcases List.mem_cons.1 hstop with rfl | hstop
      · exact ⟨behind ++ passed, site, ahead, by simp, rfl, by rwa [List.length_append]⟩
      · obtain ⟨before, other, after, hrow, hat, hother⟩ := ih stop hstop
        exact ⟨before, other, after, by simpa using hrow, hat, hother⟩

/-- **The ranks ascend.** -/
theorem ranks_ascend (h : LeadsAhead accepts behind ahead trail) :
    (behind.length :: trail.map (·.rank)).Pairwise (· < ·) := by
  induction h with
  | stays => simp
  | @moves behind passed ahead site trail _ _ ih =>
      have hfirst : behind.length < (behind ++ passed ++ [site]).length := by
        simp only [List.length_append, List.length_singleton]
        omega
      rw [List.map_cons, List.pairwise_cons]
      refine ⟨fun rank hrank => ?_, ih⟩
      rcases List.mem_cons.1 hrank with rfl | hrank
      · exact hfirst
      · exact hfirst.trans (List.rel_of_pairwise_cons ih hrank)

/-- **There are no more moves than sites ahead that may be accepted.** -/
theorem length_le_countP (h : LeadsAhead accepts behind ahead trail) {may : Site K V → Bool}
    (hmay : ∀ site rank, accepts site.key rank = true → may site = true) :
    trail.length ≤ ahead.countP may := by
  induction h with
  | stays => simp
  | moves haccepts _ ih =>
      rw [List.countP_append, List.countP_cons_of_pos (hmay _ _ haccepts), List.length_cons]
      omega

/-- **There are no more moves than ranks ahead that may be accepted.** -/
theorem length_le_rank (h : LeadsAhead accepts behind ahead trail) {greatest : Nat}
    (hstart : behind.length ≤ greatest)
    (hrank : ∀ key rank, accepts key rank = true → rank ≤ greatest) :
    behind.length + trail.length ≤ greatest := by
  induction h with
  | stays => simpa using hstart
  | moves haccepts _ ih =>
      have hnext := hrank _ _ haccepts
      simp only [List.length_append, List.length_cons] at ih ⊢
      have := ih (by omega)
      omega

end LeadsAhead

namespace Lanes

namespace Represents

variable {lanes : Lanes K V} {height : Nat} {sites : List (Site K V)} {vacant : List NodeId}
  {accepts : K → Nat → Bool}

/-! ### Searches for a place -/

/-- A search that stands at the place makes no moves. -/
theorem trail_eq_nil_of_arrived (h : lanes.Represents height sites vacant) {place level : Nat}
    (hlevel : level ≤ height) {stop : Stop} {trail stops : List Stop} (hstop : stop.rank = place)
    (hdescends : lanes.Descends (fun _ rank => rank ≤ place) level stop trail stops) :
    trail = [] := by
  induction level generalizing trail stops with
  | zero =>
      cases hdescends
      rfl
  | succ level ih =>
      cases hdescends with
      | lane hmoves hbelow =>
          rw [← h.approach?_eq hlevel] at hmoves
          cases hmoves with
          | stays _ => exact ih (by omega) hbelow
          | moves hmove _ => cases h.approach?_of_arrived hlevel hstop hmove

/-- **The moves of a search for a place** are those of the search that accepts the places up to
it. -/
theorem seeks_of_descends (h : lanes.Represents height sites vacant) {place level : Nat}
    (hlevel : level ≤ height) {stop : Stop} {trail stops : List Stop}
    (hdescends : lanes.Descends (fun _ rank => rank ≤ place) level stop trail stops) :
    lanes.Seeks place level stop trail := by
  induction level generalizing stop trail stops with
  | zero =>
      cases hdescends
      exact .arrived
  | succ level ih =>
      cases hdescends with
      | @lane _ _ moves below _ hmoves hbelow =>
          rw [← h.approach?_eq hlevel] at hmoves
          by_cases hrank : (moves.getLastD stop).rank = place
          · rw [h.trail_eq_nil_of_arrived (by omega) hrank hbelow, List.append_nil]
            exact .found hmoves hrank
          · exact .lane hmoves hrank (ih (by omega) hbelow)

/-! ### Moves through a row -/

/-- **Where a move leads**: to an accepted site ahead that stands on the lane. -/
theorem exists_of_advance? (h : lanes.Represents height sites vacant)
    (hfits : sites.length < Counter.bound) {behind ahead : List (Site K V)}
    (hsites : sites = behind ++ ahead) {level : Nat} (hlevel : level < levelsAfter height behind)
    {next : Stop} (hmove : lanes.advance? accepts level (stopAfter behind) = .ok (some next)) :
    ∃ passed site rest, ahead = passed ++ site :: rest ∧ level < site.height ∧
      accepts site.key (behind.length + passed.length + 1) = true ∧
      next = stopAfter (behind ++ passed ++ [site]) := by
  rcases exists_first_tall level ahead with hshort | ⟨passed, site, rest, rfl, hshort, htall⟩
  · rw [h.advance?_short hsites hlevel hshort] at hmove
    cases hmove
  · rw [h.advance?_tall hfits hsites hlevel hshort htall] at hmove
    cases haccepts : accepts site.key (behind.length + passed.length + 1) with
    | false => simp [haccepts] at hmove
    | true =>
        rw [haccepts, if_pos rfl] at hmove
        have hnext := (Option.some.inj (Except.ok.inj hmove)).symm
        exact ⟨passed, site, rest, rfl, htall, haccepts, hnext⟩

/-- **The trail of a walk leads ahead**, and where it ends there is a link on the lane; so any trail
that leads ahead from there goes on with it. -/
theorem leadsAhead_of_trail (h : lanes.Represents height sites vacant)
    (hfits : sites.length < Counter.bound) {level : Nat} {moves : List Stop} :
    ∀ {behind ahead : List (Site K V)}, sites = behind ++ ahead →
      level < levelsAfter height behind →
      Trail (lanes.advance? accepts level) (stopAfter behind) moves →
      ∃ behind' ahead', sites = behind' ++ ahead' ∧ level < levelsAfter height behind' ∧
        moves.getLastD (stopAfter behind) = stopAfter behind' ∧
        ∀ trail, LeadsAhead accepts behind' ahead' trail →
          LeadsAhead accepts behind ahead (moves ++ trail) := by
  induction moves with
  | nil =>
      intro behind ahead hsites hlevel _
      exact ⟨behind, ahead, hsites, hlevel, rfl, fun _ htrail => htrail⟩
  | cons next moves ih =>
      intro behind ahead hsites hlevel htrail
      cases htrail with
      | moves hmove hrest =>
          obtain ⟨passed, site, rest, rfl, htall, haccepts, rfl⟩ :=
            h.exists_of_advance? hfits hsites hlevel hmove
          have hrow : sites = (behind ++ passed ++ [site]) ++ rest := by simp [hsites]
          obtain ⟨behind', ahead', hsites', hlevel', hlast, hgoes⟩ :=
            ih hrow (by rwa [levelsAfter_concat]) hrest
          refine ⟨behind', ahead', hsites', hlevel', ?_, fun trail hahead => ?_⟩
          · rwa [List.getLastD_cons]
          · exact .moves haccepts (hgoes trail hahead)

/-- **A search only leads ahead**, on all lanes together. -/
theorem leadsAhead_of_descends (h : lanes.Represents height sites vacant)
    (hfits : sites.length < Counter.bound) {level : Nat} {trail stops : List Stop} :
    ∀ {behind ahead : List (Site K V)}, sites = behind ++ ahead →
      level ≤ levelsAfter height behind →
      lanes.Descends accepts level (stopAfter behind) trail stops →
      LeadsAhead accepts behind ahead trail := by
  -- where the walk on a lane ends there are links on all lanes below
  induction level generalizing trail stops with
  | zero =>
      intro behind ahead _ _ hdescends
      cases hdescends
      exact .stays
  | succ level ih =>
      intro behind ahead hsites hlevel hdescends
      cases hdescends with
      | lane hmoves hbelow =>
          obtain ⟨behind', ahead', hsites', hlevel', hlast, hgoes⟩ :=
            h.leadsAhead_of_trail hfits hsites hlevel hmoves
          rw [hlast] at hbelow
          exact hgoes _ (ih hsites' hlevel'.le hbelow)

end Represents

end Lanes

end IndexedSkipList
