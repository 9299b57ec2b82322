/-
**How a target divides a sorted row.**

A target that agrees with the order of the keys divides a sorted row into the items below it and the
items above it, with at most one item in between that meets it.  All that a map does with a target
is decided by this division: what it finds, what it changes, what it takes out and where it puts
something in.

To agree with the order means that of two keys the lower one is below the target or the higher one
is above it.  A key as a target does so, and so does every view of the keys whose order is that of
the keys.

Main definitions:

* `Target.Agrees` — the target agrees with the order of the keys;
* `Parted` — what lies below and what lies above;
* `placeIn`, `changeIn`, `dropFrom` — a row with an item put in, changed or taken out.

Main results:

* `Target.agrees_via` — a view with the order of the keys gives targets that agree with it;
* `exists_parted` — **a sorted row is divided by every target that agrees with the order**;
* `Parted.find?_absent`, `Parted.find?_present`, `Parted.placeIn_eq`, `Parted.changeIn_present`,
  `Parted.dropFrom_present` — what is found, put in, changed and taken out;
* `Parted.pairwise_middle` — a row stays sorted.
-/

import IndexedSkipList.Key
import Mathlib.Data.List.Basic

set_option relaxedAutoImplicit false
set_option autoImplicit false

namespace IndexedSkipList

/-! ### Targets that agree with the order -/

namespace Target

variable {K : Type} [Ord K]

/-- **The target agrees with the order of the keys**: of two keys, the lower one is below it or the
higher one is above it. -/
def Agrees (target : Target K) : Prop :=
  ∀ a b : K, compare a b = .lt → target a = .lt ∨ target b = .gt

/-- A view of the keys that has their order gives targets that agree with it. -/
theorem agrees_via {Q : Type} [Ord Q] [Std.TransOrd Q] (view : K → Q)
    (hview : ∀ a b, compare (view a) (view b) = compare a b) (sought : Q) :
    (Target.via view sought).Agrees := by
  intro a b hab
  rw [← hview] at hab
  unfold Target.via
  cases hb : compare (view b) sought with
  | lt => exact Or.inl (Std.TransCmp.lt_trans hab hb)
  | eq => exact Or.inl (Std.TransCmp.lt_of_lt_of_eq hab hb)
  | gt => exact Or.inr rfl

/-- A key as a target agrees with the order. -/
theorem agrees_of [Std.TransOrd K] (key : K) : (Target.of key).Agrees :=
  agrees_via id (fun _ _ => rfl) key

end Target

/-! ### The division of a row -/

/-- `behind` lies below and `ahead` lies above what is sought. -/
structure Parted {A : Type} (sought : A → Ordering) (behind ahead : List A) : Prop where
  below : ∀ a ∈ behind, sought a = .lt
  above : ∀ a ∈ ahead, sought a = .gt

/-- **A sorted row is divided by every target that agrees with the order**, with at most one item in
between that meets the target. -/
theorem exists_parted {A K : Type} [Ord K] {target : Target K} (hagrees : target.Agrees)
    {key : A → K} {row : List A}
    (hsorted : row.Pairwise fun a b => compare (key a) (key b) = .lt) :
    (∃ behind ahead, row = behind ++ ahead ∧ Parted (fun a => target (key a)) behind ahead) ∨
      ∃ behind met ahead, row = behind ++ met :: ahead ∧ target (key met) = .eq ∧
        Parted (fun a => target (key a)) behind ahead := by
  induction row with
  | nil => exact Or.inl ⟨[], [], rfl, ⟨by simp, by simp⟩⟩
  | cons first row ih =>
      obtain ⟨hfirst, hrow⟩ := List.pairwise_cons.1 hsorted
      -- once an item is not below the target, the items after it are above
      have habove : target (key first) ≠ .lt → ∀ a ∈ row, target (key a) = .gt :=
        fun hnot a ha => (hagrees _ _ (hfirst a ha)).resolve_left hnot
      cases hcase : target (key first) with
      | lt =>
          have hbelow : ∀ {behind : List A}, (∀ a ∈ behind, target (key a) = .lt) →
              ∀ a ∈ first :: behind, target (key a) = .lt := by
            intro behind hbehind a ha
            rcases List.mem_cons.1 ha with rfl | ha
            · exact hcase
            · exact hbehind a ha
          rcases ih hrow with
            ⟨behind, ahead, rfl, hparted⟩ | ⟨behind, met, ahead, rfl, hmet, hparted⟩
          · exact Or.inl ⟨first :: behind, ahead, rfl, hbelow hparted.below, hparted.above⟩
          · exact Or.inr ⟨first :: behind, met, ahead, rfl, hmet, hbelow hparted.below,
              hparted.above⟩
      | eq => exact Or.inr ⟨[], first, row, rfl, hcase, by simp, habove (by simp [hcase])⟩
      | gt =>
          refine Or.inl ⟨[], first :: row, rfl, by simp, fun a ha => ?_⟩
          rcases List.mem_cons.1 ha with rfl | ha
          · exact hcase
          · exact habove (by simp [hcase]) a ha

/-- Below the target there are as many items as lie behind the place where it divides the row. -/
theorem countP_below {A : Type} {sought : A → Ordering} {behind ahead : List A}
    (hbehind : ∀ a ∈ behind, sought a = .lt) (hahead : ∀ a ∈ ahead, sought a ≠ .lt) :
    (behind ++ ahead).countP (fun a => sought a = .lt) = behind.length := by
  have hall : behind.countP (fun a => sought a = .lt) = behind.length :=
    List.countP_eq_length.2 fun a ha => by simpa using hbehind a ha
  have hnone : ahead.countP (fun a => sought a = .lt) = 0 :=
    List.countP_eq_zero.2 fun a ha => by simpa using hahead a ha
  rw [List.countP_append, hall, hnone, Nat.add_zero]

/-! ### Changes of a row -/

section Changes

variable {A B : Type}

/-- The row with an item put in behind those below the target. -/
def placeIn (sought : A → Ordering) (item : A) (row : List A) : List A :=
  row.takeWhile (fun a => sought a = .lt) ++ item :: row.dropWhile (fun a => sought a = .lt)

/-- The row with what meets the target changed. -/
def changeIn (sought : A → Ordering) (f : A → A) (row : List A) : List A :=
  row.map fun a => if sought a = .eq then f a else a

/-- The row without what meets the target. -/
def dropFrom (sought : A → Ordering) (row : List A) : List A :=
  row.filter fun a => sought a ≠ .eq

theorem map_placeIn (f : A → B) (sought : B → Ordering) (item : A) (row : List A) :
    (placeIn (fun a => sought (f a)) item row).map f = placeIn sought (f item) (row.map f) := by
  simp [placeIn, List.takeWhile_map, List.dropWhile_map, Function.comp_def]

theorem map_changeIn (f : A → B) (sought : B → Ordering) {g : A → A} {g' : B → B}
    (h : ∀ a, f (g a) = g' (f a)) (row : List A) :
    (changeIn (fun a => sought (f a)) g row).map f = changeIn sought g' (row.map f) := by
  rw [changeIn, changeIn, List.map_map, List.map_map]
  refine List.map_congr_left fun a _ => ?_
  simp only [Function.comp_apply]
  split
  · exact h a
  · rfl

theorem map_dropFrom (f : A → B) (sought : B → Ordering) (row : List A) :
    (dropFrom (fun a => sought (f a)) row).map f = dropFrom sought (row.map f) := by
  rw [dropFrom, dropFrom, List.filter_map]
  rfl

/-- An item that is put in is one item more, wherever it comes to stand. -/
theorem placeIn_perm (sought : A → Ordering) (item : A) (row : List A) :
    (placeIn sought item row).Perm (item :: row) := by
  refine List.perm_middle.trans (List.Perm.cons item ?_)
  rw [List.takeWhile_append_dropWhile]

@[simp] theorem length_placeIn (sought : A → Ordering) (item : A) (row : List A) :
    (placeIn sought item row).length = row.length + 1 := (placeIn_perm sought item row).length_eq

@[simp] theorem length_changeIn (sought : A → Ordering) (f : A → A) (row : List A) :
    (changeIn sought f row).length = row.length := List.length_map ..

theorem changeIn_eq_self {sought : A → Ordering} {row : List A} (h : ∀ a ∈ row, sought a ≠ .eq)
    (f : A → A) : changeIn sought f row = row := by
  conv_rhs => rw [← List.map_id row]
  exact List.map_congr_left fun a ha => if_neg (h a ha)

theorem dropFrom_eq_self {sought : A → Ordering} {row : List A} (h : ∀ a ∈ row, sought a ≠ .eq) :
    dropFrom sought row = row :=
  List.filter_eq_self.2 fun a ha => by simpa using h a ha

end Changes

namespace Parted

variable {A B : Type} {sought : A → Ordering} {behind ahead : List A} {met : A}

/-- The division of a row is that of its images, if the target looks at the images alone. -/
theorem map (f : A → B) {sought : B → Ordering}
    (h : Parted (fun a => sought (f a)) behind ahead) :
    Parted sought (behind.map f) (ahead.map f) where
  below := by simpa using h.below
  above := by simpa using h.above

theorem find?_absent (h : Parted sought behind ahead) :
    (behind ++ ahead).find? (fun a => sought a = .eq) = none := by
  refine List.find?_eq_none.2 fun a ha => ?_
  rcases List.mem_append.1 ha with ha | ha
  · simp [h.below a ha]
  · simp [h.above a ha]

theorem find?_present (h : Parted sought behind ahead) (hmet : sought met = .eq) :
    (behind ++ met :: ahead).find? (fun a => sought a = .eq) = some met := by
  rw [List.find?_append, List.find?_eq_none.2 fun a ha => by simp [h.below a ha]]
  simp [hmet]

theorem below_ne (h : Parted sought behind ahead) : ∀ a ∈ behind, sought a ≠ .eq :=
  fun a ha => by simp [h.below a ha]

theorem above_ne (h : Parted sought behind ahead) : ∀ a ∈ ahead, sought a ≠ .eq :=
  fun a ha => by simp [h.above a ha]

theorem ahead_unmet (h : Parted sought behind ahead) : ∀ a ∈ ahead.head?, sought a ≠ .eq :=
  fun a ha => h.above_ne a (List.mem_of_mem_head? ha)

theorem above_not_lt (h : Parted sought behind ahead) : ∀ a ∈ ahead, sought a ≠ .lt :=
  fun a ha => by simp [h.above a ha]

theorem met_not_lt (h : Parted sought behind ahead) (hmet : sought met = .eq) :
    ∀ a ∈ met :: ahead, sought a ≠ .lt :=
  List.forall_mem_cons.2 ⟨by simp [hmet], h.above_not_lt⟩

/-- Nothing that lies below or above meets the target. -/
theorem unmet (h : Parted sought behind ahead) : ∀ a ∈ behind ++ ahead, sought a ≠ .eq :=
  fun a ha => (List.mem_append.1 ha).elim (h.below_ne a) (h.above_ne a)

/-- Only the item in between meets the target. -/
theorem eq_of_met (h : Parted sought behind ahead) {a : A} (ha : a ∈ behind ++ met :: ahead)
    (hsought : sought a = .eq) : a = met := by
  rcases List.mem_append.1 ha with hbehind | hahead
  · exact absurd hsought (h.below_ne a hbehind)
  · rcases List.mem_cons.1 hahead with hmet | hahead
    · exact hmet
    · exact absurd hsought (h.above_ne a hahead)

/-- **An item is put in behind the items below.** -/
theorem placeIn_eq (h : Parted sought behind ahead) (item : A) :
    placeIn sought item (behind ++ ahead) = behind ++ item :: ahead := by
  have hbelow : ∀ a ∈ behind, decide (sought a = .lt) = true := fun a ha => by simp [h.below a ha]
  rw [placeIn, List.takeWhile_append_of_pos hbelow, List.dropWhile_append_of_pos hbelow]
  cases ahead with
  | nil => simp
  | cons first ahead => simp [h.above first (List.mem_cons_self ..)]

/-- Changing what meets the target changes the one item in between. -/
theorem changeIn_present (h : Parted sought behind ahead) (hmet : sought met = .eq) (f : A → A) :
    changeIn sought f (behind ++ met :: ahead) = behind ++ f met :: ahead := by
  have hbehind := changeIn_eq_self h.below_ne f
  have hahead := changeIn_eq_self h.above_ne f
  rw [changeIn] at hbehind hahead ⊢
  rw [List.map_append, List.map_cons, if_pos hmet, hbehind, hahead]

/-- Changing what meets the target changes nothing if nothing does. -/
theorem changeIn_absent (h : Parted sought behind ahead) (f : A → A) :
    changeIn sought f (behind ++ ahead) = behind ++ ahead := changeIn_eq_self h.unmet f

/-- Taking out what meets the target takes out the one item in between. -/
theorem dropFrom_present (h : Parted sought behind ahead) (hmet : sought met = .eq) :
    dropFrom sought (behind ++ met :: ahead) = behind ++ ahead := by
  have hbehind := dropFrom_eq_self h.below_ne
  have hahead := dropFrom_eq_self h.above_ne
  rw [dropFrom] at hbehind hahead ⊢
  rw [List.filter_append, List.filter_cons_of_neg (by simp [hmet]), hbehind, hahead]

/-- Taking out what meets the target takes out nothing if nothing does. -/
theorem dropFrom_absent (h : Parted sought behind ahead) :
    dropFrom sought (behind ++ ahead) = behind ++ ahead := dropFrom_eq_self h.unmet

theorem findIdx?_absent (h : Parted sought behind ahead) :
    (behind ++ ahead).findIdx? (fun a => sought a = .eq) = none := by
  refine List.findIdx?_eq_none_iff.2 fun a ha => ?_
  rcases List.mem_append.1 ha with ha | ha
  · simp [h.below a ha]
  · simp [h.above a ha]

/-- A target among the items of a row is as far from the start as there are items below. -/
theorem findIdx?_present (h : Parted sought behind ahead) (hmet : sought met = .eq) :
    (behind ++ met :: ahead).findIdx? (fun a => sought a = .eq) = some behind.length := by
  have hbehind : behind.findIdx? (fun a => sought a = .eq) = none :=
    List.findIdx?_eq_none_iff.2 fun a ha => by simp [h.below a ha]
  simp [List.findIdx?_append, hbehind, List.findIdx?_cons, hmet]

/-- A target that meets a key divides a row where the key does. -/
theorem of_agrees {K : Type} [Ord K] [Std.OrientedOrd K] {key : A → K} {sought : K}
    {target : Target K} (h : Parted (fun a => compare (key a) sought) behind ahead)
    (hagrees : target.Agrees) (hmet : target sought = .eq) :
    Parted (fun a => target (key a)) behind ahead where
  below a ha := (hagrees _ _ (h.below a ha)).resolve_right (by simp [hmet])
  above a ha :=
    (hagrees _ _ (Std.OrientedCmp.lt_of_gt (h.above a ha))).resolve_left (by simp [hmet])

/-- An item of a sorted row divides the others. -/
theorem of_pairwise {K : Type} [Ord K] [Std.OrientedOrd K] (key : A → K)
    (hsorted : (behind ++ met :: ahead).Pairwise fun a b => compare (key a) (key b) = .lt) :
    Parted (fun a => compare (key a) (key met)) behind ahead := by
  obtain ⟨_, hrest, hacross⟩ := List.pairwise_append.1 hsorted
  constructor
  · exact fun a ha => hacross a ha met (List.mem_cons_self ..)
  · exact fun a ha => Std.OrientedCmp.gt_of_lt ((List.pairwise_cons.1 hrest).1 a ha)

/-- **An item that is put in between keeps the row sorted.** -/
theorem pairwise_middle {K : Type} [Ord K] [Std.TransOrd K] (key : A → K) {item : A}
    (h : Parted (fun a => compare (key a) (key item)) behind ahead)
    (hsorted : (behind ++ ahead).Pairwise fun a b => compare (key a) (key b) = .lt) :
    (behind ++ item :: ahead).Pairwise fun a b => compare (key a) (key b) = .lt := by
  obtain ⟨hbehind, hahead, hacross⟩ := List.pairwise_append.1 hsorted
  refine List.pairwise_append.2 ⟨hbehind, List.pairwise_cons.2 ⟨?_, hahead⟩, ?_⟩
  · exact fun a ha => Std.OrientedCmp.lt_of_gt (h.above a ha)
  · intro a ha b hb
    rcases List.mem_cons.1 hb with rfl | hb
    · exact h.below a ha
    · exact hacross a ha b hb

end Parted

/-- What is met by a target divides a sorted row. -/
theorem exists_parted_of_met {A K : Type} [Ord K] {target : Target K} (hagrees : target.Agrees)
    {key : A → K} {row : List A}
    (hsorted : row.Pairwise fun a b => compare (key a) (key b) = .lt) {a : A} (ha : a ∈ row)
    (hmet : target (key a) = .eq) :
    ∃ behind ahead, row = behind ++ a :: ahead ∧
      Parted (fun a => target (key a)) behind ahead := by
  rcases exists_parted hagrees hsorted with
    ⟨behind, ahead, rfl, hparted⟩ | ⟨behind, met, ahead, rfl, _, hparted⟩
  · exact absurd hmet (hparted.unmet a ha)
  · obtain rfl : a = met := hparted.eq_of_met ha hmet
    exact ⟨behind, ahead, rfl, hparted⟩

end IndexedSkipList
