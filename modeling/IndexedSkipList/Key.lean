/-
**Keys, their orders, and what is looked for among them.**

Whatever has a lawful comparison (`Std.TransOrd`) can be a key: numbers, texts by their code points,
rows lexicographically, keys that may be missing.  This module adds pairs, ordered by their first
part and then by their second, the unit type, keys in descending order, and texts among which the
case of the letters of ASCII does not count.  The last kind is the one in which two different keys,
two spellings of a text, are equal in the order.

A search needs to know of each key only whether it lies below, at or above what is sought.  A target
is exactly that: a map from keys to `Ordering`.  So one search serves for keys themselves, and for
anything else that keys can be compared with, such as a view that keys are looked up by.

Main definitions:

* `Descending` — keys in descending order;
* `CaseFolded` — texts up to the case of the letters of ASCII;
* `Target` — how keys lie to what is sought;
* `Target.of`, `Target.via` — the target of a key, and that of a view.

Main results:

* instances of `Std.TransOrd` for all four kinds of keys.
-/

set_option relaxedAutoImplicit false
set_option autoImplicit false

namespace IndexedSkipList

/-! ### Pairs and the unit type -/

/-- Pairs are ordered by their first part, and among equal ones by their second. -/
instance Order.pair {A B : Type} [Ord A] [Ord B] : Ord (A × B) := lexOrd

instance Order.pair_trans {A B : Type} [Ord A] [Ord B] [Std.TransOrd A] [Std.TransOrd B] :
    Std.TransOrd (A × B) := inferInstanceAs (@Std.TransOrd (A × B) lexOrd)

/-- The one value of the unit type is equal to itself. -/
instance Order.unit : Ord Unit where
  compare _ _ := .eq

instance Order.unit_trans : @Std.TransOrd Unit Order.unit where
  eq_swap := rfl
  isLE_trans _ _ := rfl

/-! ### Descending order -/

/-- A key in descending order. -/
structure Descending (A : Type) where
  value : A
  deriving DecidableEq

namespace Descending

variable {A : Type} [Ord A]

instance : Ord (Descending A) where
  compare a b := compare b.value a.value

instance [Std.TransOrd A] : Std.TransOrd (Descending A) where
  eq_swap := Std.OrientedOrd.eq_swap (α := A)
  isLE_trans h h' := Std.TransOrd.isLE_trans (α := A) h' h

end Descending

/-! ### Texts up to case -/

/-- A text in which the case of the letters of ASCII does not count. -/
structure CaseFolded where
  text : String
  deriving DecidableEq

namespace CaseFolded

/-- The text with small letters in the place of the capitals of ASCII. -/
def folded (key : CaseFolded) : String := key.text.map Char.toLower

instance : Ord CaseFolded where
  compare a b := compare a.folded b.folded

instance : Std.TransOrd CaseFolded where
  eq_swap := Std.OrientedOrd.eq_swap (α := String)
  isLE_trans h h' := Std.TransOrd.isLE_trans (α := String) h h'

end CaseFolded

/-! ### Targets -/

/-- How keys lie to what is sought: below it (`.lt`), at it (`.eq`) or above it (`.gt`). -/
abbrev Target (K : Type) := K → Ordering

namespace Target

/-- The target that is met by the keys equal to `key`. -/
def of {K : Type} [Ord K] (key : K) : Target K := fun stored => compare stored key

/-- The target that is met by the keys whose view equals `sought`. -/
def via {K Q : Type} [Ord Q] (view : K → Q) (sought : Q) : Target K :=
  fun stored => compare (view stored) sought

end Target

end IndexedSkipList
