/-
**Doubles as bit patterns that denote exact numbers.**

A double is its sixty-four bits: a sign, eleven bits of exponent and fifty-two of fraction.  All
that is said of it here is said of the number it denotes, taken exactly: its magnitude is a whole
number of units of `2 ^ (-1074)`, the smallest positive double, and infinity counts as `2 ^ 1024`,
which lies above every finite double.  The order of doubles is the order of these numbers, so the
two zeros are equal; a pattern that is not a number is neither below, above nor equal to anything,
itself included.

A whole number of units is a double exactly if it has at most fifty-three significant bits (as long
as it is not too large for one).  Rounding drops the bits beyond, to the nearer neighbour, and to
the one whose last kept bit is zero where both are equally near.  This is what a multiplication of
doubles does to the exact product.

Reading a decimal number gives the double nearest to it, so the numbers that read back as a double
fill the interval around it that reaches half way to its neighbours.  The ends of the interval
belong to it where the fraction is even, because a tie goes to the even neighbour; and below a power
of two the way to the lower neighbour is half as long.  Of the decimal numbers in the interval the
ones with the fewest digits are wanted, and of those the one nearest to the double, the larger one
where two are equally near.  With a given number of digits only the two decimal numbers around the
double can be the nearest, so for one, two, … seventeen digits these two are tested, in exact
arithmetic: all lengths are whole numbers of quarters of the unit, over a common denominator.

A layout says where the digits are written positionally and where with an exponent, and whether a
whole number shows a decimal point.  Two layouts are in use: the plain one, for messages, never
shows an exponent, and the labelled one, for the inspection of values, shows every number as one
that is not a plain integer.  What is not a finite number has the same text in both: `NaN`, without
a sign, `inf` and `-inf`.  Zero keeps its sign.

Main definitions:

* `Binary64` — sixty-four bits;
* `Binary64.magnitude`, `Binary64.units` — the number denoted, without and with its sign;
* `Binary64.le`, `Binary64.lt`, `Binary64.equals` — the comparisons;
* `Binary64.divideEven` — a quotient rounded to the nearest whole number, a half to the even one;
* `Binary64.roundUnits` — a number of units rounded to fifty-three significant bits;
* `Decimal` — significant digits and the place of the decimal point;
* `Binary64.Interval`, `Binary64.shortest` — the numbers that read back, and the shortest of them;
* `Decimal.Layout`, `Decimal.Layout.plain`, `Decimal.Layout.labelled` — the layouts;
* `Binary64.text` — the text of a double in a layout.

Main results:

* `Binary64.equals_comm`, `Binary64.equals_self_iff` — equality is symmetric, and fails to be
  reflexive exactly where the pattern is not a number;
* `Binary64.roundUnits_of_lt` — a number that fits is left alone.
-/

set_option relaxedAutoImplicit false
set_option autoImplicit false

namespace IndexedSkipList

/-- A double, given by its bits. -/
structure Binary64 where
  bits : UInt64
  deriving DecidableEq

namespace Binary64

/-! ### The fields of a pattern -/

/-- The number of fractions, `2 ^ 52`, which is also the value of the leading one before them. -/
def leadingOne : Nat := 0x10000000000000

/-- The sign bit, which is the one at `2 ^ 63`. -/
def isNegative (x : Binary64) : Bool := 0x8000000000000000 ≤ x.bits.toNat

/-- The field of the exponent, eleven bits above the fraction. -/
def exponentField (x : Binary64) : Nat := x.bits.toNat / leadingOne % 2048

/-- The field of the fraction. -/
def fraction (x : Binary64) : Nat := x.bits.toNat % leadingOne

/-- The pattern denotes no number. -/
def isNaN (x : Binary64) : Bool := x.exponentField = 2047 ∧ x.fraction ≠ 0

/-- The pattern denotes one of the two infinities. -/
def isInfinite (x : Binary64) : Bool := x.exponentField = 2047 ∧ x.fraction = 0

/-! ### The number denoted -/

/-- How many units of `2 ^ (-1074)` make one. -/
def unitsOfOne : Nat := Nat.pow 2 1074

/-- The magnitude in units of `2 ^ (-1074)`: the fraction itself where the exponent field is zero,
else the fraction with a leading one, doubled once for each step of the exponent. -/
def magnitude (x : Binary64) : Nat :=
  if x.exponentField = 0 then x.fraction
  else (leadingOne + x.fraction) * Nat.pow 2 (x.exponentField - 1)

/-- The number denoted, in units of `2 ^ (-1074)`. -/
def units (x : Binary64) : Int :=
  if x.isNegative then -(x.magnitude : Int) else x.magnitude

/-! ### Comparisons -/

/-- Both are numbers, and the first is at most the second. -/
def le (x y : Binary64) : Bool := !x.isNaN && !y.isNaN && decide (x.units ≤ y.units)

/-- Both are numbers, and the first is below the second. -/
def lt (x y : Binary64) : Bool := !x.isNaN && !y.isNaN && decide (x.units < y.units)

/-- Both are numbers, and the same one. -/
def equals (x y : Binary64) : Bool := !x.isNaN && !y.isNaN && decide (x.units = y.units)

theorem equals_comm (x y : Binary64) : x.equals y = y.equals x := by
  simp only [equals, Bool.and_comm (!x.isNaN), eq_comm (a := x.units)]

theorem equals_self_iff (x : Binary64) : x.equals x = true ↔ x.isNaN = false := by
  simp [equals]

/-! ### Patterns with a name -/

/-- Zero, without a sign. -/
def zero : Binary64 := ⟨0⟩

/-- A quarter. -/
def quarter : Binary64 := ⟨0x3fd0000000000000⟩

/-- One. -/
def one : Binary64 := ⟨0x3ff0000000000000⟩

theorem units_zero : zero.units = 0 := by decide

/-! ### Rounding -/

/-- The whole number nearest to `n / d`; of two equally near ones the even one. -/
def divideEven (n d : Nat) : Nat :=
  let below := n / d
  let rest := 2 * (n % d)
  if rest < d ∨ (rest = d ∧ below % 2 = 0) then below else below + 1

/-- The number of bits of `n` beyond the fifty-third, counted from the top. -/
def excess (n : Nat) : Nat := n.log2 + 1 - 53

/-- `n` rounded to fifty-three significant bits. -/
def roundUnits (n : Nat) : Nat :=
  let step := Nat.pow 2 (excess n)
  divideEven n step * step

theorem divideEven_one (n : Nat) : divideEven n 1 = n := by
  simp [divideEven, Nat.mod_one]

/-- A number of at most fifty-three bits is left alone. -/
theorem roundUnits_of_lt {n : Nat} (h : n < 2 * leadingOne) : roundUnits n = n := by
  have hx : excess n = 0 := by
    unfold excess
    rcases Nat.eq_zero_or_pos n with rfl | hn
    · simp
    · have := (Nat.log2_lt (k := 53) (Nat.ne_of_gt hn)).2 h
      omega
  simp [roundUnits, hx, divideEven_one]

end Binary64

/-! ### The fewest decimal digits -/

/-- The number `0.d₁d₂d₃… · 10 ^ point`; there is no zero at either end of the digits. -/
structure Decimal where
  digits : List Char
  point : Int
  deriving DecidableEq

/-- The decimal number `n · 10 ^ exponent`. -/
def Decimal.ofNat (n : Nat) (exponent : Int) : Decimal :=
  let digits := Nat.toDigits 10 n
  { digits := (digits.reverse.dropWhile (· = '0')).reverse
    point := exponent + digits.length }

namespace Binary64

/-! ### The interval that reads back -/

/-- The numbers that read back as a double, in quarters of the unit `2 ^ (-1074)`. -/
structure Interval where
  /-- The lower end. -/
  low : Nat
  /-- The double itself. -/
  middle : Nat
  /-- The upper end. -/
  high : Nat
  /-- Whether the ends belong to the interval. -/
  closed : Bool

/-- The interval around the magnitude of a finite double. -/
def interval (x : Binary64) : Interval :=
  let middle := 4 * x.magnitude
  let half := 2 * Nat.pow 2 (x.exponentField - 1)
  { low := middle - (if x.fraction = 0 ∧ 1 < x.exponentField then half / 2 else half)
    middle
    high := middle + half
    closed := x.fraction % 2 = 0 }

/-- The interval with all its numbers multiplied by `c`. -/
def Interval.scale (i : Interval) (c : Nat) : Interval :=
  { i with low := i.low * c, middle := i.middle * c, high := i.high * c }

/-- Membership of a number in an interval. -/
def Interval.contains (i : Interval) (n : Nat) : Bool :=
  if i.closed then decide (i.low ≤ n ∧ n ≤ i.high) else decide (i.low < n ∧ n < i.high)

/-- Of the two multiples of `step` around the middle, the one that lies in the interval, as a
number of steps; of two the nearer one, and the upper one where they are equally near. -/
def Interval.multiple? (i : Interval) (step : Nat) : Option Nat :=
  let lower := i.middle / step
  let upper := lower + 1
  match i.contains (lower * step), i.contains (upper * step) with
  | false, false => none
  | true, false => some lower
  | false, true => some upper
  | true, true =>
      if i.middle - lower * step < upper * step - i.middle then some lower else some upper

/-! ### The search -/

/-- How many quarters of a unit make one. -/
def quartersOfOne : Nat := 4 * unitsOfOne

/-- The number of decimal digits of `n`. -/
def digitCount (n : Nat) : Nat := (Nat.toDigits 10 n).length

/-- The place of the decimal point before the first digit of a positive number of quarters: the
`k` with `10 ^ (k - 1) ≤ quarters / quartersOfOne < 10 ^ k`. -/
def pointOf (quarters : Nat) : Int :=
  if quartersOfOne ≤ quarters then digitCount (quarters / quartersOfOne)
  else 1 - (digitCount ((quartersOfOne + quarters - 1) / quarters - 1) : Int)

/-- The multiple of `10 ^ exponent` nearest to the middle, if it reads back. -/
def Interval.atExponent? (i : Interval) (exponent : Int) : Option Decimal :=
  let found :=
    if 0 ≤ exponent then i.multiple? (quartersOfOne * Nat.pow 10 exponent.toNat)
    else (i.scale (Nat.pow 10 (-exponent).toNat)).multiple? quartersOfOne
  found.map (Decimal.ofNat · exponent)

/-- The shortest decimal number in the interval, tried with `tried + 1` and more digits. -/
def Interval.search (i : Interval) (point : Int) : (more tried : Nat) → Option Decimal
  | 0, _ => none
  | more + 1, tried =>
      match i.atExponent? (point - (tried + 1)) with
      | some decimal => some decimal
      | none => i.search point more (tried + 1)

/-- The shortest decimal number that reads back as the magnitude of a finite double other than
zero.  Seventeen digits always suffice. -/
def shortest (x : Binary64) : Decimal :=
  let i := x.interval
  (i.search (pointOf i.middle) 17 0).getD ⟨[], 0⟩

end Binary64

/-! ### Layouts -/

namespace Decimal

/-- The decisions of a layout. -/
structure Layout where
  /-- Whether a whole number that is written positionally ends in a point and a zero. -/
  wholePoint : Bool
  /-- Whether a number whose first digit stands at `10 ^ exponent` is written with an exponent. -/
  scientific : (exponent : Int) → Bool

/-- Never an exponent, and a point only before digits that need one. -/
def Layout.plain : Layout where
  wholePoint := false
  scientific _ := false

/-- A point and a zero after whole numbers, and an exponent from `10 ^ 16` on and below
`10 ^ (-4)`. -/
def Layout.labelled : Layout where
  wholePoint := true
  scientific exponent := exponent < -4 || 16 ≤ exponent

/-- The digits with their point, without an exponent. -/
def positional (wholePoint : Bool) (d : Decimal) : String :=
  let digits := d.digits
  if d.point ≤ 0 then
    "0." ++ String.ofList (List.replicate (-d.point).toNat '0' ++ digits)
  else
    let whole := d.point.toNat
    if whole < digits.length then
      String.ofList (digits.take whole) ++ "." ++ String.ofList (digits.drop whole)
    else
      String.ofList (digits ++ List.replicate (whole - digits.length) '0')
        ++ (if wholePoint then ".0" else "")

/-- One digit, a point before the others if there are any, and the exponent. -/
def exponential (d : Decimal) : String :=
  let rest := d.digits.drop 1
  String.ofList (d.digits.take 1) ++ (if rest.isEmpty then "" else "." ++ String.ofList rest)
    ++ "e" ++ toString (d.point - 1)

/-- The text of a positive decimal number. -/
def text (layout : Layout) (d : Decimal) : String :=
  if layout.scientific (d.point - 1) then d.exponential else d.positional layout.wholePoint

end Decimal

/-- The text of a double. -/
def Binary64.text (layout : Decimal.Layout) (x : Binary64) : String :=
  if x.isNaN then "NaN"
  else
    (if x.isNegative then "-" else "") ++
      (if x.isInfinite then "inf"
       else if x.magnitude = 0 then (if layout.wholePoint then "0.0" else "0")
       else x.shortest.text layout)

end IndexedSkipList
