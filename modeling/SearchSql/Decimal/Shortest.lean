import SearchSql.Double

/-!
The fewest decimal digits that read back as the same double.
-/

namespace SearchSql.Decimal

/-- A point `digits * 10 ^ scale` of a decimal grid. -/
structure Point where
  digits : Nat
  scale : Int
deriving DecidableEq

/-- Which of two equally near points is taken. -/
inductive Tie
  | toEven
  | upward
deriving DecidableEq

/-- The fractions that round to a positive finite double, in quarters of its unit: from `low` to
`high` times `2 ^ exponent`, ends included when the significand is even. -/
structure Interval where
  low : Nat
  middle : Nat
  high : Nat
  exponent : Int
  closed : Bool

/-- Below a power of two the doubles are twice as dense, so the interval is narrower there. -/
def Interval.around (x : Double) : Interval :=
  let m := x.significand
  let narrow := m == leadingBit && decide (2 * leadingBit ≤ x.rank)
  { low := if narrow then 4 * m - 1 else 4 * m - 2
    middle := 4 * m
    high := 4 * m + 2
    exponent := x.exponent - 2
    closed := m % 2 == 0 }

/-- The two factors that bring points of the grid `10 ^ scale` and quarters of the unit to one
denominator. -/
def Interval.factors (i : Interval) (scale : Int) : Nat × Nat :=
  (Nat.pow 10 scale.toNat <<< (-i.exponent).toNat, Nat.pow 10 (-scale).toNat <<< i.exponent.toNat)

/-- The point of the grid `10 ^ scale` in the interval that is nearest to its middle. Of a grid
only the two neighbours of the middle need a look. -/
def Interval.point? (i : Interval) (tie : Tie) (scale : Int) : Option Point :=
  let (grid, unit) := i.factors scale
  let inside (c : Nat) : Bool :=
    if i.closed then decide (i.low * unit ≤ c * grid) && decide (c * grid ≤ i.high * unit)
    else decide (i.low * unit < c * grid) && decide (c * grid < i.high * unit)
  let below := i.middle * unit / grid
  let toBelow := i.middle * unit - below * grid
  let toAbove := (below + 1) * grid - i.middle * unit
  let upper := match tie with
    | .toEven => decide (toAbove < toBelow) || (toAbove == toBelow && below % 2 == 1)
    | .upward => decide (toAbove ≤ toBelow)
  if inside below then
    if inside (below + 1) && upper then some ⟨below + 1, scale⟩ else some ⟨below, scale⟩
  else if inside (below + 1) then some ⟨below + 1, scale⟩
  else none

/-- The grids from `10 ^ 309` down to `10 ^ -324`, coarsest first. -/
def scales : List Int := (List.range 634).map fun n => 309 - Int.ofNat n

/-- The point of the coarsest grid that reads back as the double. Zero and the infinities have
none. -/
def shortest? (tie : Tie) (x : Double) : Option Point :=
  if x.rank = 0 || !x.isFinite then none
  else scales.findSome? ((Interval.around x).point? tie)

end SearchSql.Decimal
