/-!
Doubles: the binary64 numbers and the two infinities, and the double nearest to a fraction.
-/

namespace SearchSql

/-- The quotient of `num` by `den` as a whole number, a half going to the even neighbour. -/
def roundDiv (num den : Nat) : Nat :=
  let floor := num / den
  let twice := 2 * (num % den)
  if twice < den then floor
  else if den < twice then floor + 1
  else floor + floor % 2

/-- The weight of the leading bit of a normal significand, which is bit 52. -/
def leadingBit : Nat := 1 <<< 52

/-- The rank of infinity, after all finite non-negative doubles. -/
def infiniteRank : Nat := 2047 * leadingBit

/-- A sign and a rank among the non-negative doubles in ascending order: zero has rank 0, and
infinity comes last. -/
structure Double where
  negative : Bool
  rank : Nat
  rank_le : rank ≤ infiniteRank := by decide
deriving DecidableEq

namespace Double

/-- The magnitude of a finite double is `significand * 2 ^ exponent`. -/
def significand (x : Double) : Nat :=
  if x.rank < leadingBit then x.rank else leadingBit + x.rank % leadingBit

/-- The power of two that scales the significand. -/
def exponent (x : Double) : Int :=
  if x.rank < leadingBit then -1074 else Int.ofNat (x.rank / leadingBit) - 1075

/-- Whether the double is not an infinity. -/
def isFinite (x : Double) : Bool := decide (x.rank < infiniteRank)

def zero (negative : Bool) : Double := { negative, rank := 0 }

def infinite (negative : Bool) : Double := { negative, rank := infiniteRank }

/-- The rank of the double nearest to `num / den`, a tie going to the even significand. What lies
past the largest double has the rank of infinity. -/
def nearestRank (num den : Nat) : Nat :=
  let estimate : Int := Int.ofNat num.log2 - Int.ofNat den.log2 - 53
  let scaled (e : Int) : Nat × Nat :=
    if 0 ≤ e then (num, den <<< e.toNat) else (num <<< (-e).toNat, den)
  let exponent : Int :=
    let (n, d) := scaled estimate
    max (-1074) (if n / d < 2 * leadingBit then estimate else estimate + 1)
  let (n, d) := scaled exponent
  if num = 0 then 0 else min infiniteRank ((exponent + 1074).toNat * leadingBit + roundDiv n d)

theorem nearestRank_le (num den : Nat) : nearestRank num den ≤ infiniteRank := by
  unfold nearestRank
  simp only []
  split
  · exact Nat.zero_le _
  · exact Nat.min_le_left ..

/-- The double nearest to a fraction. -/
def ofFraction (negative : Bool) (num den : Nat) : Double :=
  { negative, rank := nearestRank num den, rank_le := nearestRank_le num den }

/-- The double nearest to `digits * 10 ^ scale`. A scale that no digits can bring back into range
gives infinity or zero at once. -/
def ofDecimal (negative : Bool) (digits : Nat) (scale : Int) : Double :=
  let places := Int.ofNat (Nat.toDigits 10 digits).length + scale
  if digits = 0 ∨ places < -400 then zero negative
  else if 400 < places then infinite negative
  else if 0 ≤ scale then ofFraction negative (digits * Nat.pow 10 scale.toNat) 1
  else ofFraction negative digits (Nat.pow 10 (-scale).toNat)

/-- The double nearest to a whole number. -/
def ofInt (n : Int) : Double := ofFraction (decide (n < 0)) n.natAbs 1

/-- The magnitude of a finite double as a fraction. -/
def fraction (x : Double) : Nat × Nat :=
  if 0 ≤ x.exponent then (x.significand <<< x.exponent.toNat, 1)
  else (x.significand, 1 <<< (-x.exponent).toNat)

end Double

end SearchSql
