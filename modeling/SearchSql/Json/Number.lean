import SearchSql.Decimal.Read
import SearchSql.Json.Basic

/-!
JSON numbers. A number without point and exponent that a 64-bit word holds is an integer; any other
is a double.
-/

namespace SearchSql.Json

/-- A whole number of 64 bits and the power of ten that scales it. -/
structure Scaled where
  digits : Nat
  scale : Int

/-- Appends digits as long as the number fits. From the first digit that does not fit on, each one
only adds `skipped` to the scale. -/
def Scaled.append (skipped taken : Int) (s : Scaled) : List Char → Scaled
  | [] => s
  | c :: cs =>
    let digits := s.digits * 10 + (c.toNat - '0'.toNat)
    if fitsUint64 digits then Scaled.append skipped taken { digits, scale := s.scale + taken } cs
    else { s with scale := s.scale + skipped * Int.ofNat (cs.length + 1) }

/-- The product of two non-negative doubles, rounded. -/
def product (x y : Double) : Double :=
  Double.ofFraction false (x.fraction.1 * y.fraction.1) (x.fraction.2 * y.fraction.2)

/-- The quotient of two positive doubles, rounded. -/
def quotient (x y : Double) : Double :=
  Double.ofFraction false (x.fraction.1 * y.fraction.2) (x.fraction.2 * y.fraction.1)

/-- The double nearest to a power of ten. -/
def powerOfTen (n : Nat) : Double := Double.ofDecimal false 1 (Int.ofNat n)

/-- Scales a double by a power of ten, rounding after each step of at most 308 places. A result too
large for a double is refused. -/
def scaleBy (x : Double) (scale : Int) : Option Double :=
  if x.rank = 0 then some x
  else if h : scale < -308 then scaleBy (quotient x (powerOfTen 308)) (scale + 308)
  else if scale < 0 then some (quotient x (powerOfTen scale.natAbs))
  else if 308 < scale then none
  else (some (product x (powerOfTen scale.natAbs))).filter Double.isFinite
termination_by scale.natAbs
decreasing_by omega

/-- The double of a number: its digits are rounded first and scaled afterwards, so the result can
be a neighbour of the nearest double. -/
def Scaled.double? (negative : Bool) (s : Scaled) : Option Double :=
  (scaleBy (Double.ofInt (Int.ofNat s.digits)) s.scale).map fun x => { x with negative }

/-- The parts of a number as written. -/
structure NumberText where
  negative : Bool
  whole : List Char
  places : List Char
  exponent : Option Int

/-- The value of a number; none if it is too large for a double. -/
def NumberText.value? (t : NumberText) : Option Json :=
  let magnitude := Nat.ofDigitChars 10 t.whole 0
  let double := fun (_ : Unit) =>
    let whole := Scaled.append 1 0 ⟨0, 0⟩ t.whole
    let all := Scaled.append 0 (-1) whole t.places
    ({ all with scale := all.scale + t.exponent.getD 0 }.double? t.negative).map Json.real
  if t.places ≠ [] ∨ t.exponent.isSome then double ()
  else if t.negative then
    if 0 < magnitude ∧ fitsInt64 (-Int.ofNat magnitude) then some (.integer (-Int.ofNat magnitude))
    else double ()
  else if fitsUint64 magnitude then some (.integer (Int.ofNat magnitude))
  else double ()

/-- Takes the digits of a fraction, if a point stands first: none if no digit follows the point. -/
def takePlaces : List Char → Option (List Char × List Char)
  | '.' :: cs =>
    if cs.takeWhile Char.isDigit = [] then none
    else some (cs.takeWhile Char.isDigit, cs.dropWhile Char.isDigit)
  | cs => some ([], cs)

/-- Takes an exponent, if `e` or `E` stands first: none if no digit follows it and its sign. -/
def takeExponent : List Char → Option (Option Int × List Char)
  | [] => some (none, [])
  | c :: cs =>
    if c = 'e' ∨ c = 'E' then
      let (negative, rest) := Decimal.splitSign cs
      let digits := rest.takeWhile Char.isDigit
      if digits = [] then none
      else
        let n := Int.ofNat (Nat.ofDigitChars 10 digits 0)
        some (some (if negative then -n else n), rest.dropWhile Char.isDigit)
    else some (none, c :: cs)

/-- Takes the number that stands first. A whole part of several digits does not start with zero. -/
def takeNumber (cs : List Char) : Option (NumberText × List Char) :=
  let (negative, unsigned) := match cs with
    | '-' :: rest => (true, rest)
    | rest => (false, rest)
  let whole := unsigned.takeWhile Char.isDigit
  if whole = [] ∨ (whole.head? = some '0' ∧ whole ≠ ['0']) then none
  else do
    let (places, rest) ← takePlaces (unsigned.dropWhile Char.isDigit)
    let (exponent, rest) ← takeExponent rest
    pure ({ negative, whole, places, exponent }, rest)

end SearchSql.Json
