import SearchSql.Double
import SearchSql.Word

/-!
Reading whole numbers and decimals from their text.
-/

namespace SearchSql.Decimal

/-- The value of a non-empty run of digits. -/
def natural? (cs : List Char) : Option Nat :=
  if cs ≠ [] ∧ cs.all Char.isDigit then some (Nat.ofDigitChars 10 cs 0) else none

/-- A sign, taken off if there is one: whether it is a minus, and what follows it. -/
def splitSign : List Char → Bool × List Char
  | '-' :: cs => (true, cs)
  | '+' :: cs => (false, cs)
  | cs => (false, cs)

/-- A whole number with an optional sign. -/
def integer? (cs : List Char) : Option Int :=
  let (negative, digits) := splitSign cs
  (natural? digits).map fun n => if negative then -Int.ofNat n else Int.ofNat n

/-- An integer that a signed 64-bit word holds. -/
def int64? (s : String) : Option Int :=
  (integer? s.toList).filter fitsInt64

/-- A count that an unsigned 64-bit word holds. It may have a plus sign but no minus sign. -/
def uint64? (s : String) : Option Nat :=
  let digits := match s.toList with
    | '+' :: cs => cs
    | cs => cs
  (natural? digits).filter fitsUint64

/-- The exponent that may follow the digits of a decimal: `e` or `E` and a whole number. -/
def exponent? : List Char → Option Int
  | [] => some 0
  | c :: cs => if c = 'e' ∨ c = 'E' then integer? cs else none

/-- A decimal without its sign: digits, an optional point with digits on at least one side of it,
and an optional exponent. -/
def unsigned? (negative : Bool) (cs : List Char) : Option Double :=
  let whole := cs.takeWhile Char.isDigit
  let afterWhole := cs.dropWhile Char.isDigit
  let (places, tail) := match afterWhole with
    | '.' :: rest => (rest.takeWhile Char.isDigit, rest.dropWhile Char.isDigit)
    | rest => ([], rest)
  if whole = [] ∧ places = [] then none
  else (exponent? tail).map fun e =>
    Double.ofDecimal negative (Nat.ofDigitChars 10 (whole ++ places) 0)
      (e - Int.ofNat places.length)

/-- The double nearest to a decimal with an optional sign. -/
def double? (s : String) : Option Double :=
  let (negative, cs) := splitSign s.toList
  unsigned? negative cs

end SearchSql.Decimal
