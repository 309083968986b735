import SearchSql.Decimal.Shortest

/-!
How numbers are written in decimal. For doubles, a layout decides what is positional, what has an
exponent, and the spelling of each part.
-/

namespace SearchSql.Decimal

/-- The decisions of one written form of doubles. -/
structure Layout where
  /-- Which of two equally near digit strings is written. -/
  tie : Tie
  /-- The exponents of the leading digit that are written positionally; with none, all are. -/
  positional : Option (Int × Int)
  /-- Whether a whole number written positionally ends in `.0`. -/
  keepsPoint : Bool
  /-- The text of infinity, before the sign. -/
  infinity : String

/-- The digits of a number, most significant first. -/
def digitChars (n : Nat) : List Char := Nat.toDigits 10 n

/-- The text of a whole number. -/
def integerText (n : Int) : String :=
  let digits := digitChars n.natAbs
  String.ofList (if n < 0 then '-' :: digits else digits)

/-- Digits with a decimal point, without an exponent. -/
def positionalChars (keepsPoint : Bool) (p : Point) : List Char :=
  let digits := digitChars p.digits
  let whole := (digits.length : Int) + p.scale
  if 0 ≤ p.scale then
    digits ++ List.replicate p.scale.toNat '0' ++ (if keepsPoint then ['.', '0'] else [])
  else if 0 < whole then
    digits.take whole.toNat ++ '.' :: digits.drop whole.toNat
  else
    '0' :: '.' :: List.replicate (-whole).toNat '0' ++ digits

/-- One digit, the others after a point, and a signed exponent without padding. -/
def exponentChars (p : Point) : List Char :=
  let digits := digitChars p.digits
  let e := (digits.length : Int) - 1 + p.scale
  let mantissa := match digits with
    | first :: second :: rest => first :: '.' :: second :: rest
    | few => few
  mantissa ++ 'e' :: (if 0 ≤ e then '+' else '-') :: digitChars e.natAbs

namespace Layout

/-- The text of the magnitude of a double. -/
def magnitude (layout : Layout) (x : Double) : List Char :=
  if !x.isFinite then layout.infinity.toList
  else match shortest? layout.tie x with
    | none => '0' :: (if layout.keepsPoint then ['.', '0'] else [])
    | some p =>
      let e := ((digitChars p.digits).length : Int) - 1 + p.scale
      match layout.positional with
      | none => positionalChars layout.keepsPoint p
      | some (least, most) =>
        if least ≤ e ∧ e ≤ most then positionalChars layout.keepsPoint p else exponentChars p

/-- The text of a double, a minus sign before negative ones and before negative zero. -/
def text (layout : Layout) (x : Double) : String :=
  String.ofList (if x.negative then '-' :: layout.magnitude x else layout.magnitude x)

end Layout

end SearchSql.Decimal
