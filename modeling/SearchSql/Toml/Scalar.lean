import SearchSql.Decimal.Read
import SearchSql.Text.Hexadecimal
import SearchSql.Toml.Basic

/-!
The unquoted single values of TOML: numbers, booleans, dates and times.
-/

namespace SearchSql.Toml

/-- A character of an unquoted value. -/
def isScalarChar (c : Char) : Bool :=
  c.isAlphanum || c == '_' || c == '+' || c == '-' || c == '.' || c == ':'

/-- The digits of a run in which single underscores may stand between digits. -/
def digits? (isDigit : Char → Bool) : List Char → Option (List Char)
  | [] => none
  | [c] => if isDigit c then some [c] else none
  | c :: '_' :: rest => if isDigit c then (digits? isDigit rest).map (c :: ·) else none
  | c :: rest => if isDigit c then (digits? isDigit rest).map (c :: ·) else none

def isHexDigit (c : Char) : Bool := (Text.hexValue? c).isSome

/-- The digits of a decimal whole number, which does not start with zero. -/
def whole? (cs : List Char) : Option (List Char) :=
  (digits? Char.isDigit cs).filter fun ds => ds.head? != some '0' || ds == ['0']

/-- A whole number in base 2, 8 or 16. -/
def based? : List Char → Option Int
  | '0' :: 'x' :: cs => value 16 isHexDigit cs
  | '0' :: 'o' :: cs => value 8 (fun c => c.isDigit && c != '8' && c != '9') cs
  | '0' :: 'b' :: cs => value 2 (fun c => c == '0' || c == '1') cs
  | _ => none
where
  value (base : Nat) (isDigit : Char → Bool) (cs : List Char) : Option Int := do
    let ds ← digits? isDigit cs
    let n := ds.foldl (fun n c => n * base + (Text.hexValue? c).getD 0) 0
    if fitsInt64 (Int.ofNat n) then some (Int.ofNat n) else none

/-- A whole number that a signed 64-bit word holds. -/
def integer? (cs : List Char) : Option Int :=
  match based? cs with
  | some n => some n
  | none => do
    let (negative, unsigned) := Decimal.splitSign cs
    let ds ← whole? unsigned
    let magnitude := Int.ofNat (Nat.ofDigitChars 10 ds 0)
    let n := if negative then -magnitude else magnitude
    if fitsInt64 n then some n else none

/-- The digits after a point; none if there is no point. -/
def fraction? : List Char → Option (Option (List Char))
  | [] => some none
  | '.' :: cs => (digits? Char.isDigit cs).map some
  | _ => none

/-- An exponent; none if there is no `e`. -/
def exponent? : List Char → Option (Option Int)
  | [] => some none
  | c :: cs =>
    if c = 'e' ∨ c = 'E' then do
      let (negative, unsigned) := Decimal.splitSign cs
      let ds ← digits? Char.isDigit unsigned
      let n := Int.ofNat (Nat.ofDigitChars 10 ds 0)
      some (some (if negative then -n else n))
    else none

/-- Whether the text is a decimal: it has a fraction or an exponent, or names infinity or the
missing number. Positive decimals have to be small enough for a double. -/
def isDecimal (cs : List Char) : Bool :=
  let (negative, unsigned) := Decimal.splitSign cs
  if unsigned = ['i', 'n', 'f'] ∨ unsigned = ['n', 'a', 'n'] then true
  else
    let isWhole (c : Char) : Bool := c.isDigit || c == '_'
    let isFraction (c : Char) : Bool := isWhole c || c == '.'
    let tail := unsigned.dropWhile isWhole
    match whole? (unsigned.takeWhile isWhole), fraction? (tail.takeWhile isFraction),
        exponent? (tail.dropWhile isFraction) with
    | some whole, some places, some e =>
      let places' := places.getD []
      let x := Double.ofDecimal negative (Nat.ofDigitChars 10 (whole ++ places') 0)
        (e.getD 0 - Int.ofNat places'.length)
      (places.isSome || e.isSome) && (negative || x.isFinite)
    | _, _, _ => false

/-- The value of a fixed number of digits, within bounds. -/
def number? (length least most : Nat) (cs : List Char) : Option Nat :=
  if cs.length = length then
    (Decimal.natural? cs).filter fun n => decide (least ≤ n) && decide (n ≤ most)
  else none

def isLeapYear (year : Nat) : Bool := year % 4 == 0 && (year % 100 != 0 || year % 400 == 0)

def daysIn (year month : Nat) : Nat :=
  if month = 2 then if isLeapYear year then 29 else 28
  else if month = 4 ∨ month = 6 ∨ month = 9 ∨ month = 11 then 30
  else 31

/-- A date of the calendar, as in `1979-05-27`. -/
def isDate (cs : List Char) : Bool :=
  match cs.splitOn '-' with
  | [year, month, day] =>
    match number? 4 0 9999 year, number? 2 1 12 month, number? 2 1 31 day with
    | some year, some month, some day => decide (day ≤ daysIn year month)
    | _, _, _ => false
  | _ => false

/-- Hours and minutes, as in `07:32`. -/
def isClock (cs : List Char) : Bool :=
  match cs.splitOn ':' with
  | [hour, minute] => (number? 2 0 23 hour).isSome && (number? 2 0 59 minute).isSome
  | _ => false

/-- The time of a day with seconds, as in `07:32:00.5`. -/
def isTime (cs : List Char) : Bool :=
  let seconds := (cs.drop 6).takeWhile Char.isDigit
  let fraction := (cs.drop 6).dropWhile Char.isDigit
  isClock (cs.take 5) && (cs.drop 5).head? == some ':' && (number? 2 0 60 seconds).isSome &&
    match fraction with
    | [] => true
    | c :: places => c == '.' && (Decimal.natural? places).isSome

/-- A time of a day that may have an offset: `Z`, or a sign with hours and minutes. -/
def isZonedTime (cs : List Char) : Bool :=
  let isTimeChar (c : Char) : Bool := c.isDigit || c == ':' || c == '.'
  isTime (cs.takeWhile isTimeChar) &&
    match cs.dropWhile isTimeChar with
    | [] => true
    | [c] => c == 'Z' || c == 'z'
    | c :: zone => (c == '+' || c == '-') && isClock zone

/-- A date, a time, or both with a `T` between them. -/
def isMoment (cs : List Char) : Bool :=
  isTime cs || isDate cs ||
    (isDate (cs.take 10) &&
      match cs.drop 10 with
      | c :: time => (c == 'T' || c == 't') && isZonedTime time
      | [] => false)

/-- The value of an unquoted text. -/
def scalar? (cs : List Char) : Option Toml :=
  if cs = ['t', 'r', 'u', 'e'] then some (.boolean true)
  else if cs = ['f', 'a', 'l', 's', 'e'] then some (.boolean false)
  else if isMoment cs then some .moment
  else if isDecimal cs then some .decimal
  else (integer? cs).map .integer

/-- The unquoted text that stands first, and the rest. A space may stand for the `T` between a date
and a time. -/
def splitScalar (cs : List Char) : List Char × List Char :=
  let word := cs.takeWhile isScalarChar
  match cs.dropWhile isScalarChar with
  | ' ' :: c :: rest =>
    if isDate word && c.isDigit then
      (word ++ 'T' :: (c :: rest).takeWhile isScalarChar, (c :: rest).dropWhile isScalarChar)
    else (word, ' ' :: c :: rest)
  | rest => (word, rest)

end SearchSql.Toml
