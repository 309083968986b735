import SearchSql.Json.Number
import SearchSql.Text.Hexadecimal
import SearchSql.Text.Rest

/-!
Reading JSON text. Values nest at most 127 deep, surrogates come in pairs, and the last member of a
key wins.
-/

namespace SearchSql.Json

/-- The blanks of JSON. -/
def isSpace (c : Char) : Bool := c = ' ' || c = '\n' || c = '\t' || c = '\r'

/-- What a one-letter escape stands for. -/
def unescape? : Char → Option Char
  | '"' => some '"'
  | '\\' => some '\\'
  | '/' => some '/'
  | 'b' => some '\x08'
  | 'f' => some '\x0c'
  | 'n' => some '\n'
  | 'r' => some '\r'
  | 't' => some '\t'
  | _ => none

/-- The character of a pair of surrogates. -/
def pairChar? (high low : Nat) : Option Char :=
  if 0xD800 ≤ high ∧ high ≤ 0xDBFF ∧ 0xDC00 ≤ low ∧ low ≤ 0xDFFF then
    some (Char.ofNat (0x10000 + (high - 0xD800) * 0x400 + (low - 0xDC00)))
  else none

/-- The character of a unit that is no surrogate. -/
def unitChar? (unit : Nat) : Option Char :=
  if 0xD800 ≤ unit ∧ unit ≤ 0xDFFF then none else some (Char.ofNat unit)

/-- The contents of a text up to its closing quote, and what follows the quote. -/
def takeText : List Char → Option (List Char × List Char)
  | [] => none
  | '"' :: rest => some ([], rest)
  | '\\' :: 'u' :: a :: b :: c :: d :: rest =>
    match (Text.hexNumber? [a, b, c, d]).bind unitChar? with
    | some x => (takeText rest).map (Text.push x)
    | none => match rest with
      | '\\' :: 'u' :: e :: f :: g :: h :: rest => do
        let x ← pairChar? (← Text.hexNumber? [a, b, c, d]) (← Text.hexNumber? [e, f, g, h])
        (takeText rest).map (Text.push x)
      | _ => none
  | '\\' :: c :: rest => do
    let x ← unescape? c
    (takeText rest).map (Text.push x)
  | c :: rest => if c.toNat < 32 then none else (takeText rest).map (Text.push c)

theorem length_takeText {cs text rest : List Char} (h : takeText cs = some (text, rest)) :
    rest.length < cs.length := by
  fun_induction takeText cs generalizing text rest <;>
    simp_all [Text.push, Option.bind_eq_some_iff] <;> grind

theorem length_takePlaces {cs places rest : List Char} (h : takePlaces cs = some (places, rest)) :
    rest.length ≤ cs.length := by
  unfold takePlaces at h
  grind [Text.length_dropWhile_le]

theorem length_takeExponent {cs rest : List Char} {e : Option Int}
    (h : takeExponent cs = some (e, rest)) : rest.length ≤ cs.length := by
  unfold takeExponent Decimal.splitSign at h
  grind [Text.length_dropWhile_le]

theorem length_takeNumber {cs rest : List Char} {t : NumberText}
    (h : takeNumber cs = some (t, rest)) : rest.length < cs.length := by
  unfold takeNumber at h
  split at h
  next negative unsigned hsplit =>
    have hle : unsigned.length ≤ cs.length := by
      split at hsplit <;> simp_all
    simp only [] at h
    split at h
    · simp at h
    · next hw =>
      have hw : unsigned.takeWhile Char.isDigit ≠ [] := fun he => hw (.inl he)
      have := Text.length_dropWhile_lt hw
      simp only [Option.bind_eq_bind, Option.bind_eq_some_iff] at h
      obtain ⟨⟨places, afterPlaces⟩, hp, ⟨e, afterExponent⟩, he, h⟩ := h
      have := length_takePlaces hp
      have : afterExponent.length ≤ afterPlaces.length := length_takeExponent he
      simp only [Option.pure_def, Option.some.injEq, Prod.mk.injEq] at h
      obtain ⟨-, rfl⟩ := h
      omega

/-- The text without the blanks in front. -/
def skipSpace (cs : List Char) : List Char := cs.dropWhile isSpace

theorem length_skipSpace (cs : List Char) : (skipSpace cs).length ≤ cs.length :=
  Text.length_dropWhile_le isSpace cs

/-- The character that stands first after blanks is part of the text. -/
theorem length_lt_of_skipSpace {c : Char} {cs rest : List Char} (h : skipSpace cs = c :: rest) :
    rest.length < cs.length := Text.length_lt_of_eq_cons h (length_skipSpace cs)

/-- The values that are words. -/
def takeWord : List Char → Option (Json × List Char)
  | 'n' :: 'u' :: 'l' :: 'l' :: rest => some (.null, rest)
  | 't' :: 'r' :: 'u' :: 'e' :: rest => some (.boolean true, rest)
  | 'f' :: 'a' :: 'l' :: 's' :: 'e' :: rest => some (.boolean false, rest)
  | _ => none

/-- The values without quotes and brackets: words and numbers. -/
def takeBare (cs : List Char) : Option (Json × List Char) :=
  match takeWord cs with
  | some found => some found
  | none =>
    match takeNumber cs with
    | some (number, rest) => number.value?.map (·, rest)
    | none => none

theorem length_takeBare {cs rest : List Char} {value : Json}
    (h : takeBare cs = some (value, rest)) : rest.length < cs.length := by
  unfold takeBare at h
  split at h
  · next found hw =>
    cases h
    unfold takeWord at hw
    split at hw <;> cases hw <;> simp only [List.length_cons] <;> omega
  · split at h
    · next number tail hn =>
      obtain ⟨x, -, hx⟩ := Option.map_eq_some_iff.1 h
      cases hx
      exact length_takeNumber hn
    · cases h

mutual

/-- Takes a value that stands first and nests at most `depth` deep. -/
def takeValue (depth : Nat) (cs : List Char) :
    Option (Json × { rest : List Char // rest.length < cs.length }) :=
  match _h : skipSpace cs with
  | '"' :: afterQuote =>
    have hq := length_lt_of_skipSpace _h
    match _ht : takeText afterQuote with
    | some (s, rest) =>
      some (.text (String.ofList s), ⟨rest, Nat.lt_trans (length_takeText _ht) hq⟩)
    | none => none
  | '[' :: inside =>
    have hi := length_lt_of_skipSpace _h
    if depth = 0 then none
    else match _hs : skipSpace inside with
      | ']' :: rest => some (.list [], ⟨rest, Nat.lt_trans (length_lt_of_skipSpace _hs) hi⟩)
      | _ => match takeItems (depth - 1) inside with
        | some (items, ⟨rest, hr⟩) => some (.list items, ⟨rest, Nat.lt_trans hr hi⟩)
        | none => none
  | '\x7b' :: inside =>
    have hi := length_lt_of_skipSpace _h
    if depth = 0 then none
    else match _hs : skipSpace inside with
      | '\x7d' :: rest => some (.object [], ⟨rest, Nat.lt_trans (length_lt_of_skipSpace _hs) hi⟩)
      | _ => match takeMembers (depth - 1) inside with
        | some (members, ⟨rest, hr⟩) => some (ofMembers members, ⟨rest, Nat.lt_trans hr hi⟩)
        | none => none
  | _ =>
    match _hb : takeBare (skipSpace cs) with
    | some (value, rest) =>
      some (value, ⟨rest, Nat.lt_of_lt_of_le (length_takeBare _hb) (length_skipSpace cs)⟩)
    | none => none
termination_by (cs.length, 0)

/-- Takes the items of a list up to its closing bracket. -/
def takeItems (depth : Nat) (cs : List Char) :
    Option (List Json × { rest : List Char // rest.length < cs.length }) :=
  match takeValue depth cs with
  | none => none
  | some (item, ⟨afterItem, ha⟩) =>
    match _hs : skipSpace afterItem with
    | ']' :: rest => some ([item], ⟨rest, Nat.lt_trans (length_lt_of_skipSpace _hs) ha⟩)
    | ',' :: afterComma =>
      have hc := Nat.lt_trans (length_lt_of_skipSpace _hs) ha
      match takeItems depth afterComma with
      | some (items, ⟨rest, hr⟩) => some (item :: items, ⟨rest, Nat.lt_trans hr hc⟩)
      | none => none
    | _ => none
termination_by (cs.length, 1)

/-- Takes the members of an object up to its closing brace. -/
def takeMembers (depth : Nat) (cs : List Char) :
    Option (List (String × Json) × { rest : List Char // rest.length < cs.length }) :=
  match _hq : skipSpace cs with
  | '"' :: afterQuote =>
    match _hk : takeText afterQuote with
    | none => none
    | some (key, afterKey) =>
      have hk := Nat.lt_trans (length_takeText _hk) (length_lt_of_skipSpace _hq)
      match _hc : skipSpace afterKey with
      | ':' :: afterColon =>
        have hc := Nat.lt_trans (length_lt_of_skipSpace _hc) hk
        match takeValue depth afterColon with
        | none => none
        | some (value, ⟨afterValue, ha⟩) =>
          have hv := Nat.lt_trans ha hc
          match _hs : skipSpace afterValue with
          | '\x7d' :: rest =>
            some ([(String.ofList key, value)],
              ⟨rest, Nat.lt_trans (length_lt_of_skipSpace _hs) hv⟩)
          | ',' :: afterComma =>
            have hs := Nat.lt_trans (length_lt_of_skipSpace _hs) hv
            match takeMembers depth afterComma with
            | some (members, ⟨rest, hr⟩) =>
              some ((String.ofList key, value) :: members, ⟨rest, Nat.lt_trans hr hs⟩)
            | none => none
          | _ => none
      | _ => none
  | _ => none
termination_by (cs.length, 1)

end

/-- How deep lists and objects may nest. -/
def maxDepth : Nat := 127

/-- Reads a text that holds one value and blanks. -/
def parse? (s : String) : Option Json :=
  match takeValue maxDepth s.toList with
  | some (value, ⟨rest, _⟩) => if skipSpace rest = [] then some value else none
  | none => none

end SearchSql.Json
