import SearchSql.Text.Hexadecimal
import SearchSql.Text.Rest

/-!
Quoted text of TOML: basic text with escapes and literal text without, on one line or on several.
-/

namespace SearchSql.Toml

/-- A space or a tab. -/
def isSpace (c : Char) : Bool := c == ' ' || c == '\t'

/-- A character that may stand in text and comments: any but control characters, and the tab. -/
def isPrintable (c : Char) : Bool := c == '\t' || (decide (32 ≤ c.toNat) && c.toNat != 127)

/-- What a one-letter escape stands for. -/
def unescape? : Char → Option Char
  | '"' => some '"'
  | '\\' => some '\\'
  | 'b' => some '\x08'
  | 'f' => some '\x0c'
  | 'n' => some '\n'
  | 'r' => some '\r'
  | 't' => some '\t'
  | _ => none

/-- The character with a code point in hexadecimal digits. -/
def codePoint? (digits : List Char) : Option Char := do
  let n ← Text.hexNumber? digits
  if n.isValidChar then some (Char.ofNat n) else none

/-- Basic text on one line, after its opening quote. -/
def takeBasic : List Char → Option (List Char × List Char)
  | [] => none
  | '"' :: rest => some ([], rest)
  | '\\' :: 'u' :: a :: b :: c :: d :: rest => do
    let x ← codePoint? [a, b, c, d]
    (takeBasic rest).map (Text.push x)
  | '\\' :: 'U' :: a :: b :: c :: d :: e :: f :: g :: h :: rest => do
    let x ← codePoint? [a, b, c, d, e, f, g, h]
    (takeBasic rest).map (Text.push x)
  | '\\' :: c :: rest => do
    let x ← unescape? c
    (takeBasic rest).map (Text.push x)
  | c :: rest => if isPrintable c && c != '\\' then (takeBasic rest).map (Text.push c) else none

/-- Literal text on one line, after its opening quote. -/
def takeLiteral : List Char → Option (List Char × List Char)
  | [] => none
  | '\'' :: rest => some ([], rest)
  | c :: rest => if isPrintable c then (takeLiteral rest).map (Text.push c) else none

/-- Whether only spaces are left on the line. -/
def endsLine (cs : List Char) : Bool :=
  match cs.dropWhile isSpace with
  | '\n' :: _ | '\r' :: '\n' :: _ => true
  | _ => false

/-- Basic text on several lines, after its opening quotes. A backslash at the end of a line leaves
out everything up to the next visible character, as `skipping` does. Up to two quotes may stand
before the closing ones. -/
def takeLongBasic (skipping : Bool) : List Char → Option (List Char × List Char)
  | [] => none
  | '"' :: '"' :: '"' :: '"' :: '"' :: rest => some (['"', '"'], rest)
  | '"' :: '"' :: '"' :: '"' :: rest => some (['"'], rest)
  | '"' :: '"' :: '"' :: rest => some ([], rest)
  | '\r' :: '\n' :: rest =>
    if skipping then takeLongBasic true rest else (takeLongBasic false rest).map (Text.push '\n')
  | '\\' :: 'u' :: a :: b :: c :: d :: rest => do
    let x ← codePoint? [a, b, c, d]
    (takeLongBasic false rest).map (Text.push x)
  | '\\' :: 'U' :: a :: b :: c :: d :: e :: f :: g :: h :: rest => do
    let x ← codePoint? [a, b, c, d, e, f, g, h]
    (takeLongBasic false rest).map (Text.push x)
  | '\\' :: c :: rest =>
    if endsLine (c :: rest) then takeLongBasic true (c :: rest)
    else do
      let x ← unescape? c
      (takeLongBasic false rest).map (Text.push x)
  | c :: rest =>
    if skipping && (isSpace c || c == '\n') then takeLongBasic true rest
    else if (isPrintable c && c != '\\') || c == '\n' then
      (takeLongBasic false rest).map (Text.push c)
    else none

/-- Literal text on several lines, after its opening quotes. -/
def takeLongLiteral : List Char → Option (List Char × List Char)
  | [] => none
  | '\'' :: '\'' :: '\'' :: '\'' :: '\'' :: rest => some (['\'', '\''], rest)
  | '\'' :: '\'' :: '\'' :: '\'' :: rest => some (['\''], rest)
  | '\'' :: '\'' :: '\'' :: rest => some ([], rest)
  | '\r' :: '\n' :: rest => (takeLongLiteral rest).map (Text.push '\n')
  | c :: rest =>
    if isPrintable c || c == '\n' then (takeLongLiteral rest).map (Text.push c) else none

/-- Leaves out a line end that follows the opening quotes. -/
def dropLineEnd : List Char → List Char
  | '\n' :: rest => rest
  | '\r' :: '\n' :: rest => rest
  | cs => cs

/-- Quoted text of any of the four kinds, with its opening quotes. -/
def takeQuoted : List Char → Option (List Char × List Char)
  | '"' :: '"' :: '"' :: rest => takeLongBasic false (dropLineEnd rest)
  | '"' :: rest => takeBasic rest
  | '\'' :: '\'' :: '\'' :: rest => takeLongLiteral (dropLineEnd rest)
  | '\'' :: rest => takeLiteral rest
  | _ => none

theorem length_takeBasic {cs text rest : List Char} (h : takeBasic cs = some (text, rest)) :
    rest.length < cs.length := by
  fun_induction takeBasic cs generalizing text rest <;>
    simp_all [Text.push, Option.bind_eq_some_iff] <;> grind

theorem length_takeLiteral {cs text rest : List Char} (h : takeLiteral cs = some (text, rest)) :
    rest.length < cs.length := by
  fun_induction takeLiteral cs generalizing text rest with
  | case1 => cases h
  | case2 =>
    cases h
    exact Nat.lt_succ_self _
  | case3 c tail _ _ ih =>
    obtain ⟨text', h⟩ := Text.of_map_push h
    exact Nat.lt_succ_of_lt (ih h)
  | case4 => cases h

theorem length_takeLongBasic {skipping : Bool} {cs text rest : List Char}
    (h : takeLongBasic skipping cs = some (text, rest)) : rest.length < cs.length := by
  fun_induction takeLongBasic skipping cs generalizing text rest <;>
    simp_all [Text.push, Option.bind_eq_some_iff] <;> grind

theorem length_takeLongLiteral {cs text rest : List Char}
    (h : takeLongLiteral cs = some (text, rest)) : rest.length < cs.length := by
  fun_induction takeLongLiteral cs generalizing text rest <;> simp_all [Text.push] <;> grind

theorem length_dropLineEnd (cs : List Char) : (dropLineEnd cs).length ≤ cs.length := by
  unfold dropLineEnd
  split
  · exact Nat.le_succ _
  · exact Nat.le_add_right _ 2
  · exact Nat.le_refl _

theorem length_takeQuoted {cs text rest : List Char} (h : takeQuoted cs = some (text, rest)) :
    rest.length < cs.length := by
  unfold takeQuoted at h
  split at h
  · next tail =>
    have := length_takeLongBasic h
    have := length_dropLineEnd tail
    simp only [List.length_cons]
    omega
  · exact Nat.lt_succ_of_lt (length_takeBasic h)
  · next tail =>
    have := length_takeLongLiteral h
    have := length_dropLineEnd tail
    simp only [List.length_cons]
    omega
  · exact Nat.lt_succ_of_lt (length_takeLiteral h)
  · cases h

end SearchSql.Toml
