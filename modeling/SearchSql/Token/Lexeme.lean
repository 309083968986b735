import SearchSql.Error
import SearchSql.Text.Alphabetic
import SearchSql.Text.Blank
import SearchSql.Text.Numeric
import SearchSql.Token.Basic

/-!
The token that stands first in a text, as its contents and the characters it spans.
-/

namespace SearchSql

/-- What stands first in a text, and what follows it. -/
structure Lexeme (input : List Char) where
  kind : TokenKind
  contents : List Char
  span : List Char
  rest : List Char
  span_append : span ++ rest = input
  span_ne_nil : span ≠ []

namespace Lexeme

theorem length_rest {input : List Char} (l : Lexeme input) : l.rest.length < input.length := by
  have hlength := congrArg List.length l.span_append
  have := List.length_pos_iff.2 l.span_ne_nil
  simp only [List.length_append] at hlength
  omega

/-- A word starts with a letter or an underscore. ASCII is decided without the table. -/
def startsWord (c : Char) : Bool :=
  if c.toNat < 128 then c.isAlpha || c == '_' else Text.alphabetic.holds c

/-- A word goes on with letters, numbers, underscores, points and hyphens. -/
def continuesWord (c : Char) : Bool :=
  if c.toNat < 128 then c.isAlphanum || c == '_' || c == '.' || c == '-'
  else Text.alphabetic.holds c || Text.numeric.holds c

/-- A quoted text after its opening quote: its contents, the characters up to the closing quote
included, and the rest. A backslash stands for the character after it. -/
def quoted? :
    (cs : List Char) → Option (List Char × { s : List Char × List Char // s.1 ++ s.2 = cs })
  | [] => none
  | '\'' :: rest => some ([], ⟨(['\''], rest), rfl⟩)
  | '\\' :: c :: rest =>
    (quoted? rest).map fun (contents, ⟨(span, rest'), h⟩) =>
      (c :: contents, ⟨('\\' :: c :: span, rest'), by simpa using h⟩)
  | c :: rest =>
    (quoted? rest).map fun (contents, ⟨(span, rest'), h⟩) =>
      (c :: contents, ⟨(c :: span, rest'), by simpa using h⟩)

/-- The digits of a fraction, without the point in front. -/
def places : List Char → List Char
  | '.' :: cs => cs.takeWhile Char.isDigit
  | _ => []

/-- The digits that stand first, with a point and more digits if both follow. -/
def decimalSpan (cs : List Char) : List Char :=
  let whole := cs.takeWhile Char.isDigit
  let fraction := places (cs.dropWhile Char.isDigit)
  if fraction = [] then whole else whole ++ '.' :: fraction

/-- The number that stands first, empty if there is none. -/
def numberSpan : List Char → List Char
  | '-' :: cs =>
    if cs.takeWhile Char.isDigit = [] then [] else '-' :: decimalSpan cs
  | cs => if cs.takeWhile Char.isDigit = [] then [] else decimalSpan cs

theorem append_drop_takeWhile (p : Char → Bool) (cs : List Char) :
    cs.takeWhile p ++ cs.drop (cs.takeWhile p).length = cs := by
  induction cs with
  | nil => rfl
  | cons c cs ih => by_cases h : p c <;> simp [h, ih]

theorem decimalSpan_append (cs : List Char) :
    decimalSpan cs ++ cs.drop (decimalSpan cs).length = cs := by
  have hsplit := List.takeWhile_append_dropWhile (p := Char.isDigit) (l := cs)
  unfold decimalSpan
  simp only []
  split
  · exact append_drop_takeWhile _ _
  · next hne =>
    generalize cs.takeWhile Char.isDigit = whole at hsplit ⊢
    generalize cs.dropWhile Char.isDigit = tail at hsplit hne ⊢
    subst hsplit
    unfold places at hne ⊢
    split at hne
    · next rest => simp [append_drop_takeWhile]
    · exact absurd rfl hne

theorem numberSpan_append (cs : List Char) :
    numberSpan cs ++ cs.drop (numberSpan cs).length = cs := by
  unfold numberSpan
  split <;> split <;> simp [decimalSpan_append]

/-- The operator that stands first, with its characters. -/
def operator? : List Char → Option (Comparison × List Char)
  | '>' :: '=' :: _ => some (.ge, ['>', '='])
  | '<' :: '=' :: _ => some (.le, ['<', '='])
  | '!' :: '=' :: _ => some (.ne, ['!', '='])
  | '<' :: '>' :: _ => some (.ne, ['<', '>'])
  | '=' :: _ => some (.eq, ['='])
  | '>' :: _ => some (.gt, ['>'])
  | '<' :: _ => some (.lt, ['<'])
  | _ => none

theorem operator?_append {cs span : List Char} {op : Comparison}
    (h : operator? cs = some (op, span)) :
    span ++ cs.drop span.length = cs ∧ span ≠ [] := by
  unfold operator? at h
  split at h <;> simp_all only [Option.some.injEq, Prod.mk.injEq, reduceCtorEq] <;>
    simp [← h.2]

def punctuation? : Char → Option TokenKind
  | ',' => some .comma
  | '(' => some .leftParen
  | ')' => some .rightParen
  | '*' => some .star
  | '/' => some .slash
  | ';' => some .semicolon
  | _ => none

/-- A bare word is a keyword or an identifier. -/
def wordKind (word : List Char) : TokenKind :=
  match Keyword.ofWord? (String.ofList word) with
  | some k => .keyword k
  | none => .identifier

/-- The token whose contents are the characters it spans. -/
def plain {input : List Char} (kind : TokenKind) (span : List Char)
    (append : span ++ input.drop span.length = input) (ne_nil : span ≠ []) : Lexeme input :=
  { kind, contents := span, span, rest := input.drop span.length,
    span_append := append, span_ne_nil := ne_nil }

/-- Reads a name between grave accents, after the first of them. -/
def quotedName (cs : List Char) : Except LexFault (Lexeme ('\x60' :: cs)) :=
  let name := cs.takeWhile (· != '\x60')
  match h : cs.dropWhile (· != '\x60') with
  | [] => .error .unterminatedName
  | c :: rest =>
    if name = [] then .error .unterminatedName
    else .ok
      { kind := .identifier, contents := name, span := '\x60' :: name ++ [c], rest
        span_append := by
          have hsplit := List.takeWhile_append_dropWhile (p := (· != '\x60')) (l := cs)
          rw [h] at hsplit
          simp [name, hsplit]
        span_ne_nil := by simp }

/-- Reads the number, operator, punctuation or word that stands first. -/
def bare (c : Char) (cs : List Char) : Except LexFault (Lexeme (c :: cs)) :=
  if hn : numberSpan (c :: cs) ≠ [] then
    .ok (plain .number (numberSpan (c :: cs)) (numberSpan_append _) hn)
  else match ho : operator? (c :: cs) with
    | some (op, span) =>
      .ok (plain (.operator op) span (operator?_append ho).1 (operator?_append ho).2)
    | none => match punctuation? c with
      | some kind => .ok (plain kind [c] (by simp) (by simp))
      | none =>
        if startsWord c then
          let word := c :: cs.takeWhile continuesWord
          .ok (plain (wordKind word) word (by simp [word, append_drop_takeWhile]) (by simp [word]))
        else .error (.unrecognized c)

/-- Reads the token that stands first. -/
def read : (c : Char) → (cs : List Char) → Except LexFault (Lexeme (c :: cs))
  | '\'', cs =>
    match quoted? cs with
    | some (contents, ⟨(span, rest), h⟩) =>
      .ok { kind := .text, contents, span := '\'' :: span, rest
            span_append := by simpa using h, span_ne_nil := by simp }
    | none => .error .unterminatedText
  | '\x60', cs => quotedName cs
  | c, cs => bare c cs

end Lexeme

end SearchSql
