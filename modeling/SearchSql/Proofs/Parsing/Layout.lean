import Mathlib
import SearchSql.Proofs.Parsing.Lockstep

/-!
The layout of a text has no say in how it is read. Texts whose tokens are alike give the same
statement, or are rejected at the same token for the same reason.
-/

namespace SearchSql.Statement

open Reader

variable {ts us bad : List Token} {s : Statement} {expected sql : String} {textEnd textEnd' : Nat}

theorem ofTokensUpTo_of_reads {rest : List Token} (h : Reads reader ts s rest) :
    ofTokensUpTo textEnd ts = .ok s := by
  obtain ⟨_, h⟩ := h
  rw [ofTokensUpTo, h]

theorem ofTokensUpTo_of_refuses (h : Refuses reader ts bad expected) :
    ofTokensUpTo textEnd ts = .error (Refusal.error ⟨bad, expected⟩ textEnd) := by
  rw [ofTokensUpTo, show reader ts = _ from h]

theorem ofText_eq_ofTokensUpTo (h : Token.ofText sql = .ok ts) :
    ofText sql = ofTokensUpTo sql.utf8ByteSize ts := by
  rw [ofText, h]
  rfl

/-- Two outcomes that correspond: the same statement, or the same expectation at tokens with the
same index, or the same one at the ends of both texts. -/
def Correspond (ts us : List Token) (textEnd textEnd' : Nat) (x y : Except Error Statement) :
    Prop :=
  (∃ s, x = .ok s ∧ y = .ok s) ∨
  ∃ expected,
    (∃ (i : Nat) (t u : Token), ts[i]? = some t ∧ us[i]? = some u ∧
      x = .error (.syntaxError t.position expected t.describe) ∧
      y = .error (.syntaxError u.position expected u.describe)) ∨
    (x = .error (.syntaxError textEnd expected "end of input") ∧
      y = .error (.syntaxError textEnd' expected "end of input"))

/-- Two runs over tokens that are alike end alike, and refuse tokens in the same place. -/
theorem ofTokensUpTo_alike (h : List.Forall₂ Token.Alike ts us) :
    Correspond ts us textEnd textEnd' (ofTokensUpTo textEnd ts) (ofTokensUpTo textEnd' us) := by
  have hcomposed := composed_reader ts
  have hnext : NextAlike [] [] := .none
  have halike : AlikeUpTo [] [] ts us :=
    ⟨ts, us, (List.append_nil ts).symm, (List.append_nil us).symm, h⟩
  rcases reads_or_refuses reader ts with ⟨s, rest, hreads⟩ | ⟨bad, expected, hrefuses⟩
  · obtain ⟨rest', _, hreads'⟩ := hcomposed.reads_alike hnext halike hreads List.nil_suffix
    exact .inl ⟨s, ofTokensUpTo_of_reads hreads, ofTokensUpTo_of_reads hreads'⟩
  · obtain ⟨bad', ⟨w, w', rfl, rfl, hbad⟩, hrefuses'⟩ :=
      hcomposed.refuses_alike hnext (.inl ⟨rfl, rfl⟩) halike hrefuses List.nil_suffix
    rw [List.append_nil] at hrefuses hrefuses'
    rw [ofTokensUpTo_of_refuses hrefuses, ofTokensUpTo_of_refuses hrefuses']
    refine .inr ⟨expected, ?_⟩
    obtain ⟨pre, rfl⟩ := hcomposed.suffix hrefuses
    obtain ⟨pre', rfl⟩ := (composed_reader us).suffix hrefuses'
    cases hbad with
    | nil => exact .inr ⟨rfl, rfl⟩
    | @cons t u w w' _ hw =>
      have hlength := h.length_eq
      have hrest := hw.length_eq
      simp only [List.length_append, List.length_cons] at hlength
      have hpre : pre'.length = pre.length := by omega
      exact .inl ⟨pre.length, t, u, by simp, by simp [← hpre], rfl, rfl⟩

/-- Texts that differ in layout at most are read alike, and a text is read as its tokens are. -/
theorem layout_is_ignored :
    (∀ sql sql' ts us, Token.ofText sql = .ok ts → Token.ofText sql' = .ok us →
      List.Forall₂ Token.Alike ts us →
        Correspond ts us sql.utf8ByteSize sql'.utf8ByteSize (ofText sql) (ofText sql')) ∧
    ∀ sql ts, Token.ofText sql = .ok ts →
      Correspond ts ts sql.utf8ByteSize (contentsEnd ts) (ofText sql) (ofTokens ts) := by
  constructor
  · intro sql sql' ts us hts hus h
    rw [ofText_eq_ofTokensUpTo hts, ofText_eq_ofTokensUpTo hus]
    exact ofTokensUpTo_alike h
  · intro sql ts hts
    rw [ofText_eq_ofTokensUpTo hts, ofTokens]
    exact ofTokensUpTo_alike (List.forall₂_same.2 fun t _ => .refl t)

/-- A keyword in another case, a name in grave accents, the other operator for inequality and an
escape: both texts are rejected at their third token. -/
theorem layout_is_ignored_operators :
    let sql := "select a <> 'i\\t'"
    let sql' := "SELECT \x60a\x60!='it'"
    ∃ ts us, Token.ofText sql = .ok ts ∧ Token.ofText sql' = .ok us ∧
      List.Forall₂ Token.Alike ts us ∧
      Correspond ts us sql.utf8ByteSize sql'.utf8ByteSize (ofText sql) (ofText sql') := by
  intro sql sql'
  have hts : Token.ofText sql = .ok [⟨.keyword .select, "select", 0⟩, ⟨.identifier, "a", 7⟩,
      ⟨.operator .ne, "<>", 9⟩, ⟨.text, "it", 12⟩] := by cbv
  have hus : Token.ofText sql' = .ok [⟨.keyword .select, "SELECT", 0⟩, ⟨.identifier, "a", 7⟩,
      ⟨.operator .ne, "!=", 10⟩, ⟨.text, "it", 12⟩] := by cbv
  have hcorrespond := layout_is_ignored.1 sql sql' _ _ hts hus
  exact ⟨_, _, hts, hus, by decide, hcorrespond (by decide)⟩

end SearchSql.Statement
