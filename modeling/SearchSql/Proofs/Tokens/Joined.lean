import Mathlib
import SearchSql.Proofs.Tokens.Spans

/-!
Texts joined by blanks. The second text is read as if it stood alone, with its tokens and its
failures moved on by the bytes in front of it.
-/

namespace SearchSql.Token

/-- The token behind more bytes. -/
def shift (n : Nat) (t : Token) : Token := { t with position := n + t.position }

/-- Outcomes that differ by the bytes in front of the text. -/
inductive Shifted (n : Nat) : Except Error (List Token) → Except Error (List Token) → Prop
  | tokens (ts) : Shifted n (.ok ts) (.ok (ts.map (shift n)))
  | fault (position cause) :
      Shifted n (.error (.lex position cause)) (.error (.lex (n + position) cause))

theorem Shifted.cons {n : Nat} {x y : Except Error (List Token)} (h : Shifted n x y) (t : Token) :
    Shifted n (x.map (t :: ·)) (y.map (t.shift n :: ·)) := by
  cases h with
  | tokens ts => exact .tokens (t :: ts)
  | fault position cause => exact .fault position cause

/-- Where a text starts has no part in what is read. -/
theorem shifted_ofCharsFrom (n start : Nat) (cs : List Char) :
    Shifted n (ofCharsFrom start cs) (ofCharsFrom (n + start) cs) := by
  fun_induction ofCharsFrom start cs with
  | case1 start cs hdrop =>
    rw [ofCharsFrom_eq (n + start), hdrop]
    exact .tokens []
  | case2 start cs position c rest hdrop cause hread =>
    have hposition : n + start + byteLength (cs.takeWhile Text.isBlank) = n + position :=
      Nat.add_assoc ..
    rw [ofCharsFrom_eq (n + start), hdrop]
    simp only [hread, hposition]
    exact .fault position cause
  | case3 start cs position c rest hdrop l hread =>
    rename_i ih
    have hposition : n + start + byteLength (cs.takeWhile Text.isBlank) = n + position :=
      Nat.add_assoc ..
    rw [ofCharsFrom_eq (n + start), hdrop]
    simp only [hread, hposition]
    rw [← Nat.add_assoc] at ih
    exact ih.cons ⟨l.kind, String.ofList l.contents, position⟩

/-- A text behind another one and blanks has the tokens that it has alone, behind those of the
first, or the failure that it has alone. Each stands as many bytes further on as are in front. -/
theorem ofText_append {a w : String} {ts : List Token} (ha : ofText a = .ok ts) (hne : w ≠ "")
    (hblank : ∀ c ∈ w.toList, Text.isBlank c = true) (b : String) :
    (∃ us, ofText b = .ok us ∧
      ofText (a ++ w ++ b) = .ok (ts ++ us.map (shift (a ++ w).utf8ByteSize))) ∨
    ∃ position cause, ofText b = .error (.lex position cause) ∧
      ofText (a ++ w ++ b) = .error (.lex ((a ++ w).utf8ByteSize + position) cause) := by
  have hmore : ∀ d ∈ (w.toList ++ b.toList).head?, Text.isBlank d = true := by
    cases hw : w.toList with
    | nil => exact absurd (String.toList_eq_nil_iff.1 hw) hne
    | cons c cs =>
      rintro d ⟨⟩
      exact hblank c (hw ▸ List.mem_cons_self)
  have hoffset : byteLength ([] ++ a.toList) + byteLength w.toList = (a ++ w).utf8ByteSize + 0 := by
    rw [List.nil_append, ← byteLength_append, ← String.toList_append, byteLength_eq_utf8ByteSize,
      String.ofList_toList, Nat.add_zero]
  have happend := ofCharsFrom_append (ofText_eq_ok_iff_covers.1 ha) hmore
  rw [ofCharsFrom_blanks _ _ hblank, hoffset, ← List.append_assoc, ← String.toList_append,
    ← String.toList_append] at happend
  have hshift := shifted_ofCharsFrom (a ++ w).utf8ByteSize 0 b.toList
  change Shifted _ (ofText b) _ at hshift
  change ofText (a ++ w ++ b) = _ at happend
  generalize ofText b = alone, ofCharsFrom _ b.toList = behind at hshift happend
  cases hshift with
  | tokens us => exact .inl ⟨us, rfl, happend⟩
  | fault position cause => exact .inr ⟨position, cause, rfl, happend⟩

/-- The ideographic space takes three bytes. It keeps `<` and `=` apart, and a point behind it does
not go on with a number. -/
theorem ofText_append_ideographic_space :
    let w := "\u3000"
    ofText ("a<" ++ w ++ "=1") = .ok [⟨.identifier, "a", 0⟩, ⟨.operator .lt, "<", 1⟩,
      ⟨.operator .eq, "=", 5⟩, ⟨.number, "1", 6⟩] ∧
    ofText ("1" ++ w ++ ".5") = .error (.lex 4 (.unrecognized '.')) := by
  intro w
  have hblank : ∀ c ∈ w.toList, Text.isBlank c = true := by
    have hspace : Text.isBlank '\u3000' = true := by cbv
    simp [w, hspace]
  have hoperator : ofText "a<" = .ok [⟨.identifier, "a", 0⟩, ⟨.operator .lt, "<", 1⟩] := by cbv
  have hequals : ofText "=1" = .ok [⟨.operator .eq, "=", 0⟩, ⟨.number, "1", 1⟩] := by cbv
  have hnumber : ofText "1" = .ok [⟨.number, "1", 0⟩] := by cbv
  have hpoint : ofText ".5" = .error (.lex 0 (.unrecognized '.')) := by cbv
  constructor
  · obtain ⟨us, hus, h⟩ | ⟨_, _, hfault, -⟩ :=
      ofText_append hoperator (by decide) hblank "=1"
    · cases hequals.symm.trans hus
      exact h
    · cases hequals.symm.trans hfault
  · obtain ⟨_, hus, -⟩ | ⟨position, cause, hfault, h⟩ :=
      ofText_append hnumber (by decide) hblank ".5"
    · cases hpoint.symm.trans hus
    · cases hpoint.symm.trans hfault
      exact h

end SearchSql.Token
