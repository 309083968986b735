import Mathlib
import SearchSql.Proofs.Printing.Spelling
import SearchSql.Proofs.Tokens.Lexemes

/-!
Tokens cover their text. Their spans stand one behind the other where the positions say, and only
blanks are left between them. A text has the tokens that cover it, and no others.
-/

namespace SearchSql.Token

/-- The tokens of a text, behind the characters in front of it. What is left of a text behind a
span is covered by the tokens that follow, so that spans are disjoint and in order. -/
inductive Covers : List Char → List Char → List Token → Prop
  | blanks {before gap} : (∀ c ∈ gap, Text.isBlank c = true) → Covers before gap []
  | token {before gap span rest t ts} : (∀ c ∈ gap, Text.isBlank c = true) → span ≠ [] →
      t.position = (String.ofList (before ++ gap)).utf8ByteSize →
      Lexeme.Spelled t.kind t.text.toList span rest →
      Covers (before ++ gap ++ span) rest ts → Covers before (gap ++ span ++ rest) (t :: ts)

variable {before cs : List Char} {start : Nat} {ts : List Token}

theorem byteLength_eq_utf8ByteSize (cs : List Char) :
    byteLength cs = (String.ofList cs).utf8ByteSize := by
  induction cs with
  | nil => rfl
  | cons c cs ih =>
    rw [String.ofList_cons, String.utf8ByteSize_append, String.utf8ByteSize_singleton, ← ih]
    rfl

theorem Covers.of_read {gap rest : List Char} {c : Char} {l : Lexeme (c :: rest)} {position : Nat}
    (hcs : gap ++ c :: rest = cs) (hgap : ∀ d ∈ gap, Text.isBlank d = true)
    (hposition : position = byteLength (before ++ gap)) (hread : Lexeme.read c rest = .ok l)
    (hrest : Covers (before ++ gap ++ l.span) l.rest ts) :
    Covers before cs (⟨l.kind, String.ofList l.contents, position⟩ :: ts) := by
  have hspelled := Lexeme.spelled_of_read hread
  rw [← String.toList_ofList (l := l.contents)] at hspelled
  rw [byteLength_eq_utf8ByteSize] at hposition
  have hcovers := Covers.token (t := ⟨l.kind, String.ofList l.contents, position⟩) hgap
    l.span_ne_nil hposition hspelled hrest
  rw [List.append_assoc, l.span_append, hcs] at hcovers
  exact hcovers

/-- The offset counts the bytes in front, so that it moves on with each lexeme. -/
theorem covers_of_ofCharsFrom (hstart : start = byteLength before)
    (h : ofCharsFrom start cs = .ok ts) : Covers before cs ts := by
  fun_induction ofCharsFrom start cs generalizing before ts with
  | case1 start cs hdrop =>
    cases h
    have hsplit := List.takeWhile_append_dropWhile (p := Text.isBlank) (l := cs)
    rw [hdrop, List.append_nil] at hsplit
    rw [← hsplit]
    exact .blanks fun _ => List.mem_takeWhile_imp
  | case2 => cases h
  | case3 start cs position c rest hdrop l hread =>
    rename_i ih
    cases htail : ofCharsFrom (position + byteLength l.span) l.rest with
    | error err =>
      rw [htail] at h
      cases h
    | ok ts' =>
      rw [htail] at h
      cases h
      have hsplit := List.takeWhile_append_dropWhile (p := Text.isBlank) (l := cs)
      have hposition : position = byteLength (before ++ cs.takeWhile Text.isBlank) := by
        rw [byteLength_append, ← hstart]
      have hnext : position + byteLength l.span =
          byteLength (before ++ cs.takeWhile Text.isBlank ++ l.span) := by
        rw [byteLength_append, ← hposition]
      rw [hdrop] at hsplit
      exact .of_read hsplit (fun _ => List.mem_takeWhile_imp) hposition hread (ih hnext htail)

/-- Behind a text with its tokens, a blank starts anew. -/
theorem ofCharsFrom_append {more : List Char} (h : Covers before cs ts)
    (hmore : ∀ d ∈ more.head?, Text.isBlank d = true) :
    ofCharsFrom (byteLength before) (cs ++ more) =
      (ofCharsFrom (byteLength (before ++ cs)) more).map (ts ++ ·) := by
  induction h with
  | @blanks before gap hgap =>
    rw [ofCharsFrom_blanks _ _ hgap, byteLength_append]
    cases ofCharsFrom _ more <;> rfl
  | @token before gap span rest t ts hgap _ hposition hspelled _ ih =>
    -- A spelling starts with no blank, so the blanks in front end where the gap does.
    obtain ⟨c, w, rfl, hblank, htakes⟩ := (hspelled.append hmore).taken
    rw [← byteLength_eq_utf8ByteSize] at hposition
    rw [byteLength_append, ← hposition] at ih
    rw [byteLength_append] at hposition
    have hfirst := ofCharsFrom_takes t.position hblank htakes
    have hbefore : before ++ gap ++ c :: w ++ rest = before ++ (gap ++ c :: w ++ rest) := by simp
    rw [ih, String.ofList_toList, hbefore] at hfirst
    rw [List.append_assoc, List.append_assoc, ofCharsFrom_blanks _ _ hgap, ← hposition]
    refine hfirst.trans ?_
    cases ofCharsFrom _ more <;> rfl

theorem ofCharsFrom_nil (start : Nat) : ofCharsFrom start [] = .ok [] := by
  rw [ofCharsFrom_eq]
  rfl

theorem ofCharsFrom_of_covers (h : Covers before cs ts) :
    ofCharsFrom (byteLength before) cs = .ok ts := by
  have hmore : ∀ d ∈ ([] : List Char).head?, Text.isBlank d = true := nofun
  have happend := ofCharsFrom_append h hmore
  rw [List.append_nil, ofCharsFrom_nil] at happend
  exact happend.trans (congrArg Except.ok (List.append_nil ts))

/-- The tokens of a text are those that cover it. -/
theorem ofText_eq_ok_iff_covers {sql : String} :
    ofText sql = .ok ts ↔ Covers [] sql.toList ts := by
  constructor
  · exact covers_of_ofCharsFrom rfl
  · exact ofCharsFrom_of_covers

/-- Offsets count bytes, so that a name of one character in grave accents may take four. -/
example : ofText "\x60é\x60 >= 'it\\'s'AND x.y<>-1.5," = .ok
    [⟨.identifier, "é", 0⟩, ⟨.operator .ge, ">=", 5⟩, ⟨.text, "it's", 8⟩,
      ⟨.keyword .and, "AND", 15⟩, ⟨.identifier, "x.y", 19⟩, ⟨.operator .ne, "<>", 22⟩,
      ⟨.number, "-1.5", 24⟩, ⟨.comma, ",", 28⟩] := by
  cbv

end SearchSql.Token
