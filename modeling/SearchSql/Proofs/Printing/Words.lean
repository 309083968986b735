import SearchSql.Proofs.Printing.Spelling
import SearchSql.Proofs.Tokens.Classes
import SearchSql.Statement.Printer

/-!
The texts of single tokens: names, keywords, numbers and quoted texts.
-/

namespace SearchSql

open Lexeme

variable {a : String} {c : Char} {w : List Char}

theorem spellsToken_of_takes {kind : TokenKind} {contents : List Char} (ha : a.toList = c :: w)
    (hblank : Text.isBlank c = false) (h : ∀ rest, EndsWord rest → Takes c w rest kind contents) :
    SpellsToken a fun t => t.kind = kind ∧ t.text = String.ofList contents := by
  intro start rest hrest
  have hstart := Token.ofCharsFrom_takes start hblank (h rest hrest)
  refine ⟨[⟨kind, String.ofList contents, start⟩], start + byteLength (c :: w),
    ⟨_, rfl, rfl, rfl⟩, ?_⟩
  rw [ha]
  exact hstart

theorem spellsToken_word {kind : TokenKind} (ha : a.toList = c :: w)
    (hstart : startsWord c = true) (hw : w.all continuesWord = true)
    (hkind : wordKind a.toList = kind) :
    SpellsToken a fun t => t.kind = kind ∧ t.text = a := by
  have hword := spellsToken_of_takes ha (isBlank_of_startsWord hstart) fun rest hrest =>
    takes_word hstart (List.all_eq_true.1 hw) hrest
  rw [← ha, String.ofList_toList, hkind] at hword
  exact hword

/-- A keyword is recognized character by character. -/
theorem Keyword.ofWord?_ofList (cs : List Char) : ofWord? (String.ofList cs) =
    all.find? fun k => k.word.toList == cs.map Char.toUpper := by
  rw [ofWord?]
  congr 1
  funext k
  rw [Bool.eq_iff_iff, beq_iff_eq, beq_iff_eq, ← String.toList_inj, String.toList_map,
    String.toList_ofList]

theorem Keyword.spells (k : Keyword) : SpellsToken k.word fun t => t.kind = .keyword k := by
  have hkind : wordKind k.word.toList = .keyword k := by
    rw [wordKind, ofWord?_ofList]
    cases k <;> rfl
  have hword : SpellsToken k.word fun t => t.kind = .keyword k ∧ t.text = k.word := by
    cases k <;> exact spellsToken_word rfl (by decide) (by decide) hkind
  exact hword.imp fun t ht => ht.1

/-- A keyword with a space behind it. -/
theorem Spells.word {b : String} {P : List Token → Prop} (k : Keyword) (ha : a = k.word ++ " ")
    (h : ∀ t, t.kind = .keyword k → Spells b fun vs => P (t :: vs)) : Spells (a ++ b) P := by
  rw [ha, String.append_assoc]
  exact .spaced k.spells h

theorem Metric.spells (m : Metric) :
    SpellsToken m.name fun t => t.kind = .identifier ∧ t.text = m.name := by
  have hkind : wordKind m.name.toList = .identifier := by
    rw [wordKind, Keyword.ofWord?_ofList]
    cases m <;> rfl
  cases m <;> exact spellsToken_word rfl (by decide) (by decide) hkind

/-- A name that the lexer reads as it stands, with no grave accents around it. -/
def IsBareName (name : String) : Prop := Token.ofText name = .ok [⟨.identifier, name, 0⟩]

theorem byteLength_eq_zero {cs : List Char} (h : byteLength cs = 0) : cs = [] := by
  cases cs with
  | nil => rfl
  | cons c cs =>
    have hsize := c.utf8Size_pos
    rw [byteLength] at h
    omega

/-- What is in a bare name, character by character. -/
theorem IsBareName.eq_cons {name : String} (h : IsBareName name) : ∃ c w, name.toList = c :: w ∧
    startsWord c = true ∧ w.all continuesWord = true ∧
    wordKind name.toList = .identifier := by
  obtain ⟨c, w, hdrop, l, hread, hkind, htext, hposition⟩ := Token.exists_lexeme_of_ofCharsFrom h
  have hblanks : name.toList.takeWhile Text.isBlank = [] :=
    byteLength_eq_zero ((Nat.zero_add _).symm.trans hposition.symm)
  have hname : name.toList = c :: w := by
    rw [← hdrop, ← List.nil_append (name.toList.dropWhile _), ← hblanks,
      List.takeWhile_append_dropWhile]
  have hcontents : l.contents = c :: w := by
    have hlist := congrArg String.toList htext
    rw [String.toList_ofList] at hlist
    exact hlist.symm.trans hname
  have hgrave : c ≠ '\x60' := by
    rintro rfl
    have hlength := congrArg List.length ((contents_of_quotedName hread).symm.trans hcontents)
    have hshorter := (List.takeWhile_sublist (· != '\x60') (l := w)).length_le
    rw [List.length_cons] at hlength
    omega
  obtain ⟨hstart, hword, hidentifier⟩ := startsWord_of_read hread hkind.symm hgrave
  rw [hcontents] at hword hidentifier
  refine ⟨c, w, hname, hstart, ?_, hname ▸ hidentifier⟩
  rw [(List.cons.inj hword).2]
  exact List.all_takeWhile

theorem IsBareName.spells {name : String} (h : IsBareName name) :
    SpellsToken name fun t => t.kind = .identifier ∧ t.text = name := by
  obtain ⟨c, w, hname, hstart, hw, hidentifier⟩ := h.eq_cons
  exact spellsToken_word hname hstart hw hidentifier

theorem isDigit_of_mem_toDigits {n : Nat} {d : Char} (h : d ∈ Nat.toDigits 10 n) :
    d.isDigit = true := Nat.isDigit_of_mem_toDigits (by decide) (by decide) h

theorem areDigits_toDigits (n : Nat) : AreDigits (Nat.toDigits 10 n) :=
  ⟨Nat.toDigits_ne_nil, fun _ hd => isDigit_of_mem_toDigits hd⟩

theorem spellsToken_digits {digits : List Char} (ha : a.toList = digits) (h : AreDigits digits) :
    SpellsToken a fun t => t.kind = .number ∧ t.text = a := by
  obtain ⟨hne, hdigit⟩ := h
  obtain ⟨c, w, hcons⟩ := List.exists_cons_of_ne_nil hne
  rw [hcons] at hdigit
  obtain ⟨hc, hw⟩ := List.forall_mem_cons.1 hdigit
  have hnumber := spellsToken_of_takes (ha.trans hcons) (isBlank_of_isDigit hc) fun rest hrest =>
    takes_digits hc hw hrest
  rw [← hcons, ← ha, String.ofList_toList] at hnumber
  exact hnumber

theorem spellsToken_negative {digits : List Char} (ha : a.toList = '-' :: digits)
    (h : AreDigits digits) : SpellsToken a fun t => t.kind = .number ∧ t.text = a := by
  have hnumber := spellsToken_of_takes ha (by decide) fun rest hrest =>
    takes_negative h.1 h.2 hrest
  rw [← ha, String.ofList_toList] at hnumber
  exact hnumber

/-- Digits with a minus sign in front, or without. -/
theorem spellsToken_signed {negative : Bool} {digits : List Char}
    (ha : a.toList = if negative then '-' :: digits else digits) (h : AreDigits digits) :
    SpellsToken a fun t => t.kind = .number ∧ t.text = a := by
  cases negative with
  | true => exact spellsToken_negative ha h
  | false => exact spellsToken_digits ha h

theorem spellsToken_integerText (n : Int) : SpellsToken (Decimal.integerText n) fun t =>
    t.kind = .number ∧ t.text = Decimal.integerText n := by
  have hsign : (Decimal.integerText n).toList = if decide (n < 0) = true
      then '-' :: Decimal.digitChars n.natAbs else Decimal.digitChars n.natAbs := by
    rw [Decimal.integerText, String.toList_ofList]
    simp only [decide_eq_true_eq]
  exact spellsToken_signed hsign (areDigits_toDigits n.natAbs)

namespace Decimal

theorem digits_toDigits (n : Nat) : Grammar.Digits (Nat.toDigits 10 n) n := by
  have hdigits := Grammar.Digits.mk (Nat.toDigits_ne_nil (n := n) (b := 10))
    fun d hd => isDigit_of_mem_toDigits hd
  rwa [Nat.ofDigitChars_ten_toDigits] at hdigits

/-- The text of an integer stands for it. -/
theorem integer_integerText (n : Int) : Grammar.Integer (integerText n).toList n := by
  have hdigits : Grammar.Digits (digitChars n.natAbs) n.natAbs := digits_toDigits n.natAbs
  rw [integerText, String.toList_ofList]
  split
  · have hn : -(n.natAbs : Int) = n := by omega
    have hminus : Grammar.Integer _ (-(n.natAbs : Int)) := .mk .minus hdigits
    rwa [hn] at hminus
  · have hn : (n.natAbs : Int) = n := by omega
    have hplain : Grammar.Integer _ (n.natAbs : Int) := .mk .none hdigits
    rwa [hn] at hplain

/-- The text of a count stands for it. -/
theorem natural_toString (n : Nat) : Grammar.Natural (toString n).toList n := by
  have htext : (toString n).toList = Nat.toDigits 10 n := Nat.toList_repr
  rw [htext]
  exact .mk .none (digits_toDigits n)

end Decimal

theorem Literal.spellsToken_boolean (b : Bool) :
    SpellsToken (Literal.boolean b).sql fun t =>
      t.kind = .keyword (if b then .true else .false) := by
  have hkind : wordKind (Literal.boolean b).sql.toList =
      .keyword (if b then .true else .false) := by
    rw [wordKind, Keyword.ofWord?_ofList]
    cases b <;> rfl
  have hword : SpellsToken (Literal.boolean b).sql fun t =>
      t.kind = .keyword (if b then .true else .false) ∧ t.text = (Literal.boolean b).sql := by
    cases b <;> exact spellsToken_word rfl (by decide) (by decide) hkind
  exact hword.imp fun t ht => ht.1

theorem Literal.toList_quoted (s : String) :
    (quoted s).toList = '\'' :: (escaped s.toList ++ ['\'']) := by
  rw [quoted, String.toList_ofList]
  rfl

theorem Literal.spellsToken_quoted {s : String} (h : '\\' ∉ s.toList) :
    SpellsToken (quoted s) fun t => t.kind = .text ∧ t.text = s := by
  have htext := spellsToken_of_takes (toList_quoted s) (by decide) fun rest _ =>
    takes_escapes rest (escapes_escaped h)
  rw [String.ofList_toList] at htext
  exact htext

theorem separates_comma : Separates "," .comma where
  ends b := by simp [continuesWord]
  spells h := .punctuation (c := ',') rfl rfl h

theorem separates_comma_space : Separates ", " .comma where
  ends b := by simp [continuesWord]
  spells {b P} h := by
    have hsep : ", " = "," ++ " " := by rfl
    rw [hsep, String.append_assoc]
    exact .punctuation (c := ',') rfl rfl fun t ht => (h t ht).space

theorem separates_keyword (k : Keyword) : Separates (" " ++ k.word ++ " ") (.keyword k) where
  ends b := by simp [continuesWord]
  spells {b P} h := by
    have hsplit : " " ++ k.word ++ " " ++ b = " " ++ ((k.word ++ " ") ++ b) := by
      simp only [String.append_assoc]
    rw [hsplit]
    exact .space (.word k rfl h)

end SearchSql
