import Mathlib
import SearchSql.Proofs.Decimals.Shortest
import SearchSql.Proofs.Parsing.Test
import SearchSql.Proofs.Printing.Condition
import SearchSql.Proofs.Printing.Decimals
import SearchSql.Proofs.Tokens.Spans

/-!
Which literals their text gives again. Whole decimals are written as integers, infinite ones as
words, and the backslashes of a text are lost, because only its quotes are escaped.
-/

namespace SearchSql

open Grammar Lexeme

namespace Decimal

variable {p : Point}

/-- Without places behind the point there is no point. -/
theorem areDigits_positionalChars (h : 0 ≤ p.scale) : AreDigits (positionalChars false p) := by
  obtain ⟨hne, hdigits⟩ : AreDigits (digitChars p.digits) := areDigits_toDigits p.digits
  simp only [positionalChars, if_pos h, Bool.false_eq_true, ↓reduceIte, List.append_nil]
  refine ⟨by simp [hne], List.forall_mem_append.2 ⟨hdigits, forall_mem_zeros _⟩⟩

/-- A negative scale is the number of places behind the point, and the digits around the point are
those of the value. -/
theorem exists_positionalChars (h : p.scale < 0) : ∃ whole fraction,
    positionalChars false p = whole ++ '.' :: fraction ∧ AreDigits whole ∧ AreDigits fraction ∧
      Nat.ofDigitChars 10 (whole ++ fraction) 0 = p.digits ∧
      -(fraction.length : Int) = p.scale := by
  obtain ⟨hne, hdigits⟩ : AreDigits (digitChars p.digits) := areDigits_toDigits p.digits
  have hlength : 0 < (digitChars p.digits).length := List.length_pos_iff.2 hne
  have hvalue : Nat.ofDigitChars 10 (digitChars p.digits) 0 = p.digits :=
    Nat.ofDigitChars_ten_toDigits
  simp only [positionalChars, if_neg (Int.not_le.2 h)]
  generalize digitChars p.digits = digits at hne hdigits hlength hvalue ⊢
  split
  · next hwhole =>
    refine ⟨_, _, rfl, ⟨?_, ?_⟩, ⟨?_, ?_⟩, ?_, ?_⟩
    · exact List.length_pos_iff.1 (by rw [List.length_take]; omega)
    · exact fun c hc => hdigits c (List.mem_of_mem_take hc)
    · exact List.length_pos_iff.1 (by rw [List.length_drop]; omega)
    · exact fun c hc => hdigits c (List.mem_of_mem_drop hc)
    · rw [List.take_append_drop, hvalue]
    · rw [List.length_drop]
      omega
  · next hwhole =>
    refine ⟨['0'], List.replicate (-((digits.length : Int) + p.scale)).toNat '0' ++ digits, rfl,
      ⟨List.cons_ne_nil _ _, List.forall_mem_singleton.2 rfl⟩, ⟨?_, ?_⟩, ?_, ?_⟩
    · simp [hne]
    · exact List.forall_mem_append.2 ⟨forall_mem_zeros _, hdigits⟩
    · have hzero : Nat.ofDigitChars 10 ['0'] 0 = 0 := rfl
      rw [← List.append_assoc, Nat.ofDigitChars_append, Nat.ofDigitChars_append,
        Nat.ofDigitChars_replicate_zero, hzero, Nat.mul_zero, hvalue]
    · rw [List.length_append, List.length_replicate]
      omega

end Decimal

namespace Literal

variable {x : Double}

theorem toList_sql (x : Double) : (decimal x).sql.toList =
    if x.negative then '-' :: layout.magnitude x else layout.magnitude x := by
  rw [sql, Decimal.Layout.text, String.toList_ofList]

theorem magnitude_of_finite (hx : x.isFinite = true) : layout.magnitude x =
    match Decimal.shortest? .upward x with
    | none => ['0']
    | some p => Decimal.positionalChars false p := by
  simp only [Decimal.Layout.magnitude, hx]
  rfl

/-- A whole decimal is written without a point. -/
theorem magnitude_of_whole (hx : x.isFinite = true) (hwhole : x.IsWhole) :
    AreDigits (layout.magnitude x) := by
  rw [magnitude_of_finite hx]
  split
  · exact ⟨List.cons_ne_nil _ _, List.forall_mem_singleton.2 rfl⟩
  · next hp => exact Decimal.areDigits_positionalChars ((Decimal.scale_nonneg_iff hp).2 hwhole)

/-- A decimal with a fraction is written with a point, and the digits around it give it again. -/
theorem exists_magnitude_of_fraction (hx : x.isFinite = true) (hfraction : ¬ x.IsWhole) :
    ∃ whole fraction, layout.magnitude x = whole ++ '.' :: fraction ∧
      AreDigits whole ∧ AreDigits fraction ∧
      Double.ofDecimal x.negative (Nat.ofDigitChars 10 (whole ++ fraction) 0) (-fraction.length) =
        x := by
  have hzero : x.rank ≠ 0 := fun hzero => hfraction (Double.isWhole_of_rank_eq_zero hzero)
  obtain ⟨p, hp⟩ : ∃ p, Decimal.shortest? .upward x = some p :=
    Decimal.exists_shortest? hzero hx
  have hscale : p.scale < 0 := Int.not_le.1 (hfraction ∘ (Decimal.scale_nonneg_iff hp).1)
  obtain ⟨whole, fraction, hchars, hwhole, hplaces, hdigits, hlength⟩ :=
    Decimal.exists_positionalChars hscale
  refine ⟨whole, fraction, ?_, hwhole, hplaces, ?_⟩
  · rw [magnitude_of_finite hx, hp]
    exact hchars
  · rw [hdigits, hlength]
    exact Decimal.ofDecimal_shortest hp

variable {t : Token} {v : Literal} {s : String} {Q : Token → Prop}

/-- The text of the literal is one token, which stands for the literal wherever one is expected. -/
def ReadsBack (v : Literal) : Prop :=
  ∃ t, Token.ofText v.sql = .ok [t] ∧ ∀ expected, ofToken expected t = .ok v

/-- A backslash in a text is read as an escape, and a number without a point as an integer. -/
def HasOwnText : Literal → Prop
  | .integer _ | .boolean _ => True
  | .decimal x => x.isFinite = true ∧ ¬ x.IsWhole
  | .text s => '\\' ∉ s.toList

instance : DecidablePred HasOwnText
  | .integer _ | .boolean _ => inferInstanceAs (Decidable True)
  | .decimal x => inferInstanceAs (Decidable (x.isFinite = true ∧ ¬ x.IsWhole))
  | .text s => inferInstanceAs (Decidable ('\\' ∉ s.toList))

theorem readsBack_iff_value : v.ReadsBack ↔ ∃ t, Token.ofText v.sql = .ok [t] ∧ Value t v := by
  simp only [ReadsBack, ofToken_eq_ok_iff, forall_const]

theorem readsBack_of_spells (h : SpellsToken v.sql (Value · v)) : v.ReadsBack := by
  obtain ⟨_, htext, t, rfl, hv⟩ := h.ofText_eq
  exact readsBack_iff_value.2 ⟨t, htext, hv⟩

/-- What is known of the token that a text spells holds of the one that is read back. -/
theorem ReadsBack.exists_value (h : v.ReadsBack) (hspells : SpellsToken v.sql Q) :
    ∃ t, Q t ∧ Value t v := by
  obtain ⟨t, htext, hv⟩ := readsBack_iff_value.1 h
  obtain ⟨_, htext', t', rfl, ht'⟩ := hspells.ofText_eq
  rw [htext] at htext'
  cases htext'
  exact ⟨t, ht', hv⟩

/-- A whole decimal is read back as an integer, if at all. -/
theorem not_readsBack_of_whole (hx : x.isFinite = true) (hwhole : x.IsWhole) :
    ¬ (decimal x).ReadsBack := by
  intro h
  have hdigits := magnitude_of_whole hx hwhole
  have hpoint : '.' ∉ (decimal x).sql.toList := by
    have hmagnitude : '.' ∉ layout.magnitude x := fun hmem =>
      absurd (hdigits.2 '.' hmem) (by decide)
    rw [toList_sql]
    split
    · simpa using hmagnitude
    · exact hmagnitude
  obtain ⟨t, ⟨_, ht⟩, hv⟩ := h.exists_value (spellsToken_signed (toList_sql x) hdigits)
  cases hv with
  | decimal _ hx => exact hpoint (ht ▸ hx.point_mem)

theorem sql_of_infinite (hx : x.isFinite = false) :
    (decimal x).sql = if x.negative then "-inf" else "inf" := by
  have hmagnitude : layout.magnitude x = "inf".toList := by
    simp only [Decimal.Layout.magnitude, hx]
    rfl
  rw [← String.toList_inj, toList_sql, hmagnitude]
  split <;> rfl

/-- The text of an infinite decimal is a name, or no token at all. -/
theorem not_readsBack_of_infinite (hx : x.isFinite = false) : ¬ (decimal x).ReadsBack := by
  intro h
  obtain ⟨t, htext, hv⟩ := readsBack_iff_value.1 h
  rw [sql_of_infinite hx] at htext
  split at htext
  · have hrefused : Token.ofText "-inf" = .error (.lex 0 (.unrecognized '-')) := by cbv
    rw [hrefused] at htext
    cases htext
  · have hname : Token.ofText "inf" = .ok [⟨.identifier, "inf", 0⟩] := by cbv
    rw [hname] at htext
    cases htext
    cases hv with
    | decimal hnumber _ => cases hnumber

/-- A decimal with a fraction is read back. -/
theorem readsBack_of_fraction (hx : x.isFinite = true) (hfraction : ¬ x.IsWhole) :
    (decimal x).ReadsBack := by
  obtain ⟨whole, fraction, hmagnitude, hwhole, hplaces, hvalue⟩ :=
    exists_magnitude_of_fraction hx hfraction
  have hsql : (decimal x).sql.toList = decimalChars x.negative whole fraction := by
    rw [toList_sql, hmagnitude, decimalChars]
  have hspells := spells_decimalChars hsql hwhole hplaces
  rw [hvalue] at hspells
  exact readsBack_of_spells hspells

/-- Between quotes a backslash takes two characters, but only quotes are written with two. -/
theorem length_escaped_add_count {body contents : List Char} (h : Escapes body contents) :
    (escaped contents).length + contents.count '\\' ≤ body.length := by
  induction h with
  | nil => exact Nat.le_refl _
  | plain hquote hescape _ ih =>
    simp only [escaped, List.flatMap_cons, if_neg hquote, List.count_cons_of_ne hescape] at ih ⊢
    simp only [List.length_append, List.length_cons, List.length_nil]
    omega
  | @escaped c _ _ _ ih =>
    simp only [escaped, List.flatMap_cons, List.count_cons] at ih ⊢
    by_cases hquote : c = '\''
    · subst hquote
      simp only [↓reduceIte, List.length_append, List.length_cons, List.length_nil,
        show ('\'' == '\\') = false from rfl, Bool.false_eq_true]
      omega
    · simp only [hquote, ↓reduceIte, List.length_append, List.length_cons, List.length_nil]
      split <;> omega

theorem exists_escapes {a : String} (h : Token.ofText a = .ok [t]) (hkind : t.kind = .text) :
    ∃ body, Escapes body t.text.toList ∧ body.length + 2 ≤ a.toList.length := by
  have hcovers := Token.ofText_eq_ok_iff_covers.1 h
  generalize a.toList = cs at hcovers
  cases hcovers with
  | token _ _ _ hspelled _ =>
    rw [hkind] at hspelled
    generalize t.text.toList = contents at hspelled
    cases hspelled with
    | @text body _ rest hescapes =>
      refine ⟨body, hescapes, ?_⟩
      simp only [List.length_append, List.length_cons, List.length_nil]
      omega
    | punctuation hpunctuation =>
      unfold punctuation? at hpunctuation
      split at hpunctuation <;> cases hpunctuation

theorem not_mem_of_readsBack (h : (text s).ReadsBack) : '\\' ∉ s.toList := by
  obtain ⟨t, htext, hv⟩ := readsBack_iff_value.1 h
  cases hv with
  | text hkind =>
    obtain ⟨body, hescapes, hlength⟩ := exists_escapes htext hkind
    have hcount := length_escaped_add_count hescapes
    rw [sql, toList_quoted, List.length_cons, List.length_append, List.length_singleton] at hlength
    exact List.count_eq_zero.1 (by omega)

/-- A literal that some token stands for is read back from its text exactly when that is its own. -/
theorem readsBack_iff {expected : String} (h : ofToken expected t = .ok v) :
    v.ReadsBack ↔ v.HasOwnText := by
  have hvalue := ofToken_eq_ok_iff.1 h
  cases v with
  | integer n => exact iff_of_true (readsBack_of_spells (spells hvalue trivial)) trivial
  | boolean b => exact iff_of_true (readsBack_of_spells (spells hvalue trivial)) trivial
  | text s =>
    exact ⟨not_mem_of_readsBack, fun hplain => readsBack_of_spells (spells hvalue hplain)⟩
  | decimal x =>
    constructor
    · intro h
      have hx : x.isFinite = true := by
        by_contra hx
        exact not_readsBack_of_infinite (Bool.eq_false_iff.2 hx) h
      exact ⟨hx, fun hwhole => not_readsBack_of_whole hx hwhole h⟩
    · rintro ⟨hx, hfraction⟩
      exact readsBack_of_fraction hx hfraction

theorem two_and_half_readsBack :
    ofToken "literal value" ⟨.number, "2.5", 0⟩ = .ok (.decimal (Double.ofDecimal false 25 (-1))) ∧
      (decimal (Double.ofDecimal false 25 (-1))).ReadsBack := by
  have hread : ofToken "literal value" ⟨.number, "2.5", 0⟩ =
      .ok (.decimal (Double.ofDecimal false 25 (-1))) := by cbv
  exact ⟨hread, (readsBack_iff hread).2 (by decide +kernel)⟩

/-- The text `a\b` is read back as `ab`, and the decimal `1.0` as an integer. -/
theorem backslash_and_point_lost :
    (ofToken "literal value" ⟨.text, "a\\b", 0⟩ = .ok (.text "a\\b") ∧
      Token.ofText (text "a\\b").sql = .ok [⟨.text, "ab", 0⟩] ∧ ¬ (text "a\\b").ReadsBack) ∧
    ∃ x, ofToken "literal value" ⟨.number, "1.0", 0⟩ = .ok (.decimal x) ∧
      Token.ofText (decimal x).sql = .ok [⟨.number, "1", 0⟩] ∧ ¬ (decimal x).ReadsBack := by
  have hone : (decimal (Double.ofDecimal false 10 (-1))).sql = "1" := by decide +kernel
  have hwhole : ¬ (decimal (Double.ofDecimal false 10 (-1))).ReadsBack :=
    not_readsBack_of_whole (by decide +kernel) (by decide +kernel)
  refine ⟨⟨rfl, by cbv, fun h => not_mem_of_readsBack h (by decide)⟩, _, by cbv, ?_, hwhole⟩
  rw [hone]
  cbv

end Literal

end SearchSql
