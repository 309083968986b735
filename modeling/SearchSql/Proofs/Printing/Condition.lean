import SearchSql.Proofs.Printing.Words

/-!
The text of a condition stands for tokens that derive it again. A run inside another condition
stands in parentheses, and nothing else needs them.
-/

namespace SearchSql

open Grammar

/-- A literal whose text gives its value again: no decimal, and no text with a backslash. -/
def Literal.IsPlain : Literal → Prop
  | .integer _ | .boolean _ => True
  | .decimal _ => False
  | .text s => '\\' ∉ s.toList

/-- A condition with bare names, and with literals and patterns whose text gives their value. -/
inductive Expression.IsPlain : Expression → Prop
  | literal {value} : value.IsPlain → IsPlain (.literal value)
  | field {name} : IsBareName name → IsPlain (.field name)
  | compare {f op operand} : IsBareName f → IsPlain operand → IsPlain (.compare f op operand)
  | between {f low high negated} : IsBareName f → low.IsPlain → high.IsPlain →
      IsPlain (.between f low high negated)
  | among {f values negated} : IsBareName f → (∀ value ∈ values, value.IsPlain) →
      IsPlain (.among f values negated)
  | like {f pattern} : IsBareName f → '\\' ∉ pattern.toList → IsPlain (.like f pattern)
  | present {f negated} : IsBareName f → IsPlain (.present f negated)
  | logical {op operands} : (∀ operand ∈ operands, IsPlain operand) →
      IsPlain (.logical op operands)

theorem Literal.spells {t : Token} {value : Literal} (h : Value t value) (hplain : value.IsPlain) :
    SpellsToken value.sql (Value · value) := by
  cases h with
  | text _ =>
    exact (spellsToken_quoted hplain).imp fun t ht => ht.2 ▸ .text ht.1
  | true _ =>
    exact (spellsToken_boolean true).imp fun t ht => .true ht
  | false _ =>
    exact (spellsToken_boolean false).imp fun t ht => .false ht
  | decimal _ _ => exact hplain.elim
  | @integer n _ _ hfits =>
    refine (spellsToken_integerText n).imp fun t ht => .integer ht.1 ?_ hfits
    rw [ht.2]
    exact Decimal.integer_integerText n

namespace Expression

variable {w : List Token} {e : Expression} {b : String} {P : List Token → Prop}

/-- The word NOT in front of the rest of a condition, if it is there. -/
theorem spells_notWord (negated : Bool)
    (h : ∀ nots, Grammar.Optional (.keyword .not) nots negated →
      Spells b fun vs => P (nots ++ vs)) :
    Spells (notWord negated ++ b) P := by
  cases negated with
  | false => simpa [notWord] using h [] .absent
  | true => exact .word .not rfl fun t ht => h [t] (.present ht)

theorem condition_of_negation (h : Negated w e) : Condition w e :=
  .mk (.one (.one h) .one) .one

theorem spells_compareLiteral {f : String} {op : Comparison} {v : Token} {value : Literal}
    (hv : Value v value) (hplain : (Expression.compare f op (.literal value)).IsPlain) :
    Spells (Expression.compare f op (.literal value)).sql
      (Predicate · (.compare f op (.literal value))) := by
  cases hplain with
  | compare hname hoperand =>
    cases hoperand with
    | literal hvalue =>
      simp only [sql, String.append_assoc]
      refine .spaced hname.spells fun f' hf => .operator fun c hc => ?_
      refine .last (Literal.spells hv hvalue) fun v' hv' => ?_
      exact hf.2 ▸ .compare hf.1 hc hv'

theorem spells_like {f pattern : String} (hname : IsBareName f) (hpattern : '\\' ∉ pattern.toList) :
    Spells (Expression.like f pattern).sql (Predicate · (.like f pattern)) := by
  simp only [sql, String.append_assoc]
  refine .token hname.spells ((separates_keyword .like).ends _) fun f' hf => ?_
  refine (separates_keyword .like).spells fun l hl => ?_
  refine .last (Literal.spellsToken_quoted hpattern) fun p hp => ?_
  have hlike := Predicate.like hf.1 hl hp.1
  rwa [hf.2, hp.2] at hlike

theorem spells_predicate (h : Predicate w e) (hplain : e.IsPlain) :
    Spells e.sql (Negated · e) := by
  cases h with
  | @compareField f c g op hf hc hg =>
    cases hplain with
    | compare hname hoperand =>
      cases hoperand with
      | field hother =>
        simp only [sql, String.append_assoc]
        refine .spaced hname.spells fun f' hf' => .operator fun c hc => ?_
        refine .last hother.spells fun g' hg' => .primary (.predicate ?_)
        have hcompare := Predicate.compareField hf'.1 hc hg'.1
        rwa [hf'.2, hg'.2] at hcompare
  | compare hf hc hv =>
    exact (spells_compareLiteral hv hplain).mono fun ts hts => .primary (.predicate hts)
  | flipped hv hc hturned hf =>
    -- The text has the field in front, so the tokens take another production to the same tree.
    exact (spells_compareLiteral hv hplain).mono fun ts hts => .primary (.predicate hts)
  | @between f nots b l a h negated low high hf hnots hb hl ha hh =>
    cases hplain with
    | between hname hlow hhigh =>
      simp only [sql, String.append_assoc]
      refine .spaced hname.spells fun f' hf' => ?_
      refine spells_notWord negated fun nots' hnots' => ?_
      refine .word .between rfl fun b' hb' => ?_
      refine .token (Literal.spells hl hlow) ((separates_keyword .and).ends _) fun l' hl' => ?_
      refine (separates_keyword .and).spells fun a' ha' => ?_
      refine .last (Literal.spells hh hhigh) fun h' hh' => .primary (.predicate ?_)
      have hbetween := Predicate.between hf'.1 hnots' hb' hl' ha' hh'
      rw [hf'.2] at hbetween
      simpa using hbetween
  | @among f nots i left vs right negated values hf hnots hi hleft hvs hright =>
    cases hplain with
    | among hname hvalues =>
      have hin : "IN (" = "IN " ++ "(" := by rfl
      simp only [sql, String.append_assoc, hin]
      refine .spaced hname.spells fun f' hf' => ?_
      refine spells_notWord negated fun nots' hnots' => ?_
      refine .word .in rfl fun i' hi' => ?_
      refine .punctuation (c := '(') rfl rfl fun left' hleft' => ?_
      have htexts := separates_comma_space.rederive hvs fun value hmem ts hts => by
        obtain ⟨v, _, hv⟩ := hts
        exact Literal.spells hv (hvalues value hmem)
      refine .append htexts (by simp [Lexeme.continuesWord]) fun vs' hvs' => ?_
      refine .closing (c := ')') rfl rfl fun right' hright' => .primary (.predicate ?_)
      have hamong := Predicate.among hf'.1 hnots' hi' hleft' hvs' hright'
      rw [hf'.2] at hamong
      simpa using hamong
  | like hf hl hp =>
    cases hplain with
    | like hname hpattern =>
      exact (spells_like hname hpattern).mono fun ts hts => .primary (.predicate hts)
  | notLike hf hn hl hp =>
    -- NOT stands in front of the whole test here, not between the field and LIKE.
    cases hplain with
    | logical hoperands =>
      cases hoperands _ List.mem_cons_self with
      | like hname hpattern =>
        refine .word .not rfl fun n hn => ?_
        exact (spells_like hname hpattern).mono fun ts hts => .not hn (.primary (.predicate hts))
  | @present f i nots m required hf hi hnots hm =>
    cases hplain with
    | present hname =>
      cases required with
      | false =>
        have hmissing : " IS MISS" = " " ++ ("IS " ++ "MISS") := by rfl
        simp only [sql, Bool.not_false, ↓reduceIte, hmissing]
        refine .spaced hname.spells fun f' hf' => .word .is rfl fun i' hi' => ?_
        refine .last Keyword.miss.spells fun m' hm' => .primary (.predicate ?_)
        exact hf'.2 ▸ .present hf'.1 hi' .absent (.inl hm')
      | true =>
        have hpresent : " IS NOT MISS" = " " ++ ("IS " ++ ("NOT " ++ "MISS")) := by rfl
        simp only [sql, Bool.not_true, Bool.false_eq_true, ↓reduceIte, hpresent]
        refine .spaced hname.spells fun f' hf' => ?_
        refine .word .is rfl fun i' hi' => .word .not rfl fun n' hn' => ?_
        refine .last Keyword.miss.spells fun m' hm' => .primary (.predicate ?_)
        exact hf'.2 ▸ .present hf'.1 hi' (.present hn') (.inl hm')

/-- The text of the condition derives it again, alone as well as inside another condition. -/
structure Rederives (e : Expression) : Prop where
  whole : Spells e.sql (Condition · e)
  nested : Spells (e.nested e.sql) (Negated · e)

theorem rederives_of_negation (hrun : e.isRun = false) (h : Spells e.sql (Negated · e)) :
    Rederives e where
  whole := h.mono fun _ hts => condition_of_negation hts
  nested := by simpa [Expression.nested, hrun] using h

theorem rederives_of_condition (hrun : e.isRun = true) (h : Spells e.sql (Condition · e)) :
    Rederives e where
  whole := h
  nested := by
    rw [Expression.nested, if_pos hrun, String.append_assoc]
    refine .punctuation (c := '(') rfl rfl fun left hleft => ?_
    refine .append h (by simp [Lexeme.continuesWord]) fun ts hts => ?_
    obtain ⟨hdisjuncts, hjoined⟩ := hts
    refine .closing (c := ')') rfl rfl fun right hright => ?_
    exact .primary (.parens hleft hdisjuncts hjoined hright)

theorem operandTexts_eq_map (es : List Expression) :
    operandTexts es = es.map fun e => e.nested e.sql := by
  induction es with
  | nil => rfl
  | cons e es ih => rw [operandTexts, ih, List.map_cons]

theorem conjuncts_of_separated {es : List Expression}
    (h : Separated (.keyword .and) Negated w es) : Conjuncts w es := by
  induction h with
  | one he => exact .one he
  | more he ht _ ih => exact .more he ht ih

theorem disjuncts_of_separated {es : List Expression}
    (h : Separated (.keyword .or) Negated w es) : Disjuncts w es := by
  induction h with
  | one he => exact .one (.one he) .one
  | more he ht _ ih => exact .more (.one he) .one ht ih

theorem spells_operands {es : List Expression} (k : Keyword) (hne : es ≠ [])
    (h : ∀ e ∈ es, Rederives e) :
    Spells (String.intercalate (" " ++ k.word ++ " ") (operandTexts es))
      (Separated (.keyword k) Negated · es) := by
  rw [operandTexts_eq_map]
  exact (separates_keyword k).intercalate hne fun e he => (h e he).nested

/-- A run derives itself again if its operands do. -/
theorem rederives_run {op : Connective} {es : List Expression} (hop : op ≠ .not)
    (hjoined : Joined op es e) (hplain : e.IsPlain) (h : ∀ e ∈ es, e.IsPlain → Rederives e) :
    Rederives e := by
  cases hjoined with
  | one => exact h e List.mem_cons_self hplain
  | @run e e' es =>
    cases hplain with
    | logical hoperands =>
      have hne : e :: e' :: es ≠ [] := List.cons_ne_nil e (e' :: es)
      have hrederive : ∀ operand ∈ e :: e' :: es, Rederives operand := by
        intro operand hmem
        exact h operand hmem (hoperands operand hmem)
      cases op with
      | and =>
        refine rederives_of_condition rfl ?_
        refine (spells_operands .and hne hrederive).mono fun ts hts => ?_
        exact .mk (.one (conjuncts_of_separated hts) .run) .one
      | or =>
        refine rederives_of_condition rfl ?_
        refine (spells_operands .or hne hrederive).mono fun ts hts => ?_
        exact .mk (disjuncts_of_separated hts) .run
      | not => exact (hop rfl).elim

theorem rederives_not (hplain : e.not.IsPlain) (h : e.IsPlain → Rederives e) :
    Rederives e.not := by
  cases hplain with
  | logical hoperands =>
    have hnested := (h (hoperands e List.mem_cons_self)).nested
    refine rederives_of_negation rfl (.word .not rfl fun t ht => ?_)
    exact hnested.mono fun ts hts => .not ht hts

theorem rederives_predicate (h : Predicate w e) (hplain : e.IsPlain) : Rederives e := by
  have hspells := spells_predicate h hplain
  cases h <;> exact rederives_of_negation rfl hspells

/-- Any condition that some tokens derive is derived by the tokens of its text. -/
theorem spells_condition (h : Condition w e) (hplain : e.IsPlain) :
    Spells e.sql (Condition · e) := by
  have hrederives : e.IsPlain → Rederives e := by
    refine Condition.induction (motive := fun e => e.IsPlain → Rederives e) h ?predicate ?not ?run
    case predicate =>
      intro ts e hpredicate hplain
      exact rederives_predicate hpredicate hplain
    case not =>
      intro e ih hplain
      exact rederives_not hplain ih
    case run =>
      intro op es e hop hjoined ih hplain
      exact rederives_run hop hjoined hplain ih
  exact (hrederives hplain).whole

end Expression

end SearchSql
