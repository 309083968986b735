import SearchSql.Proofs.Meaning

/-!
The three-valued logic of SQL, in which a test of a missing field is neither true nor false. Of a
condition with negations, a query that requires the negated fields matches only documents of which
the condition is true, and one that does not require them matches all of those.
-/

namespace SearchSql

/-- A truth value of SQL. -/
inductive Truth
  | false
  | unknown
  | true
deriving DecidableEq

namespace Truth

def ofBool : Bool → Truth
  | .false => .false
  | .true => .true

/-- The truth of a test of a field. Without a value in the field there is nothing to test. -/
def ofTest (present holds : Bool) : Truth := if present then ofBool holds else .unknown

def not : Truth → Truth
  | .false => .true
  | .unknown => .unknown
  | .true => .false

def notIf (negated : Bool) (t : Truth) : Truth := if negated then t.not else t

/-- Kleene's conjunction: what is false decides it. -/
def and : Truth → Truth → Truth
  | .false, _ | _, .false => .false
  | .true, .true => .true
  | _, _ => .unknown

/-- Kleene's disjunction: what is true decides it. -/
def or : Truth → Truth → Truth
  | .true, _ | _, .true => .true
  | .false, .false => .false
  | _, _ => .unknown

def all (ts : List Truth) : Truth := ts.foldr and .true

def any (ts : List Truth) : Truth := ts.foldr or .false

@[simp] theorem not_ofBool (b : Bool) : (ofBool b).not = ofBool !b := by cases b <;> rfl

@[simp] theorem ofBool_eq_true {b : Bool} : ofBool b = .true ↔ b = .true := by
  cases b <;> simp [ofBool]

/-- A relation of truth values to verdicts that conjunction and disjunction keep. -/
structure Kept (R : Truth → Bool → Prop) : Prop where
  ofBool : ∀ b, R (ofBool b) b
  and : ∀ {t u b c}, R t b → R u c → R (t.and u) (b && c)
  or : ∀ {t u b c}, R t b → R u c → R (t.or u) (b || c)

namespace Kept

variable {R : Truth → Bool → Prop} {α : Type} {t : α → Truth} {b : α → Bool} {as : List α}

theorem all (hR : Kept R) (h : ∀ a ∈ as, R (t a) (b a)) :
    R (Truth.all (as.map t)) ((as.map b).all id) := by
  induction as with
  | nil => exact hR.ofBool .true
  | cons a as ih =>
    obtain ⟨ha, has⟩ := List.forall_mem_cons.1 h
    exact hR.and ha (ih has)

theorem any (hR : Kept R) (h : ∀ a ∈ as, R (t a) (b a)) :
    R (Truth.any (as.map t)) ((as.map b).any id) := by
  induction as with
  | nil => exact hR.ofBool .false
  | cons a as ih =>
    obtain ⟨ha, has⟩ := List.forall_mem_cons.1 h
    exact hR.or ha (ih has)

end Kept

/-- The verdict says what is true and what is false, and anything of what is unknown. -/
def Admits (t : Truth) (b : Bool) : Prop := t = .unknown ∨ t = ofBool b

/-- The verdict is positive only for what is true. -/
def Covers (t : Truth) (b : Bool) : Prop := b = .true → t = .true

theorem kept_eq_ofBool : Kept fun t b => t = ofBool b where
  ofBool _ := rfl
  and {t u b c} ht hu := by
    subst ht hu
    cases b <;> cases c <;> rfl
  or {t u b c} ht hu := by
    subst ht hu
    cases b <;> cases c <;> rfl

theorem kept_admits : Kept Admits where
  ofBool _ := .inr rfl
  and {t u b c} ht hu := by
    rcases ht with rfl | rfl <;> rcases hu with rfl | rfl <;> cases b <;> cases c <;>
      simp [Admits, and, ofBool]
  or {t u b c} ht hu := by
    rcases ht with rfl | rfl <;> rcases hu with rfl | rfl <;> cases b <;> cases c <;>
      simp [Admits, or, ofBool]

theorem kept_covers : Kept Covers where
  ofBool _ := ofBool_eq_true.2
  and {t u b c} ht hu h := by
    obtain ⟨hb, hc⟩ := (Bool.and_eq_true b c).mp h
    rw [ht hb, hu hc]
    rfl
  or {t u b c} ht hu h := by
    rcases (Bool.or_eq_true b c).mp h with hb | hc
    · rw [ht hb]
      rfl
    · rw [hu hc]
      cases t <;> rfl

theorem admits_ofTest (present holds : Bool) : (ofTest present holds).Admits holds := by
  cases present
  · exact .inl rfl
  · exact .inr rfl

theorem Admits.not {t : Truth} {b : Bool} (h : t.Admits b) : t.not.Admits !b := by
  rcases h with rfl | rfl
  · exact .inl rfl
  · exact .inr (not_ofBool b)

theorem Admits.of_true {t : Truth} {b : Bool} (h : t.Admits b) (ht : t = .true) : b = .true := by
  subst ht
  rcases h with h | h
  · cases h
  · exact ofBool_eq_true.1 h.symm

end Truth

variable {Value : Type} (E : Engine Value) (o : Options) (mode : TextEquality)
  (types : String → FieldType) (d : Document Value)

namespace Expression

/-- What a comparison of a field with a literal is of a document. How negation is compiled has no
part in it. -/
def compareTruth (f : String) (op : Comparison) (value : Literal) : Truth :=
  match op with
  | .ne => (Truth.ofTest (d.has f) (equals E ⟨.mustNot, mode⟩ types d f value)).not
  | _ => Truth.ofTest (d.has f) (compares E ⟨.mustNot, mode⟩ types d f op value)

mutual

/-- What a condition is of a document in three-valued logic. What is no condition is false. -/
def truth : Expression → Truth
  | .literal _ | .field _ => .false
  | .compare f op (.literal value) => compareTruth E mode types d f op value
  | .compare _ _ _ => .false
  | .between f low high negated =>
    (Truth.ofTest (d.has f) ((d f).any fun x =>
      E.atMost f (E.read f low) x && E.atMost f x (E.read f high))).notIf negated
  | .among f values negated =>
    (Truth.ofTest (d.has f) (values.any (equals E ⟨.mustNot, mode⟩ types d f))).notIf negated
  | .like f pattern => Truth.ofTest (d.has f) (E.matchesWildcard d f (wildcardOfLike pattern))
  | .present f negated => Truth.ofBool (if negated then !d.has f else d.has f)
  | .logical .and operands => Truth.all (truths operands)
  | .logical .or operands => Truth.any (truths operands)
  | .logical .not [operand] => operand.truth.not
  | .logical .not _ => .false

/-- What several conditions are of a document. -/
def truths : List Expression → List Truth
  | [] => []
  | e :: rest => e.truth :: truths rest

end

variable {E o mode types d} {e : Expression} {f : String} {b : Bool}
  {resolve : Resolver} {l : Lowered}

theorem truths_eq_map (es : List Expression) :
    truths E mode types d es = es.map (truth E mode types d) := by
  induction es with
  | nil => rfl
  | cons e es ih => rw [truths, ih, List.map_cons]

theorem verdicts_eq_map (es : List Expression) :
    verdicts E o types d es = es.map (holds E o types d) := by
  induction es with
  | nil => rfl
  | cons e es ih => rw [verdicts, ih, List.map_cons]

theorem has_of_any {p : Value → Bool} (h : (d f).any p = true) : d.has f = true := by
  rw [Document.has]
  cases hx : d f with
  | none => simp [hx] at h
  | some x => rfl

theorem has_of_equals {value : Literal} (h : equals E o types d f value = true) :
    d.has f = true := by
  unfold equals at h
  split at h
  case h_4 => split at h <;> exact has_of_any h
  all_goals exact has_of_any h

/-- A relation of truth values to verdicts holds of a condition when it holds of its tests and
negation keeps it. -/
theorem truth_related {R : Truth → Bool → Prop} (hR : Truth.Kept R)
    (test : ∀ leaf ∈ e.leaves, ∀ f, leaf.Tests f → ∀ negated b, (b = true → d.has f = true) →
      R ((Truth.ofTest (d.has f) b).notIf negated) (deniesIf o d negated f b))
    (not : ∀ operand : Expression, operand.leaves ⊆ e.leaves →
      R (operand.truth E o.textEquality types d) (operand.holds E o types d) →
      R (operand.truth E o.textEquality types d).not
        (denies o (decide (d.HasTested operand)) (operand.holds E o types d))) :
    R (e.truth E o.textEquality types d) (e.holds E o types d) := by
  induction e with
  | literal | field => exact hR.ofBool false
  | compare f op operand =>
    have htest := test _ (List.mem_singleton_self _) f .compare
    cases operand with
    | literal value =>
      cases op with
      | eq => exact htest false _ has_of_equals
      | ne => exact htest true _ has_of_equals
      | _ => exact htest false _ has_of_any
    | _ => exact hR.ofBool false
  | between f low high negated =>
    exact test _ (List.mem_singleton_self _) f .between negated _ has_of_any
  | among f values negated =>
    refine test _ (List.mem_singleton_self _) f .among negated _ fun h => ?_
    obtain ⟨value, _, hvalue⟩ := List.any_eq_true.1 h
    exact has_of_equals hvalue
  | like f pattern => exact test _ (List.mem_singleton_self _) f .like false _ has_of_any
  | present f negated =>
    rw [truth, holds]
    exact hR.ofBool _
  | logical op operands ih =>
    have hsubset : ∀ operand ∈ operands,
        operand.leaves ⊆ (Expression.logical op operands).leaves := by
      intro operand hmem leaf hleaf
      exact mem_leaves_logical.2 ⟨operand, hmem, hleaf⟩
    have hoperands : ∀ operand ∈ operands, R (operand.truth E o.textEquality types d)
        (operand.holds E o types d) := by
      intro operand hmem
      exact ih operand hmem (fun leaf hleaf => test leaf (hsubset operand hmem hleaf))
        fun inner hinner => not inner (List.Subset.trans hinner (hsubset operand hmem))
    cases op with
    | and =>
      rw [truth, holds, truths_eq_map, verdicts_eq_map]
      exact hR.all hoperands
    | or =>
      rw [truth, holds, truths_eq_map, verdicts_eq_map]
      exact hR.any hoperands
    | not =>
      rcases operands with _ | ⟨operand, _ | ⟨_, _⟩⟩
      · exact hR.ofBool false
      · have hmem : operand ∈ [operand] := List.mem_singleton_self _
        exact not operand (hsubset operand hmem) (hoperands operand hmem)
      · exact hR.ofBool false

theorem denies_of_complete : denies o true b = !b := by
  cases hnegation : o.negation <;> simp [denies, hnegation]

/-- Where no tested field is missing, nothing is unknown, and negated fields need not be
required. -/
theorem truth_eq_ofBool (h : d.HasTested e) :
    e.truth E o.textEquality types d = Truth.ofBool (e.holds E o types d) := by
  refine truth_related Truth.kept_eq_ofBool ?test ?not
  case test =>
    intro leaf hleaf f hf negated b _
    have hfield : d.has f = true := h leaf hleaf f hf
    cases negated <;> simp [Truth.ofTest, Truth.notIf, deniesIf, denies_of_complete, hfield]
  case not =>
    intro operand hsubset heq
    have hoperand : d.HasTested operand := fun leaf hleaf => h leaf (hsubset hleaf)
    rw [decide_eq_true hoperand, denies_of_complete, heq, Truth.not_ofBool]

/-- A negation that does not require its fields lets no true condition go. -/
theorem truth_admits (hnegation : o.negation = .mustNot) :
    (e.truth E o.textEquality types d).Admits (e.holds E o types d) := by
  have hdenies : ∀ complete b, denies o complete b = !b := by simp [denies, hnegation]
  refine truth_related Truth.kept_admits ?test ?not
  case test =>
    intro _ _ f _ negated b _
    have htest := Truth.admits_ofTest (d.has f) b
    cases negated with
    | false => exact htest
    | true =>
      rw [deniesIf, if_pos rfl, hdenies]
      exact htest.not
  case not =>
    intro operand _ ih
    rw [hdenies]
    exact ih.not

/-- A negation that requires its fields holds only where nothing in it is unknown. -/
theorem truth_covers (hnegation : o.negation = .requireField) :
    (e.truth E o.textEquality types d).Covers (e.holds E o types d) := by
  have hdenies : ∀ complete b, denies o complete b = true → b = false ∧ complete = true := by
    simp [denies, hnegation]
  refine truth_related Truth.kept_covers ?test ?not
  case test =>
    intro _ _ f _ negated b hb h
    cases negated with
    | false =>
      have hholds : b = true := h
      simp [Truth.ofTest, Truth.notIf, hb hholds, hholds]
    | true =>
      obtain ⟨rfl, hfield⟩ := hdenies (d.has f) b h
      simp [Truth.ofTest, Truth.notIf, hfield]
  case not =>
    -- The hypothesis about the operand is one-sided and says nothing of where it does not hold.
    -- But the negation requires its fields, and with these nothing in it is unknown.
    intro operand _ _ h
    obtain ⟨hholds, hfields⟩ := hdenies _ _ h
    rw [truth_eq_ofBool (of_decide_eq_true hfields), hholds]
    rfl

theorem exists_selects_of_negation (negation : Negation) (answers : ∀ f, resolve f = .ok (types f))
    (h : e.compile o resolve = .ok l) :
    ∃ l', e.compile { o with negation } resolve = .ok l' ∧
      l'.query.selects E d = e.holds E { o with negation } types d := by
  obtain ⟨_, hl, _⟩ := exists_of_bind_eq_ok h
  obtain ⟨l', hl'⟩ := exists_lower { o with negation } (fun f => typeOf_eq_ok_iff.2 (answers f)) hl
  have hselects := selects_lower E d answers hl'
  refine ⟨{ l' with notes := l'.notes.eraseDups }, ?_, hselects⟩
  rw [compile, hl']
  rfl

/-- A condition that has a query has one under either mode of negation. The stricter query matches
only documents of which the condition is true, the laxer one matches all of them, and the three
agree on a document that has every field the condition tests. -/
theorem compile_encloses_truth (answers : ∀ f, resolve f = .ok (types f))
    (h : e.compile o resolve = .ok l) :
    ∃ strict lax, e.compile { o with negation := .requireField } resolve = .ok strict ∧
      e.compile { o with negation := .mustNot } resolve = .ok lax ∧
      (strict.query.selects E d = true → e.truth E o.textEquality types d = .true) ∧
      (e.truth E o.textEquality types d = .true → lax.query.selects E d = true) ∧
      (d.HasTested e →
        (strict.query.selects E d = true ↔ e.truth E o.textEquality types d = .true) ∧
        (lax.query.selects E d = true ↔ e.truth E o.textEquality types d = .true)) := by
  obtain ⟨strict, hstrict, hs⟩ :=
    exists_selects_of_negation (E := E) (d := d) .requireField answers h
  obtain ⟨lax, hlax, hl⟩ :=
    exists_selects_of_negation (E := E) (d := d) .mustNot answers h
  have hcovers : (e.truth E o.textEquality types d).Covers
      (e.holds E { o with negation := .requireField } types d) :=
    truth_covers (o := { o with negation := .requireField }) rfl
  have hadmits : (e.truth E o.textEquality types d).Admits
      (e.holds E { o with negation := .mustNot } types d) :=
    truth_admits (o := { o with negation := .mustNot }) rfl
  refine ⟨strict, lax, hstrict, hlax, ?_, ?_, ?_⟩
  · rw [hs]
    exact hcovers
  · rw [hl]
    exact hadmits.of_true
  · intro hfields
    have htrue (negation : Negation) : e.holds E { o with negation } types d = true ↔
        e.truth E o.textEquality types d = .true := by
      rw [truth_eq_ofBool (o := { o with negation }) hfields, Truth.ofBool_eq_true]
    rw [hs, hl]
    exact ⟨htrue .requireField, htrue .mustNot⟩

end Expression

/-- A person of 36 is not between 20 and 30, so the condition is true whatever the missing city is.
The laxer query finds the person. -/
theorem compile_encloses_truth_nested_negation :
    let types : String → FieldType := fun f => if f = "age" then .numeric else .analyzed
    let resolve : Resolver := fun f => .ok (types f)
    let e : Expression := .not (.and [.between "age" (.integer 20) (.integer 30) false,
      .not (.compareLiteral "city" .eq (.text "Nogal"))])
    let d : Document Literal := fun f => if f = "age" then some (.integer 36) else none
    ∃ lax, e.compile Options.default resolve = .ok lax ∧
      e.truth Engine.ofLiterals .phrase types d = .true ∧
      lax.query.selects Engine.ofLiterals d = true := by
  intro types resolve e d
  obtain ⟨l, hl⟩ : ∃ l, e.compile Options.default resolve = .ok l := ⟨_, rfl⟩
  have answers : ∀ f, resolve f = .ok (types f) := fun _ => rfl
  have htruth : e.truth Engine.ofLiterals .phrase types d = .true := by decide
  obtain ⟨_, lax, _, hlax, _, hmatches, _⟩ :=
    Expression.compile_encloses_truth (E := Engine.ofLiterals) (d := d) answers hl
  exact ⟨lax, hlax, htruth, hmatches htruth⟩

end SearchSql
