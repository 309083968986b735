import SearchSql.Proofs.Lowering
import SearchSql.Proofs.Matching
import SearchSql.Proofs.Shape

/-!
What a condition says of a document. The query of a condition matches exactly the documents of
which the condition holds.
-/

namespace SearchSql

variable {Value : Type} (E : Engine Value) (o : Options) (types : String → FieldType)
  (d : Document Value)

/-- The document has every field whose value some test in a condition is about. -/
def Document.HasTested (d : Document Value) (e : Expression) : Prop :=
  ∀ leaf ∈ e.leaves, ∀ f, leaf.Tests f → d.has f = true

theorem Document.hasTested_iff {d : Document Value} {e : Expression} :
    d.HasTested e ↔ ∀ f ∈ e.tests, d.has f = true := by
  simp only [HasTested, Expression.mem_tests_iff]
  constructor
  · rintro h f ⟨leaf, hleaf, hf⟩
    exact h leaf hleaf f hf
  · intro h leaf hleaf f hf
    exact h f ⟨leaf, hleaf, hf⟩

instance (d : Document Value) (e : Expression) : Decidable (d.HasTested e) :=
  decidable_of_iff _ Document.hasTested_iff.symm

namespace Expression

/-- Whether a field equals a literal. Analyzed text is compared as a phrase or by its words. -/
def equals (f : String) (value : Literal) : Bool :=
  match types f with
  | .exact | .numeric | .date => E.matchesTerm d f value
  | .analyzed =>
    match o.textEquality with
    | .phrase => E.matchesPhrase d f value
    | .anyWord => E.matchesWord d f value

/-- The negation of a condition, which may require that the document is complete: that it has what
the condition tests. -/
def denies (complete holds : Bool) : Bool :=
  match o.negation with
  | .mustNot => !holds
  | .requireField => !holds && complete

/-- The negation of a test of one field where the condition asks for it. -/
def deniesIf (negated : Bool) (f : String) (holds : Bool) : Bool :=
  if negated then denies o (d.has f) holds else holds

/-- A comparison of a field with a literal. Only a value stands in an order. -/
def compares (f : String) (op : Comparison) (value : Literal) : Bool :=
  match op with
  | .eq => equals E o types d f value
  | .ne => denies o (d.has f) (equals E o types d f value)
  | .gt => (d f).any fun x => E.less f (E.read f value) x
  | .ge => (d f).any fun x => E.atMost f (E.read f value) x
  | .lt => (d f).any fun x => E.less f x (E.read f value)
  | .le => (d f).any fun x => E.atMost f x (E.read f value)

mutual

/-- Whether a condition holds of a document. What is no condition holds of none. -/
def holds : Expression → Bool
  | .literal _ | .field _ => false
  | .compare f op (.literal value) => compares E o types d f op value
  | .compare _ _ _ => false
  | .between f low high negated =>
    deniesIf o d negated f ((d f).any fun x =>
      E.atMost f (E.read f low) x && E.atMost f x (E.read f high))
  | .among f values negated => deniesIf o d negated f (values.any (equals E o types d f))
  | .like f pattern => E.matchesWildcard d f (wildcardOfLike pattern)
  | .present f negated => if negated then !d.has f else d.has f
  | .logical .and operands => (verdicts operands).all id
  | .logical .or operands => (verdicts operands).any id
  | .logical .not [operand] => denies o (decide (d.HasTested operand)) operand.holds
  | .logical .not _ => false

/-- Which of several conditions hold of a document. -/
def verdicts : List Expression → List Bool
  | [] => []
  | e :: rest => e.holds :: verdicts rest

end

end Expression

namespace Lowered

theorem selects_equality (f : String) (value : Literal) :
    (equality o f (types f) value).query.selects E d = Expression.equals E o types d f value := by
  unfold equality Expression.equals
  cases types f with
  | analyzed => cases o.textEquality <;> rfl
  | _ => rfl

theorem selects_membership (f : String) (values : List Literal) :
    (membership o f (types f) values).query.selects E d =
      values.any (Expression.equals E o types d f) := by
  have hvalue := funext (selects_equality E o types d f)
  unfold equality at hvalue
  unfold membership
  cases htype : types f with
  | analyzed =>
    simp only [htype] at hvalue
    simp only [Query.selects_anyOf, List.any_map, Function.comp_def, hvalue]
  | _ =>
    simp only [htype, Query.selects_term] at hvalue
    simp only [Query.selects_terms, ← hvalue]

theorem selects_negate (fields : List String) (l : Lowered) :
    (l.negate o fields).query.selects E d =
      Expression.denies o (fields.all d.has) (l.query.selects E d) := by
  unfold negate Expression.denies
  split
  · next hfields => cases o.negation <;> simp [hfields]
  · cases o.negation with
    | mustNot => simp
    | requireField =>
      simp [Query.selects_bool, Query.required, Function.comp_def, Bool.and_comm]

theorem selects_negateIf (negated : Bool) (f : String) (l : Lowered) :
    (l.negateIf o negated f).query.selects E d =
      Expression.deniesIf o d negated f (l.query.selects E d) := by
  cases negated with
  | false => rfl
  | true => simpa [negateIf, Expression.deniesIf] using selects_negate E o d [f] l

/-- Which clauses are scored does not matter for what all of them match. -/
theorem selects_conjunction (ls : List Lowered) :
    (conjunction ls).query.selects E d = (ls.map query).all (Query.selects E d) := by
  simp only [conjunction, Query.selects_bool]
  generalize ls.map query = queries
  rw [Bool.eq_iff_iff]
  constructor
  · intro h
    simp only [Bool.and_eq_true, List.all_eq_true, List.mem_filter] at h
    obtain ⟨⟨⟨hmust, hfilter⟩, _⟩, _⟩ := h
    refine List.all_eq_true.2 fun q hq => ?_
    by_cases hscored : q.isScored
    · exact hmust q ⟨hq, hscored⟩
    · exact hfilter q ⟨hq, by simpa using hscored⟩
  · intro h
    rw [List.all_eq_true] at h
    simp only [Bool.and_eq_true, List.all_eq_true, List.mem_filter]
    exact ⟨⟨⟨fun q hq => h q hq.1, fun q hq => h q hq.1⟩, rfl⟩, by simp [Query.required]⟩

theorem selects_disjunction (ls : List Lowered) :
    (disjunction ls).query.selects E d = (ls.map query).any (Query.selects E d) :=
  Query.selects_anyOf E d _

end Lowered

namespace Expression

variable {o types} {resolve : Resolver} {e : Expression} {l : Lowered}

theorem typeOf_eq (answers : ∀ f, resolve f = .ok (types f)) {f : String} {type : FieldType}
    (h : resolve.typeOf f = .ok type) : type = types f := by
  simp only [Resolver.typeOf, answers f, Except.ok.injEq] at h
  exact h.symm

theorem selects_comparison {f : String} {op : Comparison} {value : Literal}
    (h : Lowered.comparison o f (types f) op value = .ok l) :
    l.query.selects E d = compares E o types d f op value := by
  obtain ⟨rfl, rfl⟩ | ⟨rfl, rfl⟩ | ⟨bounds, hbounds, _, rfl⟩ := Lowered.comparison_eq_ok h
  · exact Lowered.selects_equality E o types d f value
  · simp only [Lowered.selects_negate, Lowered.selects_equality, compares, List.all_cons,
      List.all_nil, Bool.and_true]
  · cases op <;> simp only [Lowered.bounds?, Option.some.injEq, reduceCtorEq] at hbounds <;>
      subst hbounds <;>
      cases hx : d f <;> simp [Engine.matchesRange, Engine.within, compares, Bounds.unbounded, hx]

theorem verdicts_eq_of_forall₂ {es : List Expression} {ls : List Lowered}
    (h : List.Forall₂ (fun e l => l.query.selects E d = e.holds E o types d) es ls) :
    verdicts E o types d es = (ls.map Lowered.query).map (Query.selects E d) := by
  induction h with
  | nil => rfl
  | cons he _ ih => rw [verdicts, ih, ← he]; rfl

/-- The fields that a negation requires are those that the condition behind it tests. -/
theorem all_testedFields (e : Expression) :
    e.testedFields.all d.has = decide (d.HasTested e) := by
  rw [Bool.eq_iff_iff, decide_eq_true_iff, Document.hasTested_iff]
  simp only [testedFields, List.all_eq_true, List.mem_eraseDups]

theorem selects_lower (answers : ∀ f, resolve f = .ok (types f))
    (h : e.lower o resolve = .ok l) : l.query.selects E d = e.holds E o types d := by
  refine lower_induction (motive := fun e l => l.query.selects E d = e.holds E o types d)
    ?compare ?between ?among ?like ?present ?not ?and ?or h
  case compare =>
    intro f type op value l htype hl
    obtain rfl := typeOf_eq answers htype
    exact selects_comparison E d hl
  case between =>
    intro f low high negated _
    rw [Lowered.selects_negateIf, holds]
    cases hx : d f <;>
      simp [Engine.matchesRange, Engine.within, Bounds.closed, Bounds.unbounded, hx]
  case among =>
    intro f type values negated htype
    obtain rfl := typeOf_eq answers htype
    rw [Lowered.selects_negateIf, Lowered.selects_membership, holds]
  case like =>
    intros
    rfl
  case present =>
    intro f negated
    rw [holds]
    cases negated <;> simp
  case not =>
    intro operand l ih
    rw [Lowered.selects_negate, ih, all_testedFields, Expression.not, holds]
  case and =>
    intro operands ls _ ih
    rw [Lowered.selects_conjunction, Expression.and, holds, verdicts_eq_of_forall₂ E d ih]
    simp
  case or =>
    intro operands ls _ ih
    rw [Lowered.selects_disjunction, Expression.or, holds, verdicts_eq_of_forall₂ E d ih]
    simp

/-- The query of a condition matches the documents of which the condition holds, whatever the
resolver says of the fields. -/
theorem selects_compile_iff_holds (answers : ∀ f, resolve f = .ok (types f))
    (h : e.compile o resolve = .ok l) :
    l.query.selects E d = true ↔ e.holds E o types d = true := by
  obtain ⟨l', hl, h⟩ := exists_of_bind_eq_ok h
  cases h
  rw [selects_lower E d answers hl]

end Expression

/-- Somebody of 36 from another city is neither of age 20 to 30 nor from Nogal. Where a negation
asks for the fields it tests, somebody of 36 of whom no city is known is left out. -/
theorem selects_compile_negation :
    let types : String → FieldType := fun f => if f = "age" then .numeric else .analyzed
    let e : Expression := .and
      [.not (.or [.between "age" (.integer 20) (.integer 30) false,
        .compareLiteral "city" .eq (.text "Nogal")]), .present "email" true]
    let settled : Document Literal := fun f =>
      if f = "age" then some (.integer 36) else if f = "city" then some (.text "Dante") else none
    let roaming : Document Literal := fun f => if f = "age" then some (.integer 36) else none
    let o : Options := { negation := .requireField, textEquality := .phrase }
    ∃ l, e.compile o (fun f => .ok (types f)) = .ok l ∧
      l.query.selects Engine.ofLiterals settled = true ∧
      ¬ l.query.selects Engine.ofLiterals roaming = true := by
  intro types e settled roaming o
  obtain ⟨l, hl⟩ : ∃ l, e.compile o (fun f => .ok (types f)) = .ok l := ⟨_, rfl⟩
  have answers : ∀ f, (fun f => .ok (types f) : Resolver) f = .ok (types f) := fun _ => rfl
  have iff d := Expression.selects_compile_iff_holds Engine.ofLiterals d answers hl
  have holds : e.holds Engine.ofLiterals o types settled = true := by decide
  have fails : ¬ e.holds Engine.ofLiterals o types roaming = true := by decide
  exact ⟨l, hl, (iff settled).2 holds, (iff roaming).not.2 fails⟩

end SearchSql
