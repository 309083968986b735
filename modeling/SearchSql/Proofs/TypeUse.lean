import Mathlib
import SearchSql.Proofs.NegationForms
import SearchSql.Proofs.Shape
import SearchSql.Request.Compile

/-!
What a request takes from the types of the fields. A test for equality asks whether its field is
analyzed text, a pattern asks whether its field holds numbers or dates, and nothing else is asked.
-/

namespace SearchSql

/-- The stages that can fail, apart from where and why they do. -/
inductive ErrorKind
  | lex
  | syntaxError
  | unsupported
  | resolution
  | config
  | server
  | json
deriving DecidableEq

def Error.kind : Error → ErrorKind
  | .lex _ _ => .lex
  | .syntaxError _ _ _ => .syntaxError
  | .unsupported _ => .unsupported
  | .resolution _ _ => .resolution
  | .config _ => .config
  | .server _ => .server
  | .json => .json

/-- Whether a field holds numbers or dates, which have no patterns. -/
def FieldType.IsOrdered (type : FieldType) : Prop := type = .numeric ∨ type = .date

theorem FieldType.not_isOrdered_iff {type : FieldType} :
    ¬ type.IsOrdered ↔ type = .exact ∨ type = .analyzed := by
  cases type <;> simp [IsOrdered]

namespace Expression

/-- The tests that compare a field for equality, with one value or with several. -/
inductive ComparesEquality (f : String) : Expression → Prop
  | compare {op operand} : op = .eq ∨ op = .ne → ComparesEquality f (.compare f op operand)
  | among {values negated} : ComparesEquality f (.among f values negated)

/-- The tests that compare a field with a pattern. -/
inductive ComparesPattern (f : String) : Expression → Prop
  | like {pattern} : ComparesPattern f (.like f pattern)

/-- Two ways to type fields answer what the tests of a condition ask in the same way. -/
structure TypedAlike (types types' : String → FieldType) (e : Expression) : Prop where
  equality : ∀ leaf ∈ e.leaves, ∀ f, leaf.ComparesEquality f →
    (types f = .analyzed ↔ types' f = .analyzed)
  pattern : ∀ leaf ∈ e.leaves, ∀ f, leaf.ComparesPattern f →
    ((types f).IsOrdered ↔ (types' f).IsOrdered)

end Expression

variable {o : Options} {resolve resolve' : Resolver} {types types' : String → FieldType}

namespace Lowered

variable {f : String} {type type' : FieldType}

theorem equality_congr (value : Literal) (h : type = .analyzed ↔ type' = .analyzed) :
    equality o f type value = equality o f type' value := by
  cases type <;> cases type' <;> simp [equality] at h ⊢

theorem membership_congr {values : List Literal} (h : type = .analyzed ↔ type' = .analyzed) :
    membership o f type values = membership o f type' values := by
  cases type <;> cases type' <;> simp [membership] at h ⊢

/-- A comparison that orders asks for no type. -/
theorem comparison_congr {op : Comparison} {value : Literal}
    (h : op = .eq ∨ op = .ne → (type = .analyzed ↔ type' = .analyzed)) :
    comparison o f type op value = comparison o f type' op value := by
  cases op with
  | eq =>
    have heq := equality_congr (o := o) (f := f) value (h (.inl rfl))
    simp only [comparison, bounds?, heq]
  | ne =>
    have heq := equality_congr (o := o) (f := f) value (h (.inr rfl))
    simp only [comparison, bounds?, heq]
  | gt | ge | lt | le => rfl

end Lowered

namespace Expression

variable {e : Expression}

theorem TypedAlike.operand {op : Connective} {operands : List Expression}
    (h : (logical op operands).TypedAlike types types') (he : e ∈ operands) :
    e.TypedAlike types types' where
  equality leaf hleaf := h.equality leaf (mem_leaves_logical.2 ⟨e, he, hleaf⟩)
  pattern leaf hleaf := h.pattern leaf (mem_leaves_logical.2 ⟨e, he, hleaf⟩)

theorem lower_like_of_isOrdered {f : String} {type : FieldType} (h : resolve.typeOf f = .ok type)
    (pattern : String) (hordered : type.IsOrdered) : (like f pattern).lower o resolve =
      .error (.unsupported (.likeOnType (.like f pattern) f type)) := by
  rw [lower, h]
  rcases hordered with rfl | rfl <;> rfl

theorem sameOutcome_lower_typedAlike (answers : ∀ f, resolve.typeOf f = .ok (types f))
    (answers' : ∀ f, resolve'.typeOf f = .ok (types' f)) (h : e.TypedAlike types types') :
    SameOutcome (e.lower o resolve) (e.lower o resolve') := by
  induction e with
  | literal | field =>
    rw [lower, lower]
    exact .unsupported _ _
  | compare f op operand =>
    by_cases hliteral : ∃ value, operand = .literal value
    · obtain ⟨value, rfl⟩ := hliteral
      have hequality : op = .eq ∨ op = .ne → (types f = .analyzed ↔ types' f = .analyzed) :=
        fun hop => h.equality _ (List.mem_singleton_self _) f (.compare hop)
      change SameOutcome ((compareLiteral f op value).lower o resolve)
        ((compareLiteral f op value).lower o resolve')
      rw [lower_compareLiteral (answers f), lower_compareLiteral (answers' f),
        Lowered.comparison_congr hequality]
      exact sameOutcome_comparison
    · simp only [not_exists] at hliteral
      rw [lower_compare_of_ne_literal hliteral, lower_compare_of_ne_literal hliteral, answers f,
        answers' f]
      exact .unsupported _ _
  | between f low high negated =>
    rw [lower, lower, answers f, answers' f]
    exact (sameOutcome_checkBounds _ _ low high).bind fun _ => .result _
  | among f values negated =>
    have hequality := h.equality _ (List.mem_singleton_self _) f .among
    rw [lower_among (answers f), lower_among (answers' f), Lowered.membership_congr hequality]
    exact .result _
  | like f pattern =>
    have hpattern := h.pattern _ (List.mem_singleton_self _) f .like
    by_cases hordered : (types f).IsOrdered
    · rw [lower_like_of_isOrdered (answers f) pattern hordered,
        lower_like_of_isOrdered (answers' f) pattern (hpattern.1 hordered)]
      exact .unsupported _ _
    · have htext := FieldType.not_isOrdered_iff.1 hordered
      have htext' := FieldType.not_isOrdered_iff.1 (mt hpattern.2 hordered)
      rw [lower_like (answers f) pattern htext, lower_like (answers' f) pattern htext']
      exact .result _
  | present f negated =>
    rw [lower_present (answers f), lower_present (answers' f)]
    exact .result _
  | logical op operands ih =>
    refine sameOutcome_logical op (List.forall₂_same.2 fun e he => ⟨?_, rfl⟩)
    exact ih e he (h.operand he)

end Expression

namespace Statement

variable {s : Statement}

theorem sameOutcome_assemble (s : Statement) (condition : Option Query) (notes : List Note) :
    SameOutcome (s.assemble condition notes) (s.assemble condition notes) := by
  unfold assemble
  split
  · split
    · exact .result _
    · exact .unsupported _ _
  · exact .result _

theorem sameOutcome_compile (answers : ∀ f, resolve.typeOf f = .ok (types f))
    (answers' : ∀ f, resolve'.typeOf f = .ok (types' f))
    (h : ∀ e ∈ s.condition, e.TypedAlike types types') :
    SameOutcome (s.compile o resolve) (s.compile o resolve') := by
  unfold compile
  split
  · exact s.sameOutcome_assemble none []
  · next e hcondition =>
    have hlower := e.sameOutcome_lower_typedAlike (o := o) answers answers' (h e hcondition)
    have hcompile : SameOutcome (e.compile o resolve) (e.compile o resolve') :=
      hlower.bind fun _ => .result _
    exact hcompile.bind fun l => s.sameOutcome_assemble l.query l.notes

end Statement

theorem SameOutcome.result_or_kind {α : Type} {x y : Except Error α} (h : SameOutcome x y) :
    (∃ a, x = .ok a ∧ y = .ok a) ∨
      ∃ err err', x = .error err ∧ y = .error err' ∧ err.kind = err'.kind := by
  cases h with
  | result a => exact .inl ⟨a, rfl, rfl⟩
  | unsupported cause cause' => exact .inr ⟨_, _, rfl, rfl, rfl⟩
  | resolution field message => exact .inr ⟨_, _, rfl, rfl, rfl⟩

/-- Two ways to type fields that agree on which fields compared for equality are analyzed text, and
on which fields compared with patterns hold numbers or dates, give a text the same request or refuse
it for the same kind of reason. -/
theorem Request.types_matter_only_where_asked {sql : String}
    (answers : ∀ f, resolve f = .ok (types f)) (answers' : ∀ f, resolve' f = .ok (types' f))
    (halike : ∀ s, Statement.ofText sql = .ok s → ∀ e ∈ s.condition, e.TypedAlike types types') :
    (∃ r, Request.ofText o resolve sql = .ok r ∧ Request.ofText o resolve' sql = .ok r) ∨
      ∃ err err', Request.ofText o resolve sql = .error err ∧
        Request.ofText o resolve' sql = .error err' ∧ err.kind = err'.kind := by
  cases hs : Statement.ofText sql with
  | error err =>
    refine .inr ⟨err, err, ?_, ?_, rfl⟩ <;>
    · rw [Request.ofText, hs]
      rfl
  | ok s =>
    have hcompile (resolve : Resolver) :
        Request.ofText o resolve sql = s.compile o resolve := by
      rw [Request.ofText, hs]
      rfl
    have houtcome := Statement.sameOutcome_compile (o := o)
      (fun f => typeOf_eq_ok_iff.2 (answers f)) (fun f => typeOf_eq_ok_iff.2 (answers' f))
      (halike s hs)
    rw [hcompile, hcompile]
    exact houtcome.result_or_kind

/-- Two ways to type fields that differ on every field of a text, but not in what it asks. -/
theorem Request.types_matter_only_where_asked_nested :
    let types : String → FieldType := fun f => if f = "a" ∨ f = "b" then .exact else .numeric
    let types' : String → FieldType := fun f => if f = "a" then .date else .analyzed
    let sql := "select sum(c) from i where not (a = 1 or b like 'x') and d > 3"
    ∃ r, Request.ofText Options.default (fun f => .ok (types f)) sql = .ok r ∧
      Request.ofText Options.default (fun f => .ok (types' f)) sql = .ok r := by
  intro types types' sql
  let e : Expression := .and [.not (.or [.compareLiteral "a" .eq (.integer 1), .like "b" "x"]),
    .compareLiteral "d" .gt (.integer 3)]
  let s : Statement :=
    { projection := [.aggregate ⟨.sum, some "c"⟩], targets := [⟨"i", none⟩], condition := some e
      order := [], limit := none, offset := none }
  have hs : Statement.ofText sql = .ok s := by cbv
  have hleaves : e.leaves = [.compareLiteral "a" .eq (.integer 1), .like "b" "x",
      .compareLiteral "d" .gt (.integer 3)] := by rfl
  have halike : e.TypedAlike types types' := by
    constructor
    · intro leaf hleaf f hequality
      simp only [hleaves, List.mem_cons, List.not_mem_nil, or_false] at hleaf
      rcases hleaf with rfl | rfl | rfl
      · cases hequality
        decide
      · cases hequality
      · cases hequality with
        | compare hop => simp at hop
    · intro leaf hleaf f hpattern
      simp only [hleaves, List.mem_cons, List.not_mem_nil, or_false] at hleaf
      rcases hleaf with rfl | rfl | rfl
      · cases hpattern
      · cases hpattern
        simp [types, types', FieldType.IsOrdered]
      · cases hpattern
  have hcompiled : ∃ r, Request.ofText Options.default (fun f => .ok (types f)) sql = .ok r := by
    rw [Request.ofText, hs]
    exact ⟨_, rfl⟩
  refine (types_matter_only_where_asked (fun _ => rfl) (fun _ => rfl) ?_).resolve_right ?_
  · intro s' hs'
    obtain rfl := Except.ok.inj (hs.symm.trans hs')
    rintro _ ⟨⟩
    exact halike
  · rintro ⟨err, _, herr, _⟩
    obtain ⟨r, hr⟩ := hcompiled
    cases hr.symm.trans herr

end SearchSql
