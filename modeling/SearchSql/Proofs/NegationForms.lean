import SearchSql.Proofs.Lowering

/-!
The two forms of negation, from within a test and from in front of it. Both compile alike, at any
depth.
-/

namespace SearchSql

variable {o : Options} {resolve resolve' : Resolver}

/-- Two runs give the same result or fail alike: both on what is not supported, or both with the
same failure of the resolver. -/
inductive SameOutcome {α : Type} : Except Error α → Except Error α → Prop
  | result (a : α) : SameOutcome (.ok a) (.ok a)
  | unsupported (cause cause' : Unsupported) :
      SameOutcome (.error (.unsupported cause)) (.error (.unsupported cause'))
  | resolution (field message : String) :
      SameOutcome (.error (.resolution field message)) (.error (.resolution field message))

theorem SameOutcome.bind {α β : Type} {x y : Except Error α} {f g : α → Except Error β}
    (h : SameOutcome x y) (hf : ∀ a, SameOutcome (f a) (g a)) :
    SameOutcome (x >>= f) (y >>= g) := by
  cases h with
  | result a => exact hf a
  | unsupported cause cause' => exact .unsupported cause cause'
  | resolution field message => exact .resolution field message

theorem sameOutcome_typeOf (f : String) : SameOutcome (resolve.typeOf f) (resolve.typeOf f) := by
  unfold Resolver.typeOf
  cases resolve f with
  | ok type => exact .result type
  | error err => cases err <;> exact .resolution _ _

namespace Expression

/-- A condition, negated where that is asked for. -/
def notIf (negated : Bool) (e : Expression) : Expression := if negated then e.not else e

mutual

/-- A condition with NOT in front of each test that it negates from within. -/
def notInFront : Expression → Expression
  | .compare f op operand =>
    if op = .ne then .not (.compare f .eq operand.notInFront)
    else .compare f op operand.notInFront
  | .between f low high negated => notIf negated (.between f low high false)
  | .among f values negated => notIf negated (.among f values false)
  | .present f negated => notIf negated (.present f false)
  | .logical op operands => .logical op (allNotInFront operands)
  | .literal value => .literal value
  | .field name => .field name
  | .like f pattern => .like f pattern

def allNotInFront : List Expression → List Expression
  | [] => []
  | e :: rest => e.notInFront :: allNotInFront rest

end

/-- A condition in which no test is negated from within. -/
inductive Affirmative : Expression → Prop
  | literal {value} : Affirmative (.literal value)
  | field {name} : Affirmative (.field name)
  | compare {f op operand} : op ≠ .ne → Affirmative operand → Affirmative (.compare f op operand)
  | between {f low high} : Affirmative (.between f low high false)
  | among {f values} : Affirmative (.among f values false)
  | like {f pattern} : Affirmative (.like f pattern)
  | present {f} : Affirmative (.present f false)
  | logical {op operands} : (∀ e ∈ operands, Affirmative e) → Affirmative (.logical op operands)

variable {e : Expression}

theorem Affirmative.notIf (h : e.Affirmative) (negated : Bool) : (notIf negated e).Affirmative := by
  cases negated
  · exact h
  · exact .logical (List.forall_mem_singleton.2 h)

theorem allNotInFront_eq_map (es : List Expression) : allNotInFront es = es.map notInFront := by
  induction es with
  | nil => rfl
  | cons e es ih => rw [allNotInFront, ih, List.map_cons]

theorem affirmative_notInFront (e : Expression) : e.notInFront.Affirmative := by
  induction e with
  | literal => exact .literal
  | field => exact .field
  | compare f op operand ih =>
    rw [notInFront]
    split
    · have hequality : (compare f .eq operand.notInFront).Affirmative := .compare (by simp) ih
      exact hequality.notIf true
    · next hop => exact .compare hop ih
  | between _ _ _ negated => exact .notIf .between negated
  | among _ _ negated => exact .notIf .among negated
  | like => exact .like
  | present _ negated => exact .notIf .present negated
  | logical op operands ih =>
    rw [notInFront, allNotInFront_eq_map]
    exact .logical (List.forall_mem_map.2 ih)

theorem tests_not (e : Expression) : e.not.tests = e.tests := by
  simp [Expression.not, tests, operandTests]

theorem tests_notIf (negated : Bool) (e : Expression) : (notIf negated e).tests = e.tests := by
  cases negated
  · rfl
  · exact tests_not e

theorem tests_notInFront (e : Expression) : e.notInFront.tests = e.tests := by
  induction e with
  | literal | field | like => rfl
  | compare f op operand =>
    rw [notInFront]
    split
    · rw [tests_not]
      rfl
    · rfl
  | between | among | present =>
    rw [notInFront, tests_notIf]
    rfl
  | logical op operands ih =>
    rw [notInFront, tests, tests, allNotInFront_eq_map, operandTests_eq_flatMap,
      operandTests_eq_flatMap, List.flatMap_map]
    exact List.flatMap_congr ih

theorem notInFront_ne_literal (h : ∀ value, e ≠ .literal value) (value : Literal) :
    e.notInFront ≠ .literal value := by
  cases e with
  | literal value => exact (h value rfl).elim
  | compare f op operand =>
    rw [notInFront]
    split <;> exact nofun
  | between _ _ _ negated | among _ _ negated | present _ negated =>
    rw [notInFront]
    cases negated <;> exact nofun
  | field | like | logical =>
    rw [notInFront]
    exact nofun

theorem lower_notIf {f : String} (negated : Bool) (hfields : e.testedFields = [f]) :
    (notIf negated e).lower o resolve =
      e.lower o resolve >>= fun l => .ok (l.negateIf o negated f) := by
  cases negated with
  | false => exact (bind_pure (e.lower o resolve)).symm
  | true =>
    rw [notIf, if_pos rfl, lower_not, hfields]
    rfl

theorem sameOutcome_comparison {f : String} {type : FieldType} {op : Comparison} {value : Literal} :
    SameOutcome (Lowered.comparison o f type op value) (Lowered.comparison o f type op value) := by
  unfold Lowered.comparison
  split
  · exact .result _
  · split
    · exact .unsupported _ _
    · exact .result _

theorem sameOutcome_checkBounds (e e' : Expression) (low high : Literal) :
    SameOutcome (Lowered.checkBounds e low high) (Lowered.checkBounds e' low high) := by
  unfold Lowered.checkBounds
  split
  · exact .unsupported _ _
  · split
    · exact .unsupported _ _
    · exact .result _

theorem sameOutcome_lowerAll {es es' : List Expression} (h : List.Forall₂
    (fun e e' => SameOutcome (e.lower o resolve) (e'.lower o resolve')) es es') :
    SameOutcome (lowerAll o resolve es) (lowerAll o resolve' es') := by
  induction h with
  | nil =>
    rw [lowerAll, lowerAll]
    exact .result []
  | cons he _ ih =>
    rw [lowerAll, lowerAll]
    exact he.bind fun _ => ih.bind fun _ => .result _

/-- Operands that compile alike and test the same fields make connectives that compile alike. -/
theorem sameOutcome_logical (op : Connective) {es es' : List Expression} (h : List.Forall₂
    (fun e e' => SameOutcome (e.lower o resolve) (e'.lower o resolve') ∧
      e.testedFields = e'.testedFields) es es') :
    SameOutcome ((logical op es).lower o resolve) ((logical op es').lower o resolve') := by
  have hall := sameOutcome_lowerAll (h.imp fun _ _ he => he.1)
  cases op with
  | not =>
    cases h with
    | nil =>
      rw [lower, lower]
      · exact .unsupported _ _
      all_goals simp
    | @cons e e' es es' he hes =>
      obtain ⟨houtcome, hfields⟩ := he
      cases hes with
      | nil =>
        change SameOutcome (e.not.lower o resolve) (e'.not.lower o resolve')
        rw [lower_not, lower_not, hfields]
        exact houtcome.bind fun _ => .result _
      | cons =>
        rw [lower, lower]
        · exact .unsupported _ _
        all_goals simp
  | and | or =>
    cases h with
    | nil =>
      rw [lower, lower]
      · exact .unsupported _ _
      all_goals simp
    | cons =>
      rw [lower, lower]
      exact hall.bind fun _ => .result _

theorem sameOutcome_compare (f : String) (op : Comparison) (operand : Expression) :
    SameOutcome ((compare f op operand).lower o resolve)
      ((compare f op operand).notInFront.lower o resolve) := by
  rw [notInFront]
  by_cases hliteral : ∃ value, operand = .literal value
  · obtain ⟨value, rfl⟩ := hliteral
    split
    · next hop =>
      subst hop
      rw [lower_not, notInFront, lower, lower, bind_assoc]
      exact (sameOutcome_typeOf f).bind fun type => .result _
    · rw [notInFront, lower]
      exact (sameOutcome_typeOf f).bind fun type => sameOutcome_comparison
  · simp only [not_exists] at hliteral
    have hfront := notInFront_ne_literal hliteral
    split
    · rw [lower_not, lower_compare_of_ne_literal hliteral, lower_compare_of_ne_literal hfront,
        bind_assoc]
      exact (sameOutcome_typeOf f).bind fun type => .unsupported _ _
    · rw [lower_compare_of_ne_literal hliteral, lower_compare_of_ne_literal hfront]
      exact (sameOutcome_typeOf f).bind fun type => .unsupported _ _

theorem sameOutcome_notInFront (o : Options) (resolve : Resolver) (e : Expression) :
    SameOutcome (e.lower o resolve) (e.notInFront.lower o resolve) := by
  induction e with
  | literal | field =>
    rw [notInFront, lower]
    exact .unsupported _ _
  | compare f op operand => exact sameOutcome_compare f op operand
  | between f low high negated =>
    rw [notInFront, lower_notIf negated rfl, lower, lower, bind_assoc]
    refine (sameOutcome_typeOf f).bind fun _ => ?_
    rw [bind_assoc]
    exact (sameOutcome_checkBounds _ _ low high).bind fun _ => .result _
  | among f values negated =>
    rw [notInFront, lower_notIf negated rfl, lower, lower, bind_assoc]
    exact (sameOutcome_typeOf f).bind fun _ => .result _
  | like f pattern =>
    rw [notInFront, lower]
    refine (sameOutcome_typeOf f).bind fun type => ?_
    cases type with
    | exact | analyzed => exact .result _
    | numeric | date => exact .unsupported _ _
  | present f negated =>
    -- No field counts as tested here, so the negation in front requires none either.
    rw [notInFront]
    cases negated with
    | false =>
      rw [notIf, if_neg Bool.false_ne_true, lower]
      exact (sameOutcome_typeOf f).bind fun _ => .result _
    | true =>
      rw [notIf, if_pos rfl, lower_not, lower, lower, bind_assoc]
      exact (sameOutcome_typeOf f).bind fun _ => .result _
  | logical op operands ih =>
    rw [notInFront, allNotInFront_eq_map]
    refine sameOutcome_logical op (List.forall₂_map_right_iff.2 (List.forall₂_same.2 ?_))
    intro e he
    exact ⟨ih e he, by rw [testedFields, testedFields, tests_notInFront]⟩

/-- Whether tests are negated from within or from in front makes no difference: no test is negated
from within in the rewritten condition, and there is the same query with the same notes in the same
order, or the same kind of failure. -/
theorem compile_notInFront (o : Options) (resolve : Resolver) (e : Expression) :
    e.notInFront.Affirmative ∧ SameOutcome (e.compile o resolve) (e.notInFront.compile o resolve) :=
  ⟨affirmative_notInFront e, (sameOutcome_notInFront o resolve e).bind fun _ => .result _⟩

end Expression

end SearchSql
