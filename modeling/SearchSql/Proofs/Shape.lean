import SearchSql.Proofs.Lowering
import SearchSql.Proofs.Parsing.Sentence

/-!
The tests in a condition, and the shape of the conditions that texts give: connectives have operands
enough, and literals and fields stand only in comparisons.
-/

namespace SearchSql

namespace Expression

mutual

/-- The tests in a condition that are reached through the connectives which `through` lets pass. -/
def testsUnder (through : Connective → Bool) : Expression → List Expression
  | .logical op operands => if through op then operandsUnder through operands else []
  | e => [e]

def operandsUnder (through : Connective → Bool) : List Expression → List Expression
  | [] => []
  | operand :: rest => operand.testsUnder through ++ operandsUnder through rest

end

/-- All tests in a condition, at any depth. -/
def leaves (e : Expression) : List Expression := e.testsUnder fun _ => true

/-- The tests in a condition that are under no negation. -/
def affirmed (e : Expression) : List Expression := e.testsUnder (· != .not)

/-- The tests of the value of a field. A test of presence decides on missing fields by itself and is
none. -/
inductive Tests (f : String) : Expression → Prop
  | compare {op operand} : Tests f (.compare f op operand)
  | between {low high negated} : Tests f (.between f low high negated)
  | among {values negated} : Tests f (.among f values negated)
  | like {pattern} : Tests f (.like f pattern)

/-- The shape of the conditions that texts give. -/
inductive Regular : Expression → Prop
  | compareField {f op g} : Regular (.compare f op (.field g))
  | compare {f op value} : Regular (.compareLiteral f op value)
  | between {f low high negated} : Regular (.between f low high negated)
  | among {f values negated} : values ≠ [] → Regular (.among f values negated)
  | like {f pattern} : Regular (.like f pattern)
  | present {f negated} : Regular (.present f negated)
  | not {e} : Regular e → Regular e.not
  | run {op operands} : op ≠ .not → operands ≠ [] → (∀ e ∈ operands, Regular e) →
      Regular (.logical op operands)

variable {through : Connective → Bool} {op : Connective} {operands : List Expression}
  {e leaf : Expression} {f : String}

theorem operandsUnder_eq_flatMap (es : List Expression) :
    operandsUnder through es = es.flatMap (testsUnder through) := by
  induction es with
  | nil => rfl
  | cons e es ih => rw [operandsUnder, ih, List.flatMap_cons]

theorem mem_testsUnder_logical : leaf ∈ (logical op operands).testsUnder through ↔
    through op = true ∧ ∃ e ∈ operands, leaf ∈ e.testsUnder through := by
  rw [testsUnder, operandsUnder_eq_flatMap]
  split <;> simp [*]

theorem mem_leaves_logical : leaf ∈ (logical op operands).leaves ↔
    ∃ e ∈ operands, leaf ∈ e.leaves := by
  simp [leaves, mem_testsUnder_logical]

theorem forall_mem_leaves_logical {P : Expression → Prop} :
    (∀ leaf ∈ (logical op operands).leaves, P leaf) ↔
      ∀ e ∈ operands, ∀ leaf ∈ e.leaves, P leaf := by
  constructor
  · intro h e he leaf hleaf
    exact h leaf (mem_leaves_logical.2 ⟨e, he, hleaf⟩)
  · intro h leaf hleaf
    obtain ⟨e, he, hleaf⟩ := mem_leaves_logical.1 hleaf
    exact h e he leaf hleaf

theorem mem_leaves_not : leaf ∈ e.not.leaves ↔ leaf ∈ e.leaves := by
  simp [Expression.not, mem_leaves_logical]

theorem exists_leaf_logical {P : Expression → Prop} :
    (∃ leaf ∈ (logical op operands).leaves, P leaf) ↔
      ∃ e ∈ operands, ∃ leaf ∈ e.leaves, P leaf := by
  simp only [mem_leaves_logical]
  tauto

/-- The fields that are listed are those of the tests. -/
theorem mem_tests_iff : f ∈ e.tests ↔ ∃ leaf ∈ e.leaves, leaf.Tests f := by
  induction e with
  | literal | field | present =>
    refine iff_of_false List.not_mem_nil ?_
    rintro ⟨leaf, hmem, hleaf⟩
    obtain rfl := List.mem_singleton.1 hmem
    cases hleaf
  | compare | between | among | like =>
    rw [tests, List.mem_singleton]
    constructor
    · rintro rfl
      exact ⟨_, List.mem_singleton_self _, by constructor⟩
    · rintro ⟨leaf, hmem, hleaf⟩
      obtain rfl := List.mem_singleton.1 hmem
      cases hleaf
      rfl
  | logical op operands ih =>
    rw [tests, operandTests_eq_flatMap, List.mem_flatMap, exists_leaf_logical]
    exact exists_congr fun e => and_congr_right (ih e)

theorem not_mem_affirmed_not : leaf ∉ e.not.affirmed := by
  simp [Expression.not, affirmed, mem_testsUnder_logical]

theorem mem_affirmed_logical (hop : op ≠ .not) : leaf ∈ (logical op operands).affirmed ↔
    ∃ e ∈ operands, leaf ∈ e.affirmed := by
  simp [affirmed, mem_testsUnder_logical, hop]

theorem regular_of_predicate {ts : List Token} (h : Grammar.Predicate ts e) : e.Regular := by
  cases h with
  | compareField => exact .compareField
  | compare => exact .compare
  | flipped => exact .compare
  | between => exact .between
  | among _ _ _ _ hvalues _ => exact .among hvalues.ne_nil
  | like => exact .like
  | notLike => exact .not .like
  | present => exact .present

theorem regular_of_condition {ts : List Token} (h : Grammar.Condition ts e) : e.Regular := by
  refine h.induction regular_of_predicate .not ?_
  intro op es e hop hjoined hes
  cases hjoined with
  | one => exact hes _ (List.mem_singleton_self _)
  | run => exact .run hop (List.cons_ne_nil _ _) hes

end Expression

namespace Statement

variable {sql : String} {s : Statement}

theorem exists_sentence (h : ofText sql = .ok s) : ∃ ts, Grammar.Sentence ts s := by
  rw [ofText] at h
  cases hts : Token.ofText sql with
  | error fault =>
    rw [hts] at h
    cases h
  | ok ts =>
    rw [hts] at h
    exact ⟨ts, ofTokensUpTo_eq_ok_iff.1 h⟩

theorem regular_of_ofText (h : ofText sql = .ok s) : ∀ e ∈ s.condition, e.Regular := by
  obtain ⟨ts, hts⟩ := exists_sentence h
  obtain ⟨_, _, _, _, hwhere, _⟩ := hts
  intro e he
  cases hwhere with
  | absent => cases he
  | present _ hcondition =>
    cases he
    exact Expression.regular_of_condition hcondition

/-- A FROM clause has at least one target. -/
theorem targets_ne_nil_of_ofText (h : ofText sql = .ok s) : s.targets ≠ [] := by
  obtain ⟨ts, hts⟩ := exists_sentence h
  obtain ⟨_, _, _, htargets, _⟩ := hts
  exact htargets.ne_nil

/-- Only COUNT goes over a star. -/
theorem count_of_star (h : ofText sql = .ok s) {metric : Metric}
    (hmem : .aggregate ⟨metric, none⟩ ∈ s.projection) : metric = .count := by
  obtain ⟨ts, hts⟩ := exists_sentence h
  obtain ⟨_, hprojection, _⟩ := hts
  cases hprojection with
  | star _ => simp at hmem
  | items hitems =>
    obtain ⟨_, hitem⟩ := hitems.exists_of_mem _ hmem
    cases hitem
    rfl

end Statement

end SearchSql
