import SearchSql.Proofs.Distinct
import SearchSql.Proofs.Lowering
import SearchSql.Proofs.Shape

/-!
The notes on a compiled condition. There is one for each analyzed field that the condition compares
for equality, and one for each field that it negates without requiring it.
-/

namespace SearchSql

variable {o : Options} {resolve : Resolver} {f g : String} {n : Note}

namespace Expression

/-- The tests that compare an analyzed field with values for equality. -/
inductive Equates (resolve : Resolver) (f : String) : Expression → Prop
  | comparison {op value} : op = .eq ∨ op = .ne → resolve f = .ok .analyzed →
      Equates resolve f (.compareLiteral f op value)
  | membership {values negated} : values ≠ [] → resolve f = .ok .analyzed →
      Equates resolve f (.among f values negated)

/-- The tests of the value of a field that are negated from within. -/
inductive NegatedTest (f : String) : Expression → Prop
  | compare {operand} : NegatedTest f (.compare f .ne operand)
  | between {low high} : NegatedTest f (.between f low high true)
  | among {values} : NegatedTest f (.among f values true)

/-- A test stands under a negation in a condition. -/
inductive UnderNot (leaf : Expression) : Expression → Prop
  | not {operands} : leaf ∈ (logical .not operands).leaves → UnderNot leaf (.logical .not operands)
  | operand {op operands e} : e ∈ operands → UnderNot leaf e → UnderNot leaf (.logical op operands)

/-- A condition negates a test of a field, from within or from in front. -/
def Negates (f : String) (e : Expression) : Prop :=
  (∃ leaf ∈ e.leaves, leaf.NegatedTest f) ∨ ∃ leaf : Expression, leaf.UnderNot e ∧ leaf.Tests f

/-- What a condition has notes on. -/
def Warrants (o : Options) (resolve : Resolver) (e : Expression) : Note → Prop
  | .analyzedEquality f => ∃ leaf ∈ e.leaves, leaf.Equates resolve f
  | .missingField f => o.negation = .mustNot ∧ e.Negates f

end Expression

namespace Lowered

variable {type : FieldType} {value : Literal} {values : List Literal} {fields : List String}
  {l : Lowered} {ls : List Lowered}

theorem mem_notes_equality : n ∈ (equality o f type value).notes ↔
    n = .analyzedEquality f ∧ type = .analyzed := by
  cases type <;> simp [equality]

theorem mem_notes_membership : n ∈ (membership o f type values).notes ↔
    n = .analyzedEquality f ∧ values ≠ [] ∧ type = .analyzed := by
  cases type <;> cases values <;> simp [membership]

theorem mem_notes_negate : n ∈ (l.negate o fields).notes ↔
    n ∈ l.notes ∨ o.negation = .mustNot ∧ ∃ f ∈ fields, n = .missingField f := by
  unfold negate
  split
  · next hfields => simp [hfields]
  · cases hnegation : o.negation <;> simp [eq_comm]

theorem mem_notes_negateIf {negated : Bool} : n ∈ (l.negateIf o negated f).notes ↔
    n ∈ l.notes ∨ negated = true ∧ o.negation = .mustNot ∧ n = .missingField f := by
  cases negated <;> simp [negateIf, mem_notes_negate]

theorem mem_notes_conjunction : n ∈ (conjunction ls).notes ↔ ∃ l ∈ ls, n ∈ l.notes :=
  List.mem_flatMap

theorem mem_notes_disjunction : n ∈ (disjunction ls).notes ↔ ∃ l ∈ ls, n ∈ l.notes :=
  List.mem_flatMap

end Lowered

namespace Expression

variable {e leaf : Expression} {op : Connective} {operands : List Expression} {l : Lowered}

theorem negates_run (hop : op ≠ .not) :
    (logical op operands).Negates f ↔ ∃ e ∈ operands, e.Negates f := by
  constructor
  · rintro (h | ⟨leaf, hunder, hleaf⟩)
    · obtain ⟨e, he, h⟩ := exists_leaf_logical.1 h
      exact ⟨e, he, .inl h⟩
    · cases hunder with
      | not => exact (hop rfl).elim
      | operand he hunder => exact ⟨_, he, .inr ⟨leaf, hunder, hleaf⟩⟩
  · rintro ⟨e, he, h | ⟨leaf, hunder, hleaf⟩⟩
    · exact .inl (exists_leaf_logical.2 ⟨e, he, h⟩)
    · exact .inr ⟨leaf, .operand he hunder, hleaf⟩

/-- What a negation adds is every field that is tested in it. -/
theorem negates_not : e.not.Negates f ↔ e.Negates f ∨ f ∈ e.tests := by
  rw [mem_tests_iff]
  constructor
  · rintro (⟨leaf, hmem, hleaf⟩ | ⟨leaf, hunder, hleaf⟩)
    · exact .inl (.inl ⟨leaf, mem_leaves_not.1 hmem, hleaf⟩)
    · cases hunder with
      | not hmem => exact .inr ⟨leaf, mem_leaves_not.1 hmem, hleaf⟩
      | operand he hunder =>
        obtain rfl := List.mem_singleton.1 he
        exact .inl (.inr ⟨leaf, hunder, hleaf⟩)
  · rintro ((⟨leaf, hmem, hleaf⟩ | ⟨leaf, hunder, hleaf⟩) | ⟨leaf, hmem, hleaf⟩)
    · exact .inl ⟨leaf, mem_leaves_not.2 hmem, hleaf⟩
    · exact .inr ⟨leaf, .operand (List.mem_singleton_self e) hunder, hleaf⟩
    · exact .inr ⟨leaf, .not (mem_leaves_not.2 hmem), hleaf⟩

theorem warrants_run (hop : op ≠ .not) :
    (logical op operands).Warrants o resolve n ↔ ∃ e ∈ operands, e.Warrants o resolve n := by
  cases n with
  | analyzedEquality f => exact exists_leaf_logical
  | missingField f =>
    simp only [Warrants, negates_run hop]
    tauto

theorem warrants_not : e.not.Warrants o resolve n ↔ e.Warrants o resolve n ∨
    o.negation = .mustNot ∧ ∃ f ∈ e.testedFields, n = .missingField f := by
  cases n with
  | analyzedEquality f => simp [Warrants, mem_leaves_not]
  | missingField f =>
    simp only [Warrants, negates_not, testedFields, List.mem_eraseDups, Note.missingField.injEq,
      exists_eq_right']
    tauto

/-- A test warrants notes only by what it is itself. -/
theorem warrants_test (hleaves : e.leaves = [e])
    (hunder : ∀ leaf : Expression, ¬ leaf.UnderNot e) : e.Warrants o resolve n ↔
      (∃ f, n = .analyzedEquality f ∧ e.Equates resolve f) ∨
      ∃ f, n = .missingField f ∧ o.negation = .mustNot ∧ e.NegatedTest f := by
  cases n <;> simp [Warrants, Negates, hleaves, hunder]

theorem equates_compareLiteral {op : Comparison} {value : Literal} :
    (compareLiteral g op value).Equates resolve f ↔
      f = g ∧ (op = .eq ∨ op = .ne) ∧ resolve g = .ok .analyzed := by
  constructor
  · rintro ⟨hop, htype⟩
    exact ⟨rfl, hop, htype⟩
  · rintro ⟨rfl, hop, htype⟩
    exact .comparison hop htype

theorem equates_among {values : List Literal} {negated : Bool} :
    (among g values negated).Equates resolve f ↔
      f = g ∧ values ≠ [] ∧ resolve g = .ok .analyzed := by
  constructor
  · intro h
    cases h with
    | membership hne htype => exact ⟨rfl, hne, htype⟩
  · rintro ⟨rfl, hne, htype⟩
    exact .membership hne htype

theorem negatedTest_compareLiteral {op : Comparison} {value : Literal} :
    (compareLiteral g op value).NegatedTest f ↔ f = g ∧ op = .ne := by
  constructor
  · rintro ⟨⟩
    exact ⟨rfl, rfl⟩
  · rintro ⟨rfl, rfl⟩
    exact .compare

theorem negatedTest_between {low high : Literal} {negated : Bool} :
    (between g low high negated).NegatedTest f ↔ f = g ∧ negated = true := by
  constructor
  · rintro ⟨⟩
    exact ⟨rfl, rfl⟩
  · rintro ⟨rfl, rfl⟩
    exact .between

theorem negatedTest_among {values : List Literal} {negated : Bool} :
    (among g values negated).NegatedTest f ↔ f = g ∧ negated = true := by
  constructor
  · rintro ⟨⟩
    exact ⟨rfl, rfl⟩
  · rintro ⟨rfl, rfl⟩
    exact .among

theorem mem_notes_lower (h : e.lower o resolve = .ok l) :
    n ∈ l.notes ↔ e.Warrants o resolve n := by
  refine lower_induction (motive := fun e l => n ∈ l.notes ↔ e.Warrants o resolve n)
    ?compare ?between ?among ?like ?present ?not ?and ?or h
  case compare =>
    intro g type op value l htype hl
    have hfield := typeOf_eq_ok_iff.1 htype
    refine Iff.trans ?_ (Iff.symm (warrants_test rfl fun _ => nofun))
    simp only [equates_compareLiteral, negatedTest_compareLiteral, hfield, Except.ok.injEq]
    obtain ⟨rfl, rfl⟩ | ⟨rfl, rfl⟩ | ⟨bounds, hbounds, _, rfl⟩ := Lowered.comparison_eq_ok hl
    · simp [Lowered.mem_notes_equality]
    · simp [Lowered.mem_notes_negate, Lowered.mem_notes_equality, and_comm]
    · have hop : op ≠ .eq ∧ op ≠ .ne := by
        constructor <;> rintro rfl <;> cases hbounds
      simp [hop]
  case between =>
    intro g low high negated _
    refine Iff.trans ?_ (Iff.symm (warrants_test rfl fun _ => nofun))
    rw [Lowered.mem_notes_negateIf]
    simp only [negatedTest_between]
    constructor
    · rintro (hmem | ⟨hnegated, hnegation, rfl⟩)
      · cases hmem
      · exact .inr ⟨g, rfl, hnegation, rfl, hnegated⟩
    · rintro (⟨f, _, ⟨⟩⟩ | ⟨f, rfl, hnegation, rfl, hnegated⟩)
      exact .inr ⟨hnegated, hnegation, rfl⟩
  case among =>
    intro g type values negated htype
    have hfield := typeOf_eq_ok_iff.1 htype
    refine Iff.trans ?_ (Iff.symm (warrants_test rfl fun _ => nofun))
    rw [Lowered.mem_notes_negateIf, Lowered.mem_notes_membership]
    simp only [equates_among, negatedTest_among, hfield, Except.ok.injEq]
    constructor
    · rintro (⟨rfl, hne, htype⟩ | ⟨hnegated, hnegation, rfl⟩)
      · exact .inl ⟨g, rfl, rfl, hne, htype⟩
      · exact .inr ⟨g, rfl, hnegation, rfl, hnegated⟩
    · rintro (⟨f, rfl, rfl, hne, htype⟩ | ⟨f, rfl, hnegation, rfl, hnegated⟩)
      · exact .inl ⟨rfl, hne, htype⟩
      · exact .inr ⟨hnegated, hnegation, rfl⟩
  case like =>
    intro g type pattern _ _
    refine Iff.trans ?_ (Iff.symm (warrants_test rfl fun _ => nofun))
    refine iff_of_false List.not_mem_nil ?_
    rintro (⟨f, _, ⟨⟩⟩ | ⟨f, _, _, ⟨⟩⟩)
  case present =>
    intro g negated
    refine Iff.trans ?_ (Iff.symm (warrants_test rfl fun _ => nofun))
    refine iff_of_false List.not_mem_nil ?_
    rintro (⟨f, _, ⟨⟩⟩ | ⟨f, _, _, ⟨⟩⟩)
  case not =>
    intro operand l ih
    rw [Lowered.mem_notes_negate, warrants_not, ih]
  case and =>
    intro operands ls _ ih
    rw [Lowered.mem_notes_conjunction, Expression.and, warrants_run (by simp)]
    exact (exists_mem_iff_of_forall₂ (ih.imp fun _ _ => Iff.symm)).symm
  case or =>
    intro operands ls _ ih
    rw [Lowered.mem_notes_disjunction, Expression.or, warrants_run (by simp)]
    exact (exists_mem_iff_of_forall₂ (ih.imp fun _ _ => Iff.symm)).symm

/-- The notes on a condition that has a query come without repetition. A field is noted as analyzed
when the condition compares it for equality somewhere and it is of that type. It is noted as
possibly missing when negation does not require fields and the condition negates a test of it. -/
theorem mem_notes_compile_iff (h : e.compile o resolve = .ok l) :
    l.notes.Nodup ∧
      (∀ f, .analyzedEquality f ∈ l.notes ↔ ∃ leaf ∈ e.leaves, leaf.Equates resolve f) ∧
      ∀ f, .missingField f ∈ l.notes ↔ o.negation = .mustNot ∧
        ((∃ leaf ∈ e.leaves, leaf.NegatedTest f) ∨
          ∃ leaf : Expression, leaf.UnderNot e ∧ leaf.Tests f) := by
  obtain ⟨l', hl, h⟩ := exists_of_bind_eq_ok h
  cases h
  have hmem (n : Note) : n ∈ l'.notes.eraseDups ↔ e.Warrants o resolve n := by
    rw [List.mem_eraseDups, mem_notes_lower hl]
  exact ⟨nodup_eraseDups _, fun f => hmem (.analyzedEquality f), fun f => hmem (.missingField f)⟩

end Expression

/-- Two negations around an analyzed city let documents without one pass, and the city has one note
of each kind. The test of presence has none. -/
theorem mem_notes_compile_nested_negation :
    let resolve : Resolver := fun _ => .ok .analyzed
    let e : Expression := .not (.and [.not (.compareLiteral "city" .eq (.text "Nogal")),
      .among "city" [.text "Dante"] true, .present "email" true])
    ∃ l, e.compile Options.default resolve = .ok l ∧ l.notes.Nodup ∧
      .analyzedEquality "city" ∈ l.notes ∧ .missingField "city" ∈ l.notes ∧
      .analyzedEquality "email" ∉ l.notes := by
  intro resolve e
  obtain ⟨l, hl⟩ : ∃ l, e.compile Options.default resolve = .ok l := ⟨_, rfl⟩
  obtain ⟨hnodup, hanalyzed, hmissing⟩ := Expression.mem_notes_compile_iff hl
  have hequates : (Expression.compareLiteral "city" .eq (.text "Nogal")).Equates resolve "city" :=
    .comparison (.inl rfl) rfl
  have hunder : (Expression.compareLiteral "city" .eq (.text "Nogal")).UnderNot e :=
    .not List.mem_cons_self
  refine ⟨l, hl, hnodup, (hanalyzed _).2 ⟨_, List.mem_cons_self, hequates⟩,
    (hmissing _).2 ⟨rfl, .inr ⟨_, hunder, .compare⟩⟩, ?_⟩
  rw [hanalyzed]
  rintro ⟨leaf, hmem, hleaf⟩
  have hleaves : e.leaves = [.compareLiteral "city" .eq (.text "Nogal"),
    .among "city" [.text "Dante"] true, .present "email" true] := rfl
  simp only [hleaves, List.mem_cons, List.not_mem_nil, or_false] at hmem
  obtain rfl | rfl | rfl := hmem
  · simp [Expression.equates_compareLiteral] at hleaf
  · simp [Expression.equates_among] at hleaf
  · cases hleaf

end SearchSql
