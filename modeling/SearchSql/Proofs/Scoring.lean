import Mathlib
import SearchSql.Proofs.Lowering
import SearchSql.Proofs.Shape
import SearchSql.Proofs.Targets
import SearchSql.Request.Compile

/-!
Which requests rank their hits. Text matches that are under no negation give scores, from the
condition to the root of the request, and nothing else comes to give any.
-/

namespace SearchSql

namespace Query

mutual

/-- The clauses that are no `bool` and that are reached through `must` and `should` only. -/
def scoringLeaves : Query → List Query
  | .bool must _ should _ _ => scoringLeavesOf must ++ scoringLeavesOf should
  | q => [q]

def scoringLeavesOf : List Query → List Query
  | [] => []
  | q :: rest => q.scoringLeaves ++ scoringLeavesOf rest

end

variable {q condition : Query} {must filter should mustNot qs : List Query}
  {minimumShould : Option Nat}

theorem anyScored_eq_any (qs : List Query) : anyScored qs = qs.any isScored := by
  induction qs with
  | nil => rfl
  | cons q qs ih => rw [anyScored, ih, List.any_cons]

@[simp] theorem isScored_bool : (bool must filter should mustNot minimumShould).isScored =
    (must.any isScored || should.any isScored) := by
  rw [isScored, anyScored_eq_any, anyScored_eq_any]

@[simp] theorem isScored_anyOf : (anyOf qs).isScored = qs.any isScored := by
  simp [anyOf]

theorem root_of_isScored (h : q.isScored = true) : q.root = q := if_pos h

/-- What is not scored becomes a root clause with nothing that could be scored. -/
theorem root_of_not_isScored (h : q.isScored = false) :
    ∃ filter mustNot minimumShould, q.root = .bool [] filter [] mustNot minimumShould := by
  unfold root
  rw [if_neg (by simp [h])]
  split
  · exact ⟨_, _, _, rfl⟩
  · exact ⟨_, _, _, rfl⟩

theorem isScored_restrict : (q.restrict condition).isScored = q.isScored := by
  unfold restrict
  split
  · rfl
  · simp
  · split
    · next h => simp [h]
    · next h => simp [h, filtering]

/-- A clause that is scored keeps its text matches beside a filter, in their order. -/
theorem scoringLeaves_restrict (h : q.isScored = true) :
    (q.restrict condition).scoringLeaves = q.scoringLeaves := by
  unfold restrict
  split
  · cases h
  · rfl
  · rw [if_pos h]
    simp [scoringLeaves, scoringLeavesOf]

/-- A root clause with nothing that could be scored stays one beside a filter. -/
theorem restrict_of_unscored {root : Query} (h : root = .bool [] filter [] mustNot minimumShould) :
    root.restrict condition = .bool [] (filter ++ [condition]) [] mustNot minimumShould := by
  subst h
  rfl

end Query

variable {o : Options} {resolve : Resolver} {f : String} {type : FieldType}

namespace Lowered

variable {l : Lowered} {ls : List Lowered} {op : Comparison} {value : Literal}

theorem isScored_textMatch (mode : TextEquality) :
    (textMatch mode f value).isScored = true := by
  cases mode <;> rfl

theorem isScored_equality :
    (equality o f type value).query.isScored = true ↔ type = .analyzed := by
  cases type <;> simp [equality, isScored_textMatch, Query.isScored]

theorem isScored_membership {values : List Literal} (hne : values ≠ []) :
    (membership o f type values).query.isScored = true ↔ type = .analyzed := by
  obtain ⟨value, hvalue⟩ := List.exists_mem_of_ne_nil _ hne
  cases type with
  | analyzed =>
    simp only [membership, Query.isScored_anyOf, List.any_map, iff_true]
    exact List.any_eq_true.2 ⟨value, hvalue, isScored_textMatch _⟩
  | _ => simp [membership, Query.isScored]

theorem isScored_negate (fields : List String) : (l.negate o fields).query.isScored = false := by
  unfold negate
  split
  · rfl
  · split <;> rfl

theorem isScored_comparison (h : comparison o f type op value = .ok l) :
    l.query.isScored = true ↔ op = .eq ∧ type = .analyzed := by
  obtain ⟨rfl, rfl⟩ | ⟨rfl, rfl⟩ | ⟨bounds, hbounds, _, rfl⟩ := comparison_eq_ok h
  · rw [isScored_equality]
    simp
  · simp [isScored_negate]
  · have hop : op ≠ .eq := by
      rintro rfl
      cases hbounds
    simp [Query.isScored, hop]

theorem isScored_conjunction :
    (conjunction ls).query.isScored = true ↔ ∃ l ∈ ls, l.query.isScored = true := by
  simp [conjunction]

theorem isScored_disjunction :
    (disjunction ls).query.isScored = true ↔ ∃ l ∈ ls, l.query.isScored = true := by
  simp [disjunction]

end Lowered

namespace Expression

variable {e : Expression} {l : Lowered}

/-- The tests of analyzed text by which hits are ranked. -/
inductive Scores (resolve : Resolver) : Expression → Prop
  | equality {f value} : resolve f = .ok .analyzed → Scores resolve (.compareLiteral f .eq value)
  | membership {f values} : resolve f = .ok .analyzed → Scores resolve (.among f values false)

theorem scores_compareLiteral {op : Comparison} {value : Literal} :
    (compareLiteral f op value).Scores resolve ↔ op = .eq ∧ resolve f = .ok .analyzed := by
  constructor
  · intro h
    cases h with
    | equality h => exact ⟨rfl, h⟩
  · rintro ⟨rfl, h⟩
    exact .equality h

theorem scores_among {values : List Literal} {negated : Bool} :
    (among f values negated).Scores resolve ↔ negated = false ∧ resolve f = .ok .analyzed := by
  constructor
  · intro h
    cases h with
    | membership h => exact ⟨rfl, h⟩
  · rintro ⟨rfl, h⟩
    exact .membership h

theorem exists_affirmed_test {P : Expression → Prop} (h : e.affirmed = [e]) :
    (∃ leaf ∈ e.affirmed, P leaf) ↔ P e := by
  simp [h]

theorem exists_affirmed_logical {P : Expression → Prop} {op : Connective}
    {operands : List Expression} (hop : op ≠ .not) :
    (∃ leaf ∈ (logical op operands).affirmed, P leaf) ↔
      ∃ e ∈ operands, ∃ leaf ∈ e.affirmed, P leaf := by
  simp only [mem_affirmed_logical hop]
  tauto

theorem exists_iff_of_forall₂ {P : Expression → Prop} {Q : Lowered → Prop} {es : List Expression}
    {ls : List Lowered} (hes : ∀ e ∈ es, e.Regular)
    (h : List.Forall₂ (fun e l => e.Regular → (Q l ↔ P e)) es ls) :
    (∃ l ∈ ls, Q l) ↔ ∃ e ∈ es, P e := by
  have hboth := (List.forall₂_and_left es ls).2 ⟨hes, h⟩
  exact (exists_mem_iff_of_forall₂ (hboth.imp fun _ _ he => (he.2 he.1).symm)).symm

theorem Regular.operands {op : Connective} {operands : List Expression}
    (h : (logical op operands).Regular) : ∀ e ∈ operands, e.Regular := by
  cases h with
  | not h => exact List.forall_mem_singleton.2 h
  | run _ _ h => exact h

/-- The query of a condition is scored when a text match stands under no negation. -/
theorem isScored_lower (h : e.lower o resolve = .ok l) (hregular : e.Regular) :
    l.query.isScored = true ↔ ∃ leaf ∈ e.affirmed, leaf.Scores resolve := by
  revert hregular
  refine lower_induction (motive := fun e l => e.Regular →
      (l.query.isScored = true ↔ ∃ leaf ∈ e.affirmed, leaf.Scores resolve))
    ?compare ?between ?among ?like ?present ?not ?and ?or h
  case compare =>
    intro f type op value l htype hl _
    have hfield := typeOf_eq_ok_iff.1 htype
    rw [exists_affirmed_test rfl, scores_compareLiteral, Lowered.isScored_comparison hl, hfield,
      Except.ok.injEq]
  case between =>
    intro f low high negated _ _
    rw [exists_affirmed_test rfl]
    refine iff_of_false ?_ (by rintro ⟨⟩)
    cases negated
    · exact Bool.false_ne_true
    · simp [Lowered.negateIf, Lowered.isScored_negate]
  case among =>
    intro f type values negated htype hregular
    have hfield := typeOf_eq_ok_iff.1 htype
    rw [exists_affirmed_test rfl, scores_among, hfield, Except.ok.injEq]
    cases negated with
    | true => simp [Lowered.negateIf, Lowered.isScored_negate]
    | false =>
      cases hregular with
      | among hne => simp [Lowered.negateIf, Lowered.isScored_membership hne]
  case like =>
    intro f type pattern _ _ _
    rw [exists_affirmed_test rfl]
    exact iff_of_false Bool.false_ne_true (by rintro ⟨⟩)
  case present =>
    intro f negated _
    rw [exists_affirmed_test rfl]
    refine iff_of_false ?_ (by rintro ⟨⟩)
    cases negated <;> exact Bool.false_ne_true
  case not =>
    intro operand l _ _
    refine iff_of_false ?_ ?_
    · simp [Lowered.isScored_negate]
    · rintro ⟨leaf, hmem, _⟩
      exact not_mem_affirmed_not hmem
  case and =>
    intro operands ls _ ih hregular
    rw [Lowered.isScored_conjunction, Expression.and, exists_affirmed_logical (by simp)]
    exact exists_iff_of_forall₂ hregular.operands ih
  case or =>
    intro operands ls _ ih hregular
    rw [Lowered.isScored_disjunction, Expression.or, exists_affirmed_logical (by simp)]
    exact exists_iff_of_forall₂ hregular.operands ih

end Expression

namespace Statement

variable {s : Statement} {q : Query} {notes : List Note} {r : Request}

theorem isScored_rootQuery (condition : Option Query) :
    (s.rootQuery condition).isScored = condition.any Query.isScored := by
  have hroot : (condition.elim .matchAll Query.root).isScored = condition.any Query.isScored := by
    cases condition with
    | none => rfl
    | some q =>
      cases hq : q.isScored with
      | true => simp [Query.root_of_isScored hq, hq]
      | false =>
        obtain ⟨filter, mustNot, minimumShould, heq⟩ := Query.root_of_not_isScored hq
        simp [heq, hq]
  rw [rootQuery_eq]
  cases Query.ofTargets? s.targets with
  | none => exact hroot
  | some targets => exact Query.isScored_restrict.trans hroot

theorem scoringLeaves_rootQuery (h : q.isScored = true) :
    (s.rootQuery (some q)).scoringLeaves = q.scoringLeaves := by
  rw [rootQuery_eq, Option.elim_some, Query.root_of_isScored h]
  cases Query.ofTargets? s.targets with
  | none => rfl
  | some targets => exact Query.scoringLeaves_restrict h

theorem rootQuery_of_not_isScored (h : q.isScored = false) :
    ∃ filter mustNot minimumShould,
      s.rootQuery (some q) = .bool [] filter [] mustNot minimumShould := by
  obtain ⟨filter, mustNot, minimumShould, hroot⟩ := Query.root_of_not_isScored h
  rw [rootQuery_eq, Option.elim_some]
  cases Query.ofTargets? s.targets with
  | none => exact ⟨_, _, _, hroot⟩
  | some targets => exact ⟨_, _, _, Query.restrict_of_unscored hroot⟩

/-- The request of a statement ranks its hits when the condition has a text match under no
negation. -/
theorem isScored_compile (hregular : ∀ e ∈ s.condition, e.Regular)
    (h : s.compile o resolve = .ok r) : r.query.isScored = true ↔
      ∃ e ∈ s.condition, ∃ leaf ∈ e.affirmed, leaf.Scores resolve := by
  obtain ⟨query, notes, h, ⟨hcondition, rfl⟩ | ⟨e, l, hcondition, hl, rfl⟩⟩ := compile_eq_ok h
  · rw [(assemble_eq_ok h).2, isScored_rootQuery, hcondition]
    simp
  · rw [(assemble_eq_ok h).2, isScored_rootQuery, Option.any_some,
      Expression.isScored_lower hl (hregular e hcondition), hcondition]
    simp

end Statement

/-- A request ranks its hits exactly when its text has a text match under no negation. Assembling a
request with any condition keeps the text matches that rank hits, and brings in none. -/
theorem Request.scoring_survives :
    (∀ o resolve sql r, Request.ofText o resolve sql = .ok r →
      ∃ s, Statement.ofText sql = .ok s ∧ (r.query.isScored = true ↔
        ∃ e ∈ s.condition, ∃ leaf ∈ e.affirmed, leaf.Scores resolve)) ∧
    ∀ (s : Statement) (q : Query) (notes : List Note) (r : Request),
      s.assemble (some q) notes = .ok r →
        r.query.isScored = q.isScored ∧
        (q.isScored = true → r.query.scoringLeaves = q.scoringLeaves) ∧
        (q.isScored = false → ∃ filter mustNot minimumShould,
          r.query = .bool [] filter [] mustNot minimumShould) := by
  constructor
  · intro o resolve sql r h
    obtain ⟨s, hs, h⟩ := exists_of_bind_eq_ok h
    exact ⟨s, hs, Statement.isScored_compile (Statement.regular_of_ofText hs) h⟩
  · intro s q notes r h
    rw [(Statement.assemble_eq_ok h).2]
    exact ⟨Statement.isScored_rootQuery (some q), Statement.scoringLeaves_rootQuery,
      Statement.rootQuery_of_not_isScored⟩

/-- A text match among alternatives ranks hits although another one is negated. Alternatives that
are narrowed to their targets keep their matches, and a term beside targets ranks nothing. -/
theorem Request.scoring_survives_targets :
    let resolve : Resolver := fun f => .ok (if f = "t" then .analyzed else .exact)
    let sql := "select * from i/x, j where (n = 1 or t = 'k') and not t = 'z'"
    let s : Statement :=
      { projection := [.star], targets := [⟨"i", some "x"⟩, ⟨"j", none⟩],
        condition := some (.and [.or [.compareLiteral "n" .eq (.integer 1),
          .compareLiteral "t" .eq (.text "k")], .not (.compareLiteral "t" .eq (.text "z"))]),
        order := [], limit := none, offset := none }
    let q : Query := .bool [] [] [.matchPhrase "t" (.text "k"), .term "n" (.integer 1)] [] none
    (∃ r, Request.ofText Options.default resolve sql = .ok r ∧ r.query.isScored = true) ∧
      (∃ r, s.assemble (some q) [] = .ok r ∧ q.isScored = true ∧
        r.query.scoringLeaves = q.scoringLeaves) ∧
      ∃ r, s.assemble (some (.term "n" (.integer 1))) [] = .ok r ∧
        ∃ filter mustNot minimumShould, r.query = .bool [] filter [] mustNot minimumShould := by
  intro resolve sql s q
  have hread : Statement.ofText sql = .ok s := by cbv
  obtain ⟨r, hr⟩ : ∃ r, s.compile Options.default resolve = .ok r := ⟨_, rfl⟩
  have htext : Request.ofText Options.default resolve sql = .ok r := by
    rw [Request.ofText, hread]
    exact hr
  obtain ⟨s', hs', hscored⟩ := scoring_survives.1 _ _ _ _ htext
  obtain rfl := Except.ok.inj (hread.symm.trans hs')
  have hmatch : (Expression.compareLiteral "t" .eq (.text "k")).Scores resolve := .equality rfl
  obtain ⟨r', hr'⟩ : ∃ r, s.assemble (some q) [] = .ok r := ⟨_, rfl⟩
  obtain ⟨r'', hr''⟩ : ∃ r, s.assemble (some (.term "n" (.integer 1))) [] = .ok r := ⟨_, rfl⟩
  refine ⟨⟨r, htext, hscored.2 ⟨_, rfl, _, ?_, hmatch⟩⟩,
    ⟨r', hr', rfl, (scoring_survives.2 s q [] r' hr').2.1 rfl⟩,
    ⟨r'', hr'', (scoring_survives.2 s _ [] r'' hr'').2.2 rfl⟩⟩
  exact List.mem_cons_of_mem _ (List.mem_singleton_self _)

end SearchSql
