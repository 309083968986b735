import Mathlib
import SearchSql.Proofs.Lowering
import SearchSql.Proofs.Scoring
import SearchSql.Proofs.Shape
import SearchSql.Proofs.Targets

/-!
The shape of compiled queries. Every way to put clauses together keeps scored clauses apart from
the others and alternatives apart from everything else.
-/

namespace SearchSql

namespace Query

/-- A clause stands somewhere in a query, or is the query itself. -/
inductive Within (p : Query) : Query → Prop
  | refl : Within p p
  | clause {q must filter should mustNot minimumShould} :
      q ∈ must ++ filter ++ should ++ mustNot → Within p q →
      Within p (.bool must filter should mustNot minimumShould)

/-- The sections of a `bool` clause are in order. -/
structure Orderly (must filter should mustNot : List Query) (minimumShould : Option Nat) :
    Prop where
  must_scored : ∀ q ∈ must, q.isScored = true
  filter_unscored : ∀ q ∈ filter, q.isScored = false
  minimum : minimumShould = if should = [] then none else some 1
  alternatives : should ≠ [] → must = [] ∧ filter = [] ∧ mustNot = []
  excluded : mustNot.length ≤ 1
  nonempty : must ≠ [] ∨ filter ≠ [] ∨ should ≠ [] ∨ mustNot ≠ []

/-- A query without a clause that matches all, in which every `bool` clause is in order. -/
inductive Proper : Query → Prop
  | term {f value} : Proper (.term f value)
  | terms {f values} : Proper (.terms f values)
  | matchAny {f words} : Proper (.matchAny f words)
  | matchPhrase {f phrase} : Proper (.matchPhrase f phrase)
  | range {f bounds} : Proper (.range f bounds)
  | wildcard {f pattern} : Proper (.wildcard f pattern)
  | present {f} : Proper (.present f)
  | bool {must filter should mustNot minimumShould} :
      Orderly must filter should mustNot minimumShould →
      (∀ q ∈ must ++ filter ++ should ++ mustNot, Proper q) →
      Proper (.bool must filter should mustNot minimumShould)

variable {p q condition : Query} {qs must filter should mustNot : List Query}
  {minimumShould : Option Nat} {ts : List Target}

theorem Proper.within (hq : q.Proper) (h : p.Within q) : p.Proper := by
  induction h with
  | refl => exact hq
  | clause hmem _ ih =>
    cases hq with
    | bool _ hclauses => exact ih (hclauses _ hmem)

theorem Proper.orderly (h : (Query.bool must filter should mustNot minimumShould).Proper) :
    Orderly must filter should mustNot minimumShould := by
  cases h with
  | bool horderly _ => exact horderly

theorem not_proper_matchAll : ¬ matchAll.Proper := nofun

theorem proper_excluding (h : q.Proper) : (excluding q).Proper := by
  refine .bool ⟨nofun, nofun, rfl, by simp, by simp, by simp⟩ ?_
  simpa using h

theorem proper_filtering (hne : qs ≠ []) (hproper : ∀ q ∈ qs, q.Proper)
    (hunscored : ∀ q ∈ qs, q.isScored = false) : (filtering qs).Proper := by
  refine .bool ⟨nofun, hunscored, rfl, by simp, by simp, by simp [hne]⟩ ?_
  simpa using hproper

theorem proper_anyOf (hne : qs ≠ []) (hproper : ∀ q ∈ qs, q.Proper) : (anyOf qs).Proper := by
  refine .bool ⟨nofun, nofun, by simp [hne], by simp, by simp, by simp [hne]⟩ ?_
  simpa using hproper

theorem proper_root (h : q.Proper) : q.root.Proper := by
  unfold root
  split
  · exact h
  · next hscored =>
    split
    · exact h
    · exact proper_filtering (by simp) (by simpa using h) (by simpa using hscored)

/-- A filter is added to a query that matches all, to one without alternatives, or beside the
query. -/
theorem proper_restrict (hq : q = .matchAll ∨ q.Proper) (hproper : condition.Proper)
    (hunscored : condition.isScored = false) : (q.restrict condition).Proper := by
  unfold restrict
  split
  · exact proper_filtering (by simp) (by simpa using hproper) (by simpa using hunscored)
  · next must filter mustNot minimumShould =>
    obtain hq | hq := hq
    · cases hq
    cases hq with
    | bool horderly hclauses =>
      refine .bool ⟨horderly.must_scored, ?_, horderly.minimum, by simp, horderly.excluded,
        by simp⟩ ?_
      · exact List.forall_mem_append.2 ⟨horderly.filter_unscored, by simpa using hunscored⟩
      · intro q hmem
        by_cases hcondition : q = condition
        · exact hcondition ▸ hproper
        · exact hclauses q (by simpa [hcondition] using hmem)
  · next hall _ =>
    have hq := hq.resolve_left hall
    split
    · next hscored =>
      refine .bool ⟨by simpa using hscored, by simpa using hunscored, rfl, by simp, by simp,
        by simp⟩ ?_
      simpa using ⟨hq, hproper⟩
    · next hscored =>
      exact proper_filtering (by simp) (by simpa using ⟨hq, hproper⟩)
        (by simpa [hunscored] using hscored)

theorem proper_ofTarget (t : Target) : (ofTarget t).Proper := by
  unfold ofTarget
  split
  · exact proper_filtering (by simp) (by simp [Proper.term]) (by simp [isScored])
  · exact .term

theorem isScored_ofTarget (t : Target) : (ofTarget t).isScored = false := by
  unfold ofTarget
  split
  · simp [filtering]
  · rfl

/-- The filter on targets. There is one only if there are targets. -/
theorem proper_of_ofTargets? (h : ofTargets? ts = some q) : q.Proper ∧ q.isScored = false := by
  unfold ofTargets? at h
  split at h
  · next htyped =>
    cases h
    obtain ⟨t, hmem, _⟩ := List.any_eq_true.1 (Bool.and_eq_true_iff.1 htyped).1
    have hne : ts.eraseDups.map ofTarget ≠ [] :=
      List.ne_nil_of_mem (List.mem_map_of_mem (List.mem_eraseDups.2 hmem))
    refine ⟨proper_anyOf hne ?_, ?_⟩
    · simp [proper_ofTarget]
    · simp [isScored_ofTarget]
  · cases h

end Query

variable {o : Options} {resolve : Resolver} {f : String} {type : FieldType}

namespace Lowered

open Query

variable {l : Lowered} {ls : List Lowered} {op : Comparison} {value : Literal}

theorem proper_textMatch (mode : TextEquality) : (textMatch mode f value).Proper := by
  cases mode
  · exact .matchPhrase
  · exact .matchAny

theorem proper_equality : (equality o f type value).query.Proper := by
  cases type with
  | analyzed => exact proper_textMatch _
  | _ => exact .term

theorem proper_membership {values : List Literal} (hne : values ≠ []) :
    (membership o f type values).query.Proper := by
  cases type with
  | analyzed => exact proper_anyOf (by simpa using hne) (by simp [proper_textMatch])
  | _ => exact .terms

theorem proper_negate (h : l.query.Proper) (fields : List String) :
    (l.negate o fields).query.Proper := by
  unfold negate
  split
  · exact proper_excluding h
  · next hne =>
    split
    · exact proper_excluding h
    · refine .bool ⟨nofun, by simp [isScored], rfl, by simp, by simp, by simp⟩ ?_
      intro q hmem
      simp only [List.nil_append, List.append_nil, List.mem_append, List.mem_map,
        List.mem_singleton] at hmem
      obtain ⟨f, _, rfl⟩ | rfl := hmem
      · exact .present
      · exact h

theorem proper_negateIf (h : l.query.Proper) (negated : Bool) :
    (l.negateIf o negated f).query.Proper := by
  unfold negateIf
  split
  · exact proper_negate h _
  · exact h

theorem proper_comparison (h : comparison o f type op value = .ok l) : l.query.Proper := by
  obtain ⟨_, rfl⟩ | ⟨_, rfl⟩ | ⟨_, _, _, rfl⟩ := comparison_eq_ok h
  · exact proper_equality
  · exact proper_negate proper_equality _
  · exact .range

theorem proper_conjunction (hne : ls ≠ []) (h : ∀ l ∈ ls, l.query.Proper) :
    (conjunction ls).query.Proper := by
  have hproper : ∀ q ∈ ls.map Lowered.query, q.Proper := by simpa using h
  refine .bool ⟨by simp, by simp, rfl, by simp, by simp, ?_⟩ ?_
  · obtain ⟨l, hmem⟩ := List.exists_mem_of_ne_nil _ hne
    have hquery : l.query ∈ ls.map Lowered.query := List.mem_map_of_mem hmem
    cases hscored : l.query.isScored with
    | true => exact .inl (List.ne_nil_of_mem (List.mem_filter.2 ⟨hquery, hscored⟩))
    | false =>
      exact .inr (.inl (List.ne_nil_of_mem (List.mem_filter.2 ⟨hquery, by simp [hscored]⟩)))
  · intro q hmem
    simp only [List.append_nil, List.mem_append, List.mem_filter] at hmem
    obtain ⟨hmem, _⟩ | ⟨hmem, _⟩ := hmem <;> exact hproper q hmem

theorem proper_disjunction (hne : ls ≠ []) (h : ∀ l ∈ ls, l.query.Proper) :
    (disjunction ls).query.Proper :=
  proper_anyOf (by simpa using hne) (by simpa using h)

end Lowered

namespace Expression

theorem proper_of_forall₂ {es : List Expression} {ls : List Lowered}
    (hes : ∀ e ∈ es, e.Regular)
    (h : List.Forall₂ (fun e l => e.Regular → l.query.Proper) es ls) :
    ∀ l ∈ ls, l.query.Proper := by
  induction h with
  | nil => exact List.forall_mem_nil _
  | cons he _ ih =>
    obtain ⟨hregular, hes⟩ := List.forall_mem_cons.1 hes
    exact List.forall_mem_cons.2 ⟨he hregular, ih hes⟩

theorem ne_nil_of_forall₂ {es : List Expression} {ls : List Lowered}
    {R : Expression → Lowered → Prop} (hne : es ≠ []) (h : List.Forall₂ R es ls) : ls ≠ [] := by
  rintro rfl
  exact hne (List.forall₂_nil_right_iff.1 h)

theorem proper_lower {e : Expression} {l : Lowered} (h : e.lower o resolve = .ok l)
    (hregular : e.Regular) : l.query.Proper := by
  revert hregular
  refine lower_induction (motive := fun e l => e.Regular → l.query.Proper)
    ?compare ?between ?among ?like ?present ?not ?and ?or h
  case compare =>
    intro f type op value l _ hl _
    exact Lowered.proper_comparison hl
  case between =>
    intro f low high negated _ _
    exact Lowered.proper_negateIf .range negated
  case among =>
    intro f type values negated _ hregular
    cases hregular with
    | among hne => exact Lowered.proper_negateIf (Lowered.proper_membership hne) negated
  case like =>
    intro f type pattern _ _ _
    exact .wildcard
  case present =>
    intro f negated _
    cases negated
    · exact .present
    · exact Query.proper_excluding .present
  case not =>
    intro operand l ih hregular
    exact Lowered.proper_negate (ih (hregular.operands _ (List.mem_singleton_self _))) _
  case and =>
    intro operands ls hne ih hregular
    exact Lowered.proper_conjunction (ne_nil_of_forall₂ hne ih)
      (proper_of_forall₂ hregular.operands ih)
  case or =>
    intro operands ls hne ih hregular
    exact Lowered.proper_disjunction (ne_nil_of_forall₂ hne ih)
      (proper_of_forall₂ hregular.operands ih)

end Expression

namespace Statement

variable {s : Statement} {r : Request}

theorem proper_rootQuery {condition : Option Query} (h : ∀ q ∈ condition, q.Proper) :
    s.rootQuery condition = .matchAll ∨ (s.rootQuery condition).Proper := by
  have hroot : condition.elim .matchAll Query.root = .matchAll ∨
      (condition.elim .matchAll Query.root).Proper := by
    cases condition with
    | none => exact .inl rfl
    | some q => exact .inr (Query.proper_root (h q rfl))
  rw [rootQuery_eq]
  cases htargets : Query.ofTargets? s.targets with
  | none => exact hroot
  | some targets =>
    obtain ⟨hproper, hunscored⟩ := Query.proper_of_ofTargets? htargets
    exact .inr (Query.proper_restrict hroot hproper hunscored)

theorem proper_compile (hregular : ∀ e ∈ s.condition, e.Regular)
    (h : s.compile o resolve = .ok r) : r.query = .matchAll ∨ r.query.Proper := by
  obtain ⟨query, notes, h, ⟨_, rfl⟩ | ⟨e, l, hcondition, hl, rfl⟩⟩ := compile_eq_ok h
  · rw [(assemble_eq_ok h).2]
    exact proper_rootQuery nofun
  · have hproper := Expression.proper_lower hl (hregular e hcondition)
    rw [(assemble_eq_ok h).2]
    exact proper_rootQuery (by simpa using hproper)

end Statement

/-- In the query of a text, every `bool` clause is in order, at any depth. A clause that matches all
stands alone. -/
theorem Request.query_orderly {sql : String} {r : Request}
    (h : Request.ofText o resolve sql = .ok r) :
    (∀ must filter should mustNot minimumShould,
      (Query.bool must filter should mustNot minimumShould).Within r.query →
        Query.Orderly must filter should mustNot minimumShould) ∧
      (Query.matchAll.Within r.query → r.query = .matchAll) := by
  obtain ⟨s, hs, h⟩ := exists_of_bind_eq_ok h
  obtain hall | hproper := Statement.proper_compile (Statement.regular_of_ofText hs) h
  · rw [hall]
    exact ⟨nofun, fun _ => rfl⟩
  · refine ⟨fun _ _ _ _ _ hwithin => (hproper.within hwithin).orderly, fun hwithin => ?_⟩
    exact (Query.not_proper_matchAll (hproper.within hwithin)).elim

/-- A negation under alternatives that are narrowed to their targets, and a text with no condition
at all. -/
theorem Request.query_orderly_nested :
    let o : Options := { Options.default with negation := .requireField }
    let resolve : Resolver := fun _ => .ok .analyzed
    let negated := Query.bool [] [.present "t"] [] [.matchPhrase "t" (.text "b")] none
    (∃ r, Request.ofText o resolve "select * from i/x, j where t = 'a' or not t = 'b'" = .ok r ∧
      negated.Within r.query ∧
      Query.Orderly [] [.present "t"] [] [.matchPhrase "t" (.text "b")] none) ∧
    ∃ r, Request.ofText o resolve "select * from i" = .ok r ∧ Query.matchAll.Within r.query ∧
      r.query = .matchAll := by
  intro o resolve negated
  let alternatives := Query.anyOf [.matchPhrase "t" (.text "a"), negated]
  let targets := Query.anyOf
    [.filtering [.term "_index" (.text "i"), .term "_type" (.text "x")], .term "_index" (.text "j")]
  let r : Request :=
    { targets := [⟨"i", some "x"⟩, ⟨"j", none⟩], query := .bool [alternatives] [targets] [] [] none
      fetched := .all, sort := [], size := none, start := none, aggregations := []
      notes := [.analyzedEquality "t"] }
  let r' : Request :=
    { targets := [⟨"i", none⟩], query := .matchAll, fetched := .all, sort := [], size := none
      start := none, aggregations := [], notes := [] }
  have hr : ofText o resolve "select * from i/x, j where t = 'a' or not t = 'b'" = .ok r := by cbv
  have hr' : ofText o resolve "select * from i" = .ok r' := by cbv
  have halternative : negated.Within alternatives :=
    .clause (List.mem_cons_of_mem _ List.mem_cons_self) .refl
  have hwithin : negated.Within r.query := .clause List.mem_cons_self halternative
  exact ⟨⟨r, hr, hwithin, (query_orderly hr).1 _ _ _ _ _ hwithin⟩,
    r', hr', .refl, (query_orderly hr').2 .refl⟩

end SearchSql
