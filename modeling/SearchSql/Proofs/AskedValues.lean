import Mathlib
import SearchSql.Proofs.Scoring
import SearchSql.Proofs.Targets

/-!
The values that a condition asks for, with the fields that are to have them. Its query asks for the
same values, and the root clause of the request adds only the names of targets.
-/

namespace SearchSql

/-- The bounds that are set. -/
def Bounds.literals (b : Bounds) : List Literal :=
  b.gt.toList ++ b.gte.toList ++ b.lt.toList ++ b.lte.toList

namespace Query

mutual

/-- The values that a query asks for, each with its field. -/
def asked : Query → List (String × Literal)
  | .term f value | .matchAny f value | .matchPhrase f value => [(f, value)]
  | .terms f values => values.map (f, ·)
  | .range f bounds => bounds.literals.map (f, ·)
  | .wildcard f pattern => [(f, .text pattern)]
  | .bool must filter should mustNot _ =>
    askedByAny must ++ askedByAny filter ++ askedByAny should ++ askedByAny mustNot
  | .matchAll | .present _ => []

def askedByAny : List Query → List (String × Literal)
  | [] => []
  | q :: rest => q.asked ++ askedByAny rest

end

/-- Induction over a query: what holds of all clauses of a `bool` clause holds of it. -/
@[elab_as_elim]
theorem induction {motive : Query → Prop}
    (matchAll : motive .matchAll)
    (term : ∀ f value, motive (.term f value))
    (terms : ∀ f values, motive (.terms f values))
    (matchAny : ∀ f words, motive (.matchAny f words))
    (matchPhrase : ∀ f phrase, motive (.matchPhrase f phrase))
    (range : ∀ f bounds, motive (.range f bounds))
    (wildcard : ∀ f pattern, motive (.wildcard f pattern))
    (present : ∀ f, motive (.present f))
    (bool : ∀ must filter should mustNot minimumShould,
      (∀ q ∈ must ++ filter ++ should ++ mustNot, motive q) →
        motive (.bool must filter should mustNot minimumShould))
    (q : Query) : motive q := by
  refine @Query.rec motive (fun qs => ∀ q ∈ qs, motive q) matchAll term terms matchAny matchPhrase
    range wildcard present ?_ (List.forall_mem_nil motive)
    (fun _ _ h hs => List.forall_mem_cons.2 ⟨h, hs⟩) q
  intro must filter should mustNot minimumShould hmust hfilter hshould hmustNot
  refine bool _ _ _ _ _ ?_
  simp only [List.forall_mem_append]
  exact ⟨⟨⟨hmust, hfilter⟩, hshould⟩, hmustNot⟩

variable {a : String × Literal} {q condition : Query} {qs must filter should mustNot : List Query}
  {minimumShould : Option Nat} {ts : List Target}

theorem askedByAny_eq_flatMap (qs : List Query) : askedByAny qs = qs.flatMap asked := by
  induction qs with
  | nil => rfl
  | cons q qs ih => rw [askedByAny, ih, List.flatMap_cons]

theorem mem_asked_bool : a ∈ (bool must filter should mustNot minimumShould).asked ↔
    ∃ q ∈ must ++ filter ++ should ++ mustNot, a ∈ q.asked := by
  simp only [asked, askedByAny_eq_flatMap, ← List.flatMap_append, List.mem_flatMap]

@[simp] theorem mem_asked_filtering : a ∈ (filtering qs).asked ↔ ∃ q ∈ qs, a ∈ q.asked := by
  simp [filtering, mem_asked_bool]

@[simp] theorem mem_asked_anyOf : a ∈ (anyOf qs).asked ↔ ∃ q ∈ qs, a ∈ q.asked := by
  simp [anyOf, mem_asked_bool]

@[simp] theorem mem_asked_excluding : a ∈ (excluding q).asked ↔ a ∈ q.asked := by
  simp [excluding, mem_asked_bool]

theorem mem_asked_root : a ∈ q.root.asked ↔ a ∈ q.asked := by
  unfold root
  split
  · rfl
  · split <;> simp

theorem mem_asked_restrict :
    a ∈ (q.restrict condition).asked ↔ a ∈ q.asked ∨ a ∈ condition.asked := by
  unfold restrict
  split
  · simp [asked]
  · simp only [mem_asked_bool, List.mem_append, List.mem_singleton, List.not_mem_nil, or_false]
    constructor
    · rintro ⟨q, ((hmem | hmem | rfl) | hmem), ha⟩
      · exact .inl ⟨q, .inl (.inl hmem), ha⟩
      · exact .inl ⟨q, .inl (.inr hmem), ha⟩
      · exact .inr ha
      · exact .inl ⟨q, .inr hmem, ha⟩
    · rintro (⟨q, ((hmem | hmem) | hmem), ha⟩ | ha)
      · exact ⟨q, .inl (.inl hmem), ha⟩
      · exact ⟨q, .inl (.inr (.inl hmem)), ha⟩
      · exact ⟨q, .inr hmem, ha⟩
      · exact ⟨condition, .inl (.inr (.inr rfl)), ha⟩
  · split <;> simp [mem_asked_bool]

/-- The filter on targets asks for names, which are texts. -/
theorem kind_of_mem_asked_targets (h : ofTargets? ts = some q) (ha : a ∈ q.asked) :
    a.2.kind = .text := by
  unfold ofTargets? at h
  split at h
  · cases h
    simp only [mem_asked_anyOf, List.mem_map, exists_exists_and_eq_and] at ha
    obtain ⟨t, _, ha⟩ := ha
    unfold ofTarget at ha
    split at ha
    · simp only [mem_asked_filtering, List.mem_cons, List.not_mem_nil, or_false, exists_eq_or_imp,
        exists_eq_left, asked] at ha
      obtain rfl | rfl := ha <;> rfl
    · simp only [asked, List.mem_singleton] at ha
      exact ha ▸ rfl
  · cases h

end Query

namespace Expression

/-- The values that a test asks for, each with its field. -/
def asks : Expression → List (String × Literal)
  | .compare f _ (.literal value) => [(f, value)]
  | .between f low high _ => [(f, low), (f, high)]
  | .among f values _ => values.map (f, ·)
  | .like f pattern => [(f, .text (wildcardOfLike pattern))]
  | _ => []

/-- The values that a condition asks for, at any depth. -/
def asked (e : Expression) : List (String × Literal) := e.leaves.flatMap asks

variable {a : String × Literal} {e : Expression}

theorem mem_asked_logical {op : Connective} {operands : List Expression} :
    a ∈ (logical op operands).asked ↔ ∃ e ∈ operands, a ∈ e.asked := by
  simp only [asked, List.mem_flatMap, mem_leaves_logical]
  tauto

theorem asked_test (h : e.leaves = [e]) : e.asked = e.asks := by
  rw [asked, h, List.flatMap_singleton]

end Expression

variable {o : Options} {resolve : Resolver} {f : String} {type : FieldType}

namespace Lowered

variable {a : String × Literal} {l : Lowered} {ls : List Lowered} {value : Literal}

theorem asked_textMatch (mode : TextEquality) :
    (textMatch mode f value).asked = [(f, value)] := by
  cases mode <;> rfl

theorem asked_equality : (equality o f type value).query.asked = [(f, value)] := by
  cases type with
  | analyzed => exact asked_textMatch _
  | _ => rfl

theorem mem_asked_membership {values : List Literal} :
    a ∈ (membership o f type values).query.asked ↔ a ∈ values.map (f, ·) := by
  cases type with
  | analyzed => simp [membership, asked_textMatch, eq_comm]
  | _ => rfl

/-- The clauses for fields that are present ask for no value. -/
theorem mem_asked_negate (fields : List String) :
    a ∈ (l.negate o fields).query.asked ↔ a ∈ l.query.asked := by
  unfold negate
  split
  · exact Query.mem_asked_excluding
  · split
    · exact Query.mem_asked_excluding
    · rw [Query.mem_asked_bool]
      constructor
      · rintro ⟨q, hmem, ha⟩
        simp only [List.nil_append, List.append_nil, List.mem_append, List.mem_map,
          List.mem_singleton] at hmem
        obtain ⟨f, _, rfl⟩ | rfl := hmem
        · exact absurd ha List.not_mem_nil
        · exact ha
      · intro ha
        exact ⟨l.query, by simp, ha⟩

theorem mem_asked_negateIf (negated : Bool) :
    a ∈ (l.negateIf o negated f).query.asked ↔ a ∈ l.query.asked := by
  unfold negateIf
  split
  · exact mem_asked_negate _
  · rfl

theorem asked_of_bounds? {op : Comparison} {bounds : Bounds} (h : bounds? op value = some bounds) :
    bounds.literals = [value] := by
  cases op <;> cases h <;> rfl

theorem mem_asked_comparison {op : Comparison} (h : comparison o f type op value = .ok l) :
    a ∈ l.query.asked ↔ a = (f, value) := by
  obtain ⟨_, rfl⟩ | ⟨_, rfl⟩ | ⟨bounds, hbounds, _, rfl⟩ := comparison_eq_ok h
  · rw [asked_equality, List.mem_singleton]
  · rw [mem_asked_negate, asked_equality, List.mem_singleton]
  · rw [Query.asked, asked_of_bounds? hbounds, List.map_singleton, List.mem_singleton]

theorem mem_asked_conjunction :
    a ∈ (conjunction ls).query.asked ↔ ∃ l ∈ ls, a ∈ l.query.asked := by
  simp only [conjunction, Query.mem_asked_bool, List.append_nil, List.mem_append, List.mem_filter,
    List.mem_map, ← and_or_left, Bool.not_eq_true', Bool.eq_false_or_eq_true, and_true,
    exists_exists_and_eq_and]

theorem mem_asked_disjunction :
    a ∈ (disjunction ls).query.asked ↔ ∃ l ∈ ls, a ∈ l.query.asked := by
  simp [disjunction]

end Lowered

namespace Expression

/-- The query of a condition asks for the values that the condition asks for. -/
theorem mem_asked_lower {a : String × Literal} {e : Expression} {l : Lowered}
    (h : e.lower o resolve = .ok l) : a ∈ l.query.asked ↔ a ∈ e.asked := by
  refine lower_induction (motive := fun e l => a ∈ l.query.asked ↔ a ∈ e.asked)
    ?compare ?between ?among ?like ?present ?not ?and ?or h
  case compare =>
    intro f type op value l _ hl
    rw [Lowered.mem_asked_comparison hl, asked_test rfl]
    exact List.mem_singleton.symm
  case between =>
    intro f low high negated _
    rw [Lowered.mem_asked_negateIf, asked_test rfl]
    rfl
  case among =>
    intro f type values negated _
    rw [Lowered.mem_asked_negateIf, Lowered.mem_asked_membership, asked_test rfl, asks]
  case like =>
    intro f type pattern _ _
    rw [asked_test rfl]
    rfl
  case present =>
    intro f negated
    rw [asked_test rfl]
    cases negated <;> simp [Query.missing, Query.asked, asks]
  case not =>
    intro operand l ih
    rw [Lowered.mem_asked_negate, ih, Expression.not, mem_asked_logical]
    simp
  case and =>
    intro operands ls _ ih
    rw [Lowered.mem_asked_conjunction, Expression.and, mem_asked_logical]
    exact (exists_mem_iff_of_forall₂ (ih.imp fun _ _ he => he.symm)).symm
  case or =>
    intro operands ls _ ih
    rw [Lowered.mem_asked_disjunction, Expression.or, mem_asked_logical]
    exact (exists_mem_iff_of_forall₂ (ih.imp fun _ _ he => he.symm)).symm

end Expression

theorem Statement.mem_asked_rootQuery {s : Statement} {condition : Option Query}
    {a : String × Literal} : a ∈ (s.rootQuery condition).asked ↔
      (∃ q ∈ condition, a ∈ q.asked) ∨ ∃ q ∈ Query.ofTargets? s.targets, a ∈ q.asked := by
  have hroot : a ∈ (condition.elim .matchAll Query.root).asked ↔ ∃ q ∈ condition, a ∈ q.asked := by
    cases condition with
    | none => simp [Query.asked]
    | some q => simpa using Query.mem_asked_root
  rw [rootQuery_eq]
  cases Query.ofTargets? s.targets with
  | none => simpa using hroot
  | some targets => simpa [Query.mem_asked_restrict] using or_congr_left hroot

end SearchSql
