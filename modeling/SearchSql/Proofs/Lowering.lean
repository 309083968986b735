import Mathlib.Data.List.Forall2
import SearchSql.Query.Lowering

/-!
Conditions that have a query. What holds of the query of every leaf, and passes from operands to
connectives, holds of the query of every condition that is compiled. What every way to build a query
keeps relates the queries of a condition under different options.
-/

namespace SearchSql

theorem exists_of_bind_eq_ok {ε α β : Type} {x : Except ε α} {f : α → Except ε β} {b : β}
    (h : x >>= f = .ok b) : ∃ a, x = .ok a ∧ f a = .ok b := by
  cases x with
  | error _ => cases h
  | ok a => exact ⟨a, rfl, h⟩

theorem exists_mem_iff_of_forall₂ {α β : Type} {P : α → Prop} {Q : β → Prop} {as : List α}
    {bs : List β} (h : List.Forall₂ (fun a b => P a ↔ Q b) as bs) :
    (∃ a ∈ as, P a) ↔ ∃ b ∈ bs, Q b := by
  induction h with
  | nil => simp
  | cons hab _ ih => simp only [List.exists_mem_cons_iff, hab, ih]

variable {o : Options} {resolve : Resolver}

theorem typeOf_eq_ok_iff {f : String} {type : FieldType} :
    resolve.typeOf f = .ok type ↔ resolve f = .ok type := by
  unfold Resolver.typeOf
  cases h : resolve f with
  | ok type' => rfl
  | error err => cases err <;> simp

namespace Lowered

variable {f : String} {type : FieldType} {value : Literal} {l : Lowered}

/-- The comparisons that have a query: equality, its negation, and one bound that has an order. -/
theorem comparison_eq_ok {op : Comparison} (h : comparison o f type op value = .ok l) :
    (op = .eq ∧ l = equality o f type value) ∨
    (op = .ne ∧ l = (equality o f type value).negate o [f]) ∨
    (∃ bounds, bounds? op value = some bounds ∧ value.kind ≠ .boolean ∧
      l = { query := .range f bounds, notes := [] }) := by
  unfold comparison at h
  cases hb : bounds? op value with
  | none =>
    simp only [hb, Except.ok.injEq] at h
    cases op <;> simp_all [bounds?, negateIf]
  | some bounds =>
    simp only [hb] at h
    split at h
    · cases h
    · next hkind => exact .inr (.inr ⟨bounds, rfl, hkind, (Except.ok.inj h).symm⟩)

end Lowered

namespace Expression

/-- Induction over a condition: what holds of all operands of a connective holds of it. -/
@[elab_as_elim, induction_eliminator]
theorem induction {motive : Expression → Prop}
    (literal : ∀ value, motive (.literal value))
    (field : ∀ name, motive (.field name))
    (compare : ∀ f op operand, motive operand → motive (.compare f op operand))
    (between : ∀ f low high negated, motive (.between f low high negated))
    (among : ∀ f values negated, motive (.among f values negated))
    (like : ∀ f pattern, motive (.like f pattern))
    (present : ∀ f negated, motive (.present f negated))
    (logical : ∀ op operands, (∀ e ∈ operands, motive e) → motive (.logical op operands))
    (e : Expression) : motive e :=
  @Expression.rec motive (fun es => ∀ e ∈ es, motive e)
    literal field compare between among like present logical
    (List.forall_mem_nil motive) (fun _ _ h hs => List.forall_mem_cons.2 ⟨h, hs⟩) e

theorem operandTests_eq_flatMap (es : List Expression) : operandTests es = es.flatMap tests := by
  induction es with
  | nil => rfl
  | cons e es ih => rw [operandTests, ih, List.flatMap_cons]

theorem forall₂_of_lowerAll {R : Expression → Lowered → Prop} {es : List Expression}
    {ls : List Lowered} (hR : ∀ e ∈ es, ∀ l, e.lower o resolve = .ok l → R e l)
    (h : lowerAll o resolve es = .ok ls) : List.Forall₂ R es ls := by
  induction es generalizing ls with
  | nil =>
    rw [lowerAll] at h
    cases h
    exact .nil
  | cons e es ih =>
    rw [lowerAll] at h
    obtain ⟨l, hl, h⟩ := exists_of_bind_eq_ok h
    obtain ⟨ls', hls, h⟩ := exists_of_bind_eq_ok h
    cases h
    have ⟨he, hes⟩ := List.forall_mem_cons.1 hR
    exact .cons (he l hl) (ih hes hls)

/-- Induction over the conditions that have a query. -/
@[elab_as_elim]
theorem lower_induction {motive : Expression → Lowered → Prop}
    (compare : ∀ f type op value l, resolve.typeOf f = .ok type →
      Lowered.comparison o f type op value = .ok l → motive (.compareLiteral f op value) l)
    (between : ∀ f low high negated,
      Lowered.checkBounds (.between f low high negated) low high = .ok () →
      motive (.between f low high negated)
        (Lowered.negateIf o negated f { query := .range f (.closed low high), notes := [] }))
    (among : ∀ f type values negated, resolve.typeOf f = .ok type →
      motive (.among f values negated)
        ((Lowered.membership o f type values).negateIf o negated f))
    (like : ∀ f type pattern, resolve.typeOf f = .ok type → type = .exact ∨ type = .analyzed →
      motive (.like f pattern) { query := .wildcard f (wildcardOfLike pattern), notes := [] })
    (present : ∀ f negated, motive (.present f negated)
      { query := if negated then .missing f else .present f, notes := [] })
    (not : ∀ operand l, motive operand l →
      motive (.not operand) (l.negate o operand.testedFields))
    (and : ∀ operands ls, operands ≠ [] → List.Forall₂ motive operands ls →
      motive (.and operands) (Lowered.conjunction ls))
    (or : ∀ operands ls, operands ≠ [] → List.Forall₂ motive operands ls →
      motive (.or operands) (Lowered.disjunction ls))
    {e : Expression} {l : Lowered} (h : e.lower o resolve = .ok l) : motive e l := by
  induction e generalizing l with
  | literal | field => simp only [lower, reduceCtorEq] at h
  | compare f op operand =>
    obtain ⟨type, htype, h⟩ := exists_of_bind_eq_ok (by simpa only [lower] using h)
    cases operand with
    | literal value => exact compare f type op value l htype h
    | _ => cases h
  | between f low high negated =>
    obtain ⟨type, _, h⟩ := exists_of_bind_eq_ok (by simpa only [lower] using h)
    obtain ⟨_, hbounds, h⟩ := exists_of_bind_eq_ok h
    cases h
    exact between f low high negated hbounds
  | among f values negated =>
    obtain ⟨type, htype, h⟩ := exists_of_bind_eq_ok (by simpa only [lower] using h)
    cases h
    exact among f type values negated htype
  | like f pattern =>
    obtain ⟨type, htype, h⟩ := exists_of_bind_eq_ok (by simpa only [lower] using h)
    cases type with
    | exact => cases h; exact like f _ pattern htype (.inl rfl)
    | analyzed => cases h; exact like f _ pattern htype (.inr rfl)
    | numeric | date => cases h
  | present f negated =>
    obtain ⟨type, _, h⟩ := exists_of_bind_eq_ok (by simpa only [lower] using h)
    cases h
    exact present f negated
  | logical op operands ih =>
    cases op with
    | not =>
      match operands, h with
      | [], h => simp only [lower, reduceCtorEq] at h
      | [operand], h =>
        obtain ⟨l', hl, h⟩ := exists_of_bind_eq_ok (by simpa only [lower] using h)
        cases h
        exact not operand l' (ih operand (List.mem_singleton_self _) hl)
      | _ :: _ :: _, h => simp only [lower, reduceCtorEq] at h
    | and =>
      match operands, h with
      | [], h => simp only [lower, reduceCtorEq] at h
      | operand :: rest, h =>
        obtain ⟨ls, hls, h⟩ := exists_of_bind_eq_ok (by simpa only [lower] using h)
        cases h
        exact and _ ls (List.cons_ne_nil _ _) (forall₂_of_lowerAll (fun e he l => ih e he) hls)
    | or =>
      match operands, h with
      | [], h => simp only [lower, reduceCtorEq] at h
      | operand :: rest, h =>
        obtain ⟨ls, hls, h⟩ := exists_of_bind_eq_ok (by simpa only [lower] using h)
        cases h
        exact or _ ls (List.cons_ne_nil _ _) (forall₂_of_lowerAll (fun e he l => ih e he) hls)

section tests

variable {f : String} {type : FieldType} (h : resolve.typeOf f = .ok type)
include h

theorem lower_compareLiteral (op : Comparison) (value : Literal) :
    (compareLiteral f op value).lower o resolve = Lowered.comparison o f type op value := by
  rw [compareLiteral, lower, h]
  rfl

theorem lower_between {low high : Literal} {negated : Bool}
    (hbounds : Lowered.checkBounds (.between f low high negated) low high = .ok ()) :
    (between f low high negated).lower o resolve =
      .ok (Lowered.negateIf o negated f { query := .range f (.closed low high), notes := [] }) := by
  rw [lower, h, hbounds]
  rfl

theorem lower_among (values : List Literal) (negated : Bool) :
    (among f values negated).lower o resolve =
      .ok ((Lowered.membership o f type values).negateIf o negated f) := by
  rw [lower, h]
  rfl

theorem lower_like (pattern : String) (htext : type = .exact ∨ type = .analyzed) :
    (like f pattern).lower o resolve =
      .ok { query := .wildcard f (wildcardOfLike pattern), notes := [] } := by
  rw [lower, h]
  rcases htext with rfl | rfl <;> rfl

theorem lower_present (negated : Bool) : (present f negated).lower o resolve =
    .ok { query := if negated then .missing f else .present f, notes := [] } := by
  rw [lower, h]
  rfl

end tests

theorem forall_of_forall₂ {motive : Expression → Prop} {es : List Expression} {ls : List Lowered}
    (h : List.Forall₂ (fun e _ => motive e) es ls) : ∀ e ∈ es, motive e := by
  induction h with
  | nil => exact List.forall_mem_nil _
  | cons he _ ih => exact List.forall_mem_cons.2 ⟨he, ih⟩

theorem lower_compare_of_ne_literal {f : String} {op : Comparison} {operand : Expression}
    (h : ∀ value, operand ≠ .literal value) : (compare f op operand).lower o resolve =
      resolve.typeOf f >>= fun _ =>
        .error (.unsupported (.notLiteral (.compare f op operand))) := by
  rw [lower]
  cases operand with
  | literal value => exact (h value rfl).elim
  | _ => rfl

theorem lower_not (e : Expression) :
    e.not.lower o resolve = e.lower o resolve >>= fun l => .ok (l.negate o e.testedFields) := by
  rw [Expression.not, lower]
  rfl

end Expression

namespace Lowered

/-- A relation between queries under two options that every way to build a query keeps. -/
structure Congruent (o o' : Options) (R : Lowered → Lowered → Prop) : Prop where
  plain : ∀ q, R { query := q, notes := [] } { query := q, notes := [] }
  equality : ∀ f type value, R (equality o f type value) (equality o' f type value)
  membership : ∀ f type values, R (membership o f type values) (membership o' f type values)
  negate : ∀ fields l l', R l l' → R (l.negate o fields) (l'.negate o' fields)
  conjunction : ∀ ls ls', List.Forall₂ R ls ls' → R (conjunction ls) (conjunction ls')
  disjunction : ∀ ls ls', List.Forall₂ R ls ls' → R (disjunction ls) (disjunction ls')

namespace Congruent

variable {o' : Options} {R : Lowered → Lowered → Prop} {l l' : Lowered} {f : String}

theorem any (o o' : Options) : Congruent o o' fun _ _ => True := by
  constructor <;> intros <;> trivial

theorem negateIf (hR : Congruent o o' R) (negated : Bool) (h : R l l') :
    R (l.negateIf o negated f) (l'.negateIf o' negated f) := by
  cases negated with
  | false => exact h
  | true => exact hR.negate [f] l l' h

theorem comparison (hR : Congruent o o' R) {type : FieldType} {op : Comparison} {value : Literal}
    (h : comparison o f type op value = .ok l) :
    ∃ l', Lowered.comparison o' f type op value = .ok l' ∧ R l l' := by
  obtain ⟨rfl, rfl⟩ | ⟨rfl, rfl⟩ | ⟨bounds, hbounds, hkind, rfl⟩ := comparison_eq_ok h
  · exact ⟨_, rfl, hR.equality f type value⟩
  · exact ⟨_, rfl, hR.negate [f] _ _ (hR.equality f type value)⟩
  · refine ⟨{ query := .range f bounds, notes := [] }, ?_, hR.plain _⟩
    rw [Lowered.comparison, hbounds]
    exact if_neg hkind

end Congruent

end Lowered

namespace Expression

variable {o' : Options} {R : Lowered → Lowered → Prop} {types : String → FieldType}
  {e : Expression} {l : Lowered}

theorem exists_lowerAll_related {es : List Expression} {ls : List Lowered}
    (h : List.Forall₂ (fun e l => ∃ l', e.lower o' resolve = .ok l' ∧ R l l') es ls) :
    ∃ ls', lowerAll o' resolve es = .ok ls' ∧ List.Forall₂ R ls ls' := by
  induction h with
  | nil => exact ⟨[], by rw [lowerAll], .nil⟩
  | cons he _ ih =>
    obtain ⟨l', hl', hrel⟩ := he
    obtain ⟨ls', hls', hrels⟩ := ih
    refine ⟨l' :: ls', ?_, .cons hrel hrels⟩
    rw [lowerAll, hl', hls']
    rfl

/-- A condition that has a query under some options has one under any others, and what every way to
build a query keeps relates the two. -/
theorem exists_lower_related (hR : Lowered.Congruent o o' R)
    (answers : ∀ f, resolve.typeOf f = .ok (types f)) (h : e.lower o resolve = .ok l) :
    ∃ l', e.lower o' resolve = .ok l' ∧ R l l' := by
  refine lower_induction (motive := fun e l => ∃ l', e.lower o' resolve = .ok l' ∧ R l l')
    ?compare ?between ?among ?like ?present ?not ?and ?or h
  case compare =>
    intro f type op value l htype hl
    obtain ⟨l', hl', hrel⟩ := hR.comparison hl
    exact ⟨l', (lower_compareLiteral htype op value).trans hl', hrel⟩
  case between =>
    intro f low high negated hbounds
    exact ⟨_, lower_between (answers f) hbounds, hR.negateIf negated (hR.plain _)⟩
  case among =>
    intro f type values negated htype
    exact ⟨_, lower_among htype values negated, hR.negateIf negated (hR.membership f type values)⟩
  case like =>
    intro f type pattern htype htext
    exact ⟨_, lower_like htype pattern htext, hR.plain _⟩
  case present =>
    intro f negated
    exact ⟨_, lower_present (answers f) negated, hR.plain _⟩
  case not =>
    rintro operand l ⟨l', hl', hrel⟩
    refine ⟨_, ?_, hR.negate operand.testedFields l l' hrel⟩
    rw [lower_not, hl']
    rfl
  case and =>
    intro operands ls hne ih
    obtain ⟨ls', hls', hrel⟩ := exists_lowerAll_related ih
    obtain ⟨operand, rest, rfl⟩ := List.exists_cons_of_ne_nil hne
    refine ⟨_, ?_, hR.conjunction ls ls' hrel⟩
    rw [Expression.and, lower, hls']
    rfl
  case or =>
    intro operands ls hne ih
    obtain ⟨ls', hls', hrel⟩ := exists_lowerAll_related ih
    obtain ⟨operand, rest, rfl⟩ := List.exists_cons_of_ne_nil hne
    refine ⟨_, ?_, hR.disjunction ls ls' hrel⟩
    rw [Expression.or, lower, hls']
    rfl

/-- Whether a condition has a query does not depend on the options. -/
theorem exists_lower (o' : Options) (answers : ∀ f, resolve.typeOf f = .ok (types f))
    (h : e.lower o resolve = .ok l) : ∃ l', e.lower o' resolve = .ok l' := by
  obtain ⟨l', hl', _⟩ := exists_lower_related (Lowered.Congruent.any o o') answers h
  exact ⟨l', hl'⟩

end Expression

end SearchSql
