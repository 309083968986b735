import Mathlib
import SearchSql.Proofs.Lowering
import SearchSql.Proofs.Shape
import SearchSql.Request.Compile

/-!
Which statements that a text gives have no request: those with a test that no clause can express,
and those that select fields beside aggregates.
-/

namespace SearchSql

variable {o : Options} {resolve : Resolver} {types : String → FieldType}

namespace Expression

/-- The tests that no clause can express. -/
inductive Refused (types : String → FieldType) : Expression → Prop
  | fields {f op g} : Refused types (.compare f op (.field g))
  | unordered {f op b} : op = .gt ∨ op = .ge ∨ op = .lt ∨ op = .le →
      Refused types (.compareLiteral f op (.boolean b))
  | unorderedBound {f low high negated} : low.kind = .boolean ∨ high.kind = .boolean →
      Refused types (.between f low high negated)
  | mixedBounds {f low high negated} :
      low.kind.isNumeric = true ∧ high.kind = .text ∨
        low.kind = .text ∧ high.kind.isNumeric = true →
      Refused types (.between f low high negated)
  | like {f pattern} : types f = .numeric ∨ types f = .date → Refused types (.like f pattern)

end Expression

/-- The causes for which a statement that a text gives has no request. -/
inductive Unsupported.Arises : Unsupported → Prop
  | notLiteral {e} : Arises (.notLiteral e)
  | unordered {e} : Arises (.unordered e)
  | mixedBounds {e} : Arises (.mixedBounds e)
  | likeOnType {e f type} : Arises (.likeOnType e f type)
  | fieldsWithAggregates {fields} : Arises (.fieldsWithAggregates fields)

/-- There is a result, or one of the tests is refused and the failure has such a cause. -/
def Accounts {α : Type} (types : String → FieldType) (leaves : List Expression)
    (x : Except Error α) : Prop :=
  (∃ a, x = .ok a) ∨
    (∃ leaf ∈ leaves, leaf.Refused types) ∧ ∃ cause, x = .error (.unsupported cause) ∧ cause.Arises

namespace Accounts

variable {α β : Type} {leaves leaves' : List Expression} {x : Except Error α}

theorem bind {f : α → Except Error β} (hx : Accounts types leaves x)
    (hf : ∀ a, Accounts types leaves (f a)) : Accounts types leaves (x >>= f) := by
  obtain ⟨a, rfl⟩ | ⟨hrefused, cause, rfl, harises⟩ := hx
  · exact hf a
  · exact .inr ⟨hrefused, cause, rfl, harises⟩

theorem ok (a : α) : Accounts types leaves (.ok a) := .inl ⟨a, rfl⟩

theorem mono (hx : Accounts types leaves x) (h : leaves ⊆ leaves') : Accounts types leaves' x := by
  obtain hok | ⟨⟨leaf, hmem, hleaf⟩, hcause⟩ := hx
  · exact .inl hok
  · exact .inr ⟨⟨leaf, h hmem, hleaf⟩, hcause⟩

end Accounts

namespace Lowered

variable {f : String} {type : FieldType} {op : Comparison} {low high value : Literal}
  {negated : Bool} {l : Lowered}

/-- A comparison fails where a boolean would have to stand in an order. -/
theorem accounts_comparison :
    Accounts types [.compareLiteral f op value] (comparison o f type op value) := by
  unfold comparison
  cases hbounds : bounds? op value with
  | none => exact .ok _
  | some bounds =>
    dsimp only
    split
    · next hkind =>
      refine .inr ⟨⟨_, List.mem_singleton_self _, ?_⟩, _, rfl, .unordered⟩
      cases value <;> cases hkind
      refine .unordered ?_
      cases op <;> simp [bounds?] at hbounds ⊢
    · exact .ok _

theorem not_refused_of_comparison (h : comparison o f type op value = .ok l) :
    ¬ (Expression.compareLiteral f op value).Refused types := by
  intro hrefused
  cases hrefused with
  | unordered hop =>
    rcases hop with rfl | rfl | rfl | rfl <;> cases h

theorem accounts_checkBounds : Accounts types [.between f low high negated]
    (checkBounds (.between f low high negated) low high) := by
  unfold checkBounds
  split
  · next hkind =>
    exact .inr ⟨⟨_, List.mem_singleton_self _, .unorderedBound hkind⟩, _, rfl, .unordered⟩
  · next hkind =>
    split
    · next hmixed =>
      refine .inr ⟨⟨_, List.mem_singleton_self _, .mixedBounds ?_⟩, _, rfl, .mixedBounds⟩
      cases low <;> cases high <;> simp_all [Literal.kind, LiteralKind.isNumeric]
    · exact .ok _

theorem not_refused_of_checkBounds {e : Expression} (h : checkBounds e low high = .ok ()) :
    ¬ (Expression.between f low high negated).Refused types := by
  intro hrefused
  unfold checkBounds at h
  cases hrefused with
  | unorderedBound hkind =>
    rw [if_pos hkind] at h
    cases h
  | mixedBounds hmixed =>
    cases low <;> cases high <;> simp_all [Literal.kind, LiteralKind.isNumeric]

end Lowered

namespace Expression

variable {e leaf : Expression} {l : Lowered}

theorem accounts_lowerAll {es : List Expression}
    (h : ∀ e ∈ es, Accounts types e.leaves (e.lower o resolve)) :
    Accounts types (es.flatMap leaves) (lowerAll o resolve es) := by
  induction es with
  | nil =>
    rw [lowerAll]
    exact .ok []
  | cons e es ih =>
    obtain ⟨he, hes⟩ := List.forall_mem_cons.1 h
    rw [lowerAll, List.flatMap_cons]
    refine (he.mono (List.subset_append_left _ _)).bind fun l => ?_
    exact ((ih hes).mono (List.subset_append_right _ _)).bind fun ls => .ok _

/-- A condition of regular shape has a query unless one of its tests is refused. -/
theorem accounts_lower (answers : ∀ f, resolve.typeOf f = .ok (types f)) (h : e.Regular) :
    Accounts types e.leaves (e.lower o resolve) := by
  induction h with
  | @compareField f op g =>
    rw [lower, answers f]
    exact .inr ⟨⟨_, List.mem_singleton_self _, .fields⟩, _, rfl, .notLiteral⟩
  | @compare f op value =>
    rw [lower_compareLiteral (answers f)]
    exact Lowered.accounts_comparison
  | @between f low high negated =>
    rw [lower, answers f]
    exact Lowered.accounts_checkBounds.bind fun _ => .ok _
  | @among f values negated _ =>
    rw [lower_among (answers f)]
    exact .ok _
  | @like f pattern =>
    cases htype : types f with
    | exact =>
      rw [lower_like (answers f) pattern (.inl htype)]
      exact .ok _
    | analyzed =>
      rw [lower_like (answers f) pattern (.inr htype)]
      exact .ok _
    | numeric =>
      rw [lower, answers f, htype]
      exact .inr ⟨⟨_, List.mem_singleton_self _, .like (.inl htype)⟩, _, rfl, .likeOnType⟩
    | date =>
      rw [lower, answers f, htype]
      exact .inr ⟨⟨_, List.mem_singleton_self _, .like (.inr htype)⟩, _, rfl, .likeOnType⟩
  | @present f negated =>
    rw [lower_present (answers f)]
    exact .ok _
  | @not e _ ih =>
    have hsubset : e.leaves ⊆ e.not.leaves := fun leaf => mem_leaves_not.2
    rw [Expression.not, lower]
    exact (ih.mono hsubset).bind fun l => .ok _
  | @run op operands hop hne _ ih =>
    have hsubset : operands.flatMap leaves ⊆ (logical op operands).leaves := by
      intro leaf hmem
      exact mem_leaves_logical.2 (List.mem_flatMap.1 hmem)
    have hall := (accounts_lowerAll (o := o) ih).mono hsubset
    obtain ⟨operand, rest, rfl⟩ := List.exists_cons_of_ne_nil hne
    cases op with
    | not => exact (hop rfl).elim
    | and =>
      rw [lower]
      exact hall.bind fun ls => .ok _
    | or =>
      rw [lower]
      exact hall.bind fun ls => .ok _

/-- A condition with a query has no test that is refused. -/
theorem not_refused_of_lower (answers : ∀ f, resolve.typeOf f = .ok (types f))
    (h : e.lower o resolve = .ok l) : ∀ leaf ∈ e.leaves, ¬ leaf.Refused types := by
  refine lower_induction (motive := fun e _ => ∀ leaf ∈ e.leaves, ¬ leaf.Refused types)
    ?compare ?between ?among ?like ?present ?not ?and ?or h
  case compare =>
    intro f type op value l _ hl
    exact List.forall_mem_singleton.2 (Lowered.not_refused_of_comparison hl)
  case between =>
    intro f low high negated hbounds
    exact List.forall_mem_singleton.2 (Lowered.not_refused_of_checkBounds hbounds)
  case among =>
    intro f type values negated _
    exact List.forall_mem_singleton.2 nofun
  case like =>
    intro f type pattern htype htext
    obtain rfl := Except.ok.inj ((answers f).symm.trans htype)
    refine List.forall_mem_singleton.2 fun hrefused => ?_
    cases hrefused with
    | like hnumber => rcases htext with h | h <;> simp [h] at hnumber
  case present =>
    intro f negated
    exact List.forall_mem_singleton.2 nofun
  case not =>
    intro operand l ih leaf hmem
    exact ih leaf (mem_leaves_not.1 hmem)
  case and =>
    intro operands ls _ ih
    exact forall_mem_leaves_logical.2 (forall_of_forall₂ ih)
  case or =>
    intro operands ls _ ih
    exact forall_mem_leaves_logical.2 (forall_of_forall₂ ih)

end Expression

namespace Statement

variable {s : Statement} {sql : String}

/-- The projection holds an aggregate and a field of its own. -/
def MixesAggregates (s : Statement) : Prop :=
  (∃ a, .aggregate a ∈ s.projection) ∧ ∃ f, .field f ∈ s.projection

theorem isAggregate_iff : s.isAggregate = true ↔ ∃ a, .aggregate a ∈ s.projection := by
  rw [isAggregate, List.any_eq_true]
  constructor
  · rintro ⟨item, hmem, hitem⟩
    cases item with
    | aggregate a => exact ⟨a, hmem⟩
    | _ => cases hitem
  · rintro ⟨a, hmem⟩
    exact ⟨_, hmem, rfl⟩

theorem fields_ne_nil_iff : s.fields ≠ [] ↔ ∃ f, .field f ∈ s.projection := by
  rw [fields]
  constructor
  · intro hne
    obtain ⟨f, hf⟩ := List.exists_mem_of_ne_nil _ hne
    obtain ⟨item, hmem, hitem⟩ := List.mem_filterMap.1 hf
    cases item with
    | field name => exact ⟨name, hmem⟩
    | _ => cases hitem
  · rintro ⟨f, hmem⟩
    exact List.ne_nil_of_mem (List.mem_filterMap.2 ⟨_, hmem, rfl⟩)

/-- Whatever the condition is, there is a request unless the projection mixes what it must not. -/
theorem assemble_cases (s : Statement) (condition : Option Query) (notes : List Note) :
    (¬ s.MixesAggregates ∧ ∃ r, s.assemble condition notes = .ok r) ∨
      (s.MixesAggregates ∧ s.assemble condition notes =
        .error (.unsupported (.fieldsWithAggregates s.fields))) := by
  rw [MixesAggregates, ← isAggregate_iff, ← fields_ne_nil_iff]
  unfold assemble
  by_cases haggregate : s.isAggregate = true
  · by_cases hfields : s.fields = []
    · exact .inl ⟨by simp [hfields], by simp [haggregate, hfields]⟩
    · exact .inr ⟨⟨haggregate, hfields⟩, by simp [haggregate, hfields]⟩
  · exact .inl ⟨by simp [haggregate], by simp [haggregate]⟩

/-- Why a statement has no request: a test is refused, or the projection mixes what it must not. -/
def Refused (types : String → FieldType) (s : Statement) : Prop :=
  (∃ e ∈ s.condition, ∃ leaf ∈ e.leaves, leaf.Refused types) ∨ s.MixesAggregates

theorem compile_cases (answers : ∀ f, resolve.typeOf f = .ok (types f))
    (hregular : ∀ e ∈ s.condition, e.Regular) :
    (¬ s.Refused types ∧ ∃ r, s.compile o resolve = .ok r) ∨
      (s.Refused types ∧ ∃ cause, s.compile o resolve = .error (.unsupported cause) ∧
        cause.Arises) := by
  unfold compile Refused
  cases hcondition : s.condition with
  | none =>
    obtain ⟨hmixes, hok⟩ | ⟨hmixes, herror⟩ := s.assemble_cases none []
    · exact .inl ⟨by simp [hmixes], hok⟩
    · exact .inr ⟨.inr hmixes, _, herror, .fieldsWithAggregates⟩
  | some e =>
    obtain ⟨l, hl⟩ | ⟨hrefused, cause, herror, harises⟩ :=
      e.accounts_lower (o := o) answers (hregular e hcondition)
    · have hleaves := e.not_refused_of_lower answers hl
      simp only [Expression.compile, hl]
      obtain ⟨hmixes, hok⟩ | ⟨hmixes, herror⟩ := s.assemble_cases l.query l.notes.eraseDups
      · refine .inl ⟨?_, hok⟩
        simpa [hmixes] using hleaves
      · exact .inr ⟨.inr hmixes, _, herror, .fieldsWithAggregates⟩
    · simp only [Expression.compile, herror]
      exact .inr ⟨.inl ⟨e, rfl, hrefused⟩, cause, rfl, harises⟩

end Statement

/-- A statement that a text gives has no request exactly when a test of its condition compares two
fields, a boolean in an order, unlike bounds or numbers with a pattern, or when its projection mixes
fields with aggregates. No other cause arises. -/
theorem Request.ofText_fails_iff {sql : String} {s : Statement} (hs : Statement.ofText sql = .ok s)
    (answers : ∀ f, resolve f = .ok (types f)) :
    ((∃ err, Request.ofText o resolve sql = .error err) ↔
      (∃ e ∈ s.condition, ∃ leaf ∈ e.leaves, leaf.Refused types) ∨
        ((∃ a, .aggregate a ∈ s.projection) ∧ ∃ f, .field f ∈ s.projection)) ∧
    ∀ err, Request.ofText o resolve sql = .error err → ∃ cause, err = .unsupported cause ∧
      (∀ value, cause ≠ .literalAlone value) ∧ (∀ f, cause ≠ .fieldAlone f) ∧
      (∀ count, cause ≠ .negatedCount count) ∧ ∀ op, cause ≠ .noOperands op := by
  have hcompile : Request.ofText o resolve sql = s.compile o resolve := by
    rw [Request.ofText, hs]
    rfl
  rw [hcompile]
  obtain ⟨hrefused, r, hr⟩ | ⟨hrefused, cause, herror, harises⟩ :=
    Statement.compile_cases (o := o) (fun f => typeOf_eq_ok_iff.2 (answers f))
      (Statement.regular_of_ofText hs)
  · rw [hr]
    exact ⟨⟨nofun, fun h => (hrefused h).elim⟩, nofun⟩
  · rw [herror]
    refine ⟨⟨fun _ => hrefused, fun _ => ⟨_, rfl⟩⟩, ?_⟩
    intro err h
    refine ⟨cause, (Except.error.inj h).symm, ?_⟩
    cases harises <;> simp

/-- A pattern on numbers is refused, however deep it stands. -/
theorem Request.ofText_fails_nested_like :
    let types : String → FieldType := fun f => if f = "b" then .numeric else .exact
    let s : Statement :=
      { projection := [.star], targets := [⟨"i", none⟩],
        condition := some (.not (.or [.compareLiteral "a" .eq (.integer 1), .like "b" "x%"])),
        order := [], limit := none, offset := none }
    Statement.ofText "select * from i where not (a = 1 or b like 'x%')" = .ok s ∧
      ∃ err, Request.ofText Options.default (fun f => .ok (types f))
        "select * from i where not (a = 1 or b like 'x%')" = .error err := by
  intro types s
  have hread : Statement.ofText "select * from i where not (a = 1 or b like 'x%')" = .ok s := by
    cbv
  have answers : ∀ f, (fun f => .ok (types f) : Resolver) f = .ok (types f) := fun _ => rfl
  have hrefused : (Expression.like "b" "x%").Refused types := .like (.inl rfl)
  have hleaf : ∃ leaf ∈ (Expression.not (.or [.compareLiteral "a" .eq (.integer 1),
      .like "b" "x%"])).leaves, leaf.Refused types :=
    ⟨_, List.mem_cons_of_mem _ (List.mem_singleton_self _), hrefused⟩
  exact ⟨hread, (ofText_fails_iff hread answers).1.2 (.inl ⟨_, rfl, hleaf⟩)⟩

end SearchSql
