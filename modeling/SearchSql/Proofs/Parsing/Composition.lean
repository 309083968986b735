import SearchSql.Proofs.Parsing.Refusals

/-!
How the reader of statements is composed. Every part of it decides by the next token, of which it
sees the kind and, where the token has a value, the contents.
-/

namespace SearchSql

/-- Tokens that differ in layout at most: in their position, and in how a keyword or an operator is
written. -/
structure Token.Alike (t u : Token) : Prop where
  kind : t.kind = u.kind
  text : t.kind = .identifier ∨ t.kind = .number ∨ t.kind = .text → t.text = u.text

theorem Token.Alike.refl (t : Token) : t.Alike t := ⟨rfl, fun _ => rfl⟩

instance : DecidableRel Token.Alike := fun t u =>
  decidable_of_iff (t.kind = u.kind ∧
      (t.kind = .identifier ∨ t.kind = .number ∨ t.kind = .text → t.text = u.text))
    ⟨fun h => ⟨h.1, h.2⟩, fun h => ⟨h.kind, h.text⟩⟩

/-- The faults of an aggregate, which are reported at its name: it is no function, or one that
takes no star. -/
inductive AggregateFault : String → Prop
  | unknown : AggregateFault "aggregate function (COUNT, SUM, AVG, MIN, MAX)"
  | star {metric : Metric} : metric ≠ .count →
      AggregateFault ("field name inside " ++ metric.name ++ "()")

instance : DecidablePred AggregateFault := fun expected =>
  decidable_of_iff (expected = "aggregate function (COUNT, SUM, AVG, MIN, MAX)" ∨
      ∃ metric ∈ Metric.all, metric ≠ .count ∧
        expected = "field name inside " ++ metric.name ++ "()") <| by
    constructor
    · rintro (rfl | ⟨metric, _, hcount, rfl⟩)
      · exact .unknown
      · exact .star hcount
    · rintro (_ | @⟨metric, hcount⟩)
      · exact .inl rfl
      · exact .inr ⟨metric, by cases metric <;> decide, hcount, rfl⟩

namespace Reader

/-- The readers that are composed of steps, each of which looks at the next token only and does not
tell tokens apart that are alike. Later steps depend on the tokens that earlier ones leave. -/
inductive Composed : {α : Type} → Reader α → List Token → Prop
  | pure {α ts} (a : α) : Composed (pure a) ts
  | refuse {α ts} (expected : String) : Composed (refuse expected : Reader α) ts
  | peek {ts} : Composed peek ts
  | accept {kind ts} : Composed (accept kind) ts
  | takeMap {α ts} {expected : String} {g : Token → Except String α} :
      (∀ t u, t.Alike u → g t = g u) → Composed (takeMap expected g) ts
  | expect {α kind ts} {r : Reader α} : (∀ t mid, ts = t :: mid → Composed r mid) →
      Composed (do let _ ← expect kind; r) ts
  | endOfInput {ts} : Composed endOfInput ts
  | bind {α β ts} {r : Reader α} {f : α → Reader β} : Composed r ts →
      (∀ a mid, Reads r ts a mid → Composed (f a) mid) → Composed (r >>= f) ts
  | checked {α β γ ts} {r : Reader α} {check : α → Except String γ} {f : γ → Reader β} :
      Composed r ts → (∀ a expected, check a = .error expected → AggregateFault expected) →
      (∀ a mid c, Reads r ts a mid → check a = .ok c → Composed (f c) mid) →
      Composed (checked r check f) ts

namespace Composed

variable {α β : Type} {kind : TokenKind} {expected : String} {ts : List Token}

theorem textOf (hkind : kind = .identifier ∨ kind = .number ∨ kind = .text) :
    Composed (textOf kind expected) ts := by
  refine .takeMap fun t u h => ?_
  rw [← h.kind]
  split
  · next ht => rw [h.text (ht ▸ hkind)]
  · rfl

theorem identifier : Composed (identifier expected) ts := textOf (.inl rfl)

/-- A reader that goes on as an optional token tells. -/
theorem accept_bind {g : Bool → Reader α} (hyes : ∀ t mid, ts = t :: mid → Composed (g true) mid)
    (hno : Composed (g false) ts) : Composed (Reader.accept kind >>= g) ts := by
  refine .bind .accept fun accepted mid h => ?_
  cases accepted with
  | true =>
    obtain ⟨t, _, rfl⟩ := reads_accept_true.1 h
    exact hyes t mid rfl
  | false =>
    obtain ⟨_, rfl⟩ := reads_accept_false.1 h
    exact hno

theorem run {item : Reader α} {more : Reader (List β)} {g : α → β} (hitem : Composed item ts)
    (hmore : ∀ a t mid, Reads item ts a (t :: mid) → Composed more mid) :
    Composed (run kind item more g) ts := by
  rw [run_eq_bind]
  refine .bind hitem fun a mid ha => ?_
  refine accept_bind (fun t rest hmid => ?_) (.pure _)
  subst hmid
  exact .bind (hmore a t rest ha) fun others _ _ => .pure _

theorem separated {item : Reader α} (hitem : ∀ ts, Composed item ts) (ts : List Token) :
    Composed (separated item) ts := by
  rw [separated_eq_run]
  refine run (hitem ts) fun a t mid ha => ?_
  have hlength := ha.length_le
  exact separated hitem mid
termination_by ts.length
decreasing_by
  rw [List.length_cons] at hlength
  omega

end Composed

end Reader

open Reader

theorem Literal.ofToken_eq_of_alike {expected : String} {t u : Token} (h : t.Alike u) :
    ofToken expected t = ofToken expected u := by
  unfold ofToken
  rw [← h.kind]
  cases hkind : t.kind with
  | number | text => simp only [h.text (by simp [hkind])]
  | keyword k => cases k <;> rfl
  | _ => rfl

theorem Literal.composed_reader (expected : String) (ts : List Token) :
    Composed (Literal.reader expected) ts :=
  .takeMap fun _ _ => ofToken_eq_of_alike

namespace Expression

variable {f : String} {negated : Bool}

theorem composed_between (ts : List Token) : Composed (readBetween f negated) ts := by
  refine .bind (Literal.composed_reader _ _) fun low mid _ => ?_
  refine .expect fun a rest _ => ?_
  exact .bind (Literal.composed_reader _ _) fun high _ _ => .pure _

theorem composed_among (ts : List Token) : Composed (readAmong f negated) ts := by
  refine .expect fun left mid _ => ?_
  refine .bind (.separated (Literal.composed_reader _) _) fun values rest _ => ?_
  exact .expect fun right _ _ => .pure _

theorem composed_like (ts : List Token) : Composed (readLike f) ts :=
  .bind (.textOf (.inr (.inr rfl))) fun _ _ _ => .pure _

theorem composed_operand (ts : List Token) : Composed readOperand ts := by
  refine .bind .peek fun kind mid _ => ?_
  split
  · exact .bind .identifier fun _ _ _ => .pure _
  · exact .bind (Literal.composed_reader _ _) fun _ _ _ => .pure _

theorem composed_negatedTest (ts : List Token) : Composed (readNegatedTest f) ts := by
  refine .accept_bind (fun _ mid _ => composed_between mid) ?_
  refine .accept_bind (fun _ mid _ => composed_among mid) ?_
  refine .accept_bind (fun _ mid _ => ?_) (.refuse _)
  exact .bind (composed_like mid) fun _ _ _ => .pure _

theorem composed_presence (ts : List Token) : Composed (readPresence f) ts := by
  refine .bind .accept fun required mid _ => ?_
  refine .accept_bind (fun _ _ _ => .pure _) ?_
  exact .accept_bind (fun _ _ _ => .pure _) (.refuse _)

theorem composed_test (ts : List Token) : Composed (readTest f) ts := by
  refine .bind (.takeMap fun t u h => by rw [h.kind]) fun word mid _ => ?_
  cases word with
  | operator op => exact .bind (composed_operand mid) fun _ _ _ => .pure _
  | not => exact composed_negatedTest mid
  | between => exact composed_between mid
  | among => exact composed_among mid
  | like => exact composed_like mid
  | is => exact composed_presence mid

theorem composed_simple (ts : List Token) : Composed readSimple ts := by
  refine .bind .peek fun kind mid _ => ?_
  split
  · exact .refuse _
  · exact .bind .identifier fun f rest _ => composed_test rest
  · refine .bind (Literal.composed_reader _ _) fun value rest _ => ?_
    refine .bind (.takeMap fun t u h => by rw [h.kind]) fun op rest _ => ?_
    exact .bind .identifier fun _ _ _ => .pure _

mutual

theorem composed_disjuncts (ts : List Token) : Composed readDisjuncts ts := by
  rw [readDisjuncts_eq_run]
  refine .run (composed_conjuncts ts) fun es t mid h => ?_
  have hlength := h.length_le
  exact composed_disjuncts mid
termination_by (ts.length, 3)
decreasing_by
  · simp [Prod.lex_def]
  · simp only [List.length_cons] at hlength
    simp only [Prod.lex_def]
    omega

theorem composed_conjuncts (ts : List Token) : Composed readConjuncts ts := by
  rw [readConjuncts_eq_run]
  refine .run (composed_negation ts) fun e t mid h => ?_
  have hlength := h.length_le
  exact composed_conjuncts mid
termination_by (ts.length, 2)
decreasing_by
  · simp [Prod.lex_def]
  · simp only [List.length_cons] at hlength
    simp only [Prod.lex_def]
    omega

theorem composed_negation (ts : List Token) : Composed readNegation ts := by
  rw [readNegation_eq]
  refine .accept_bind (fun t mid hts => ?_) (composed_primary ts)
  exact .bind (composed_negation mid) fun _ _ _ => .pure _
termination_by (ts.length, 1)
decreasing_by
  · simp [Prod.lex_def, hts]
  · simp [Prod.lex_def]

theorem composed_primary (ts : List Token) : Composed readPrimary ts := by
  rw [readPrimary_eq]
  refine .accept_bind (fun left mid hts => ?_) (composed_simple ts)
  refine .bind (composed_disjuncts mid) fun es rest _ => ?_
  exact .expect fun right _ _ => .pure _
termination_by (ts.length, 0)
decreasing_by simp [Prod.lex_def, hts]

end

theorem composed_reader (ts : List Token) : Composed Expression.reader ts :=
  .bind (composed_disjuncts ts) fun _ _ _ => .pure _

end Expression

namespace Statement

theorem composed_aggregateField (ts : List Token) : Composed readAggregateField ts := by
  refine .accept_bind (fun _ _ _ => .pure _) ?_
  exact .bind .identifier fun _ _ _ => .pure _

/-- The name of an item, and whether a parenthesis follows. -/
def itemHead : Reader (String × Bool) := do
  let name ← identifier "'*', field name or aggregate"
  return (name, ← accept .leftParen)

/-- What an item is of: a field, or the function that is named in front of a parenthesis. -/
def itemKind : String × Bool → Except String (String ⊕ Metric)
  | (name, false) => .ok (.inl name)
  | (name, true) =>
    match Metric.ofName? name with
    | none => .error "aggregate function (COUNT, SUM, AVG, MIN, MAX)"
    | some metric => .ok (.inr metric)

def itemTail : String ⊕ Metric → Reader (String ⊕ Aggregate)
  | .inl name => return .inl name
  | .inr metric => do
    let field ← readAggregateField
    let _ ← expect .rightParen
    return .inr { metric, field }

/-- Only COUNT takes a star. -/
def checkStar : String ⊕ Aggregate → Except String SelectItem
  | .inl name => .ok (.field name)
  | .inr a =>
    if a.field = none ∧ a.metric ≠ .count then
      .error ("field name inside " ++ a.metric.name ++ "()")
    else .ok (.aggregate a)

/-- An item is read with two checks, whose faults are reported at its name. -/
theorem readItem_eq :
    readItem = checked (checked itemHead itemKind itemTail) checkStar pure := by
  funext ts
  rw [checked_apply, bind_apply_congr checked_apply]
  unfold readItem itemHead
  simp only [bind_assoc, pure_bind]
  refine congrFun (congrArg _ (funext fun name => congrArg _ (funext fun paren => ?_))) ts
  cases paren with
  | false => rfl
  | true =>
    simp only [↓reduceIte, itemKind]
    cases Metric.ofName? name with
    | none => rfl
    | some metric =>
      simp only [itemTail, bind_assoc, pure_bind, checkStar]
      refine congrArg _ (funext fun field => congrArg _ (funext fun _ => ?_))
      split <;> rfl

theorem composed_item (ts : List Token) : Composed readItem ts := by
  rw [readItem_eq]
  refine .checked (.checked ?_ ?_ ?_) ?_ fun _ _ _ _ _ => .pure _
  · exact .bind .identifier fun _ _ _ => .bind .accept fun _ _ _ => .pure _
  · rintro ⟨name, paren⟩ expected h
    cases paren with
    | false => cases h
    | true =>
      simp only [itemKind] at h
      split at h
      · cases h
        exact .unknown
      · cases h
  · intro _ mid kind _ _
    cases kind with
    | inl name => exact .pure _
    | inr metric =>
      refine .bind (composed_aggregateField mid) fun field rest _ => ?_
      exact .expect fun _ _ _ => .pure _
  · intro item expected h
    unfold checkStar at h
    split at h
    · cases h
    · split at h
      · next hstar =>
        cases h
        exact .star hstar.2
      · cases h

theorem composed_projection (ts : List Token) : Composed readProjection ts :=
  .accept_bind (fun _ _ _ => .pure _) (.separated composed_item ts)

theorem composed_target (ts : List Token) : Composed readTarget ts := by
  refine .bind .identifier fun index mid _ => ?_
  refine .accept_bind (fun _ rest _ => ?_) (.pure _)
  exact .bind .identifier fun _ _ _ => .pure _

theorem composed_sortKey (ts : List Token) : Composed readSortKey ts := by
  refine .bind .identifier fun field mid _ => ?_
  refine .accept_bind (fun _ _ _ => .pure _) ?_
  exact .bind .accept fun _ _ _ => .pure _

theorem composed_count (ts : List Token) : Composed readCount ts := by
  refine .takeMap fun t u h => ?_
  rw [← h.kind]
  cases hkind : t.kind with
  | number => rw [h.text (.inr (.inl hkind))]
  | _ => rfl

theorem composed_condition (ts : List Token) : Composed readCondition ts := by
  refine .accept_bind (fun _ mid _ => ?_) (.pure _)
  exact .bind (Expression.composed_reader mid) fun _ _ _ => .pure _

theorem composed_order (ts : List Token) : Composed readOrder ts := by
  refine .accept_bind (fun _ mid _ => ?_) (.pure _)
  exact .expect fun _ rest _ => .separated composed_sortKey rest

theorem composed_window (ts : List Token) : Composed readWindow ts := by
  refine .accept_bind (fun _ mid _ => ?_) (.pure _)
  refine .bind (composed_count mid) fun first rest _ => ?_
  refine .accept_bind (fun _ mid _ => ?_) (.pure _)
  exact .bind (composed_count mid) fun _ _ _ => .pure _

theorem composed_reader (ts : List Token) : Composed Statement.reader ts := by
  refine .expect fun _ ts _ => ?_
  refine .bind (composed_projection ts) fun projection ts _ => ?_
  refine .expect fun _ ts _ => ?_
  refine .bind (.separated composed_target ts) fun targets ts _ => ?_
  refine .bind (composed_condition ts) fun condition ts _ => ?_
  refine .bind (composed_order ts) fun order ts _ => ?_
  refine .bind (composed_window ts) fun window ts _ => ?_
  refine .bind .accept fun closed ts _ => ?_
  exact .bind .endOfInput fun _ _ _ => .pure _

end Statement

end SearchSql
