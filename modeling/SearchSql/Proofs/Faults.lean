import SearchSql.Proofs.Lowering

/-!
Which failure of a condition is reported. Nodes are visited from left to right, each in front of its
operands, and the first one that is at fault decides. The options have no part in it.
-/

namespace SearchSql

theorem error_bind_eq_error_iff {ε α β : Type} {first err : ε} {k : α → Except ε β} :
    Except.error first >>= k = .error err ↔ first = err :=
  ⟨Except.error.inj, congrArg Except.error⟩

theorem map_eq_error_iff {ε α β : Type} {x : Except ε α} {g : α → β} {err : ε} :
    x >>= (fun a => .ok (g a)) = .error err ↔ x = .error err := by
  cases x with
  | error first => rw [error_bind_eq_error_iff, Except.error.injEq]
  | ok a => exact ⟨nofun, nofun⟩

/-- A failure of a resolver that names its field stands, any other is reported with the field. -/
theorem typeOf_eq_error_iff {resolve : Resolver} {f : String} {err : Error} :
    resolve.typeOf f = .error err ↔
      (∃ g message, resolve f = .error (.resolution g message) ∧ err = .resolution g message) ∨
      ∃ cause, resolve f = .error cause ∧ (∀ g message, cause ≠ .resolution g message) ∧
        err = .resolution f cause.message := by
  unfold Resolver.typeOf
  cases resolve f with
  | ok type => simp
  | error cause => cases cause <;> simp [eq_comm]

namespace Expression

mutual

/-- The nodes of a condition, each in front of its operands. -/
def nodes : Expression → List Expression
  | .logical op operands => .logical op operands :: operandNodes operands
  | e => [e]

def operandNodes : List Expression → List Expression
  | [] => []
  | operand :: rest => operand.nodes ++ operandNodes rest

end

/-- The field whose type a test asks for. -/
def typedField? : Expression → Option String
  | .compare f _ _ | .between f _ _ _ | .among f _ _ | .like f _ | .present f _ => some f
  | .literal _ | .field _ | .logical _ _ => none

/-- The tests that have no clause on a field of a type, and why. -/
inductive Unfit (type : FieldType) : Expression → Unsupported → Prop
  | notLiteral {f op operand} : (∀ value, operand ≠ .literal value) →
      Unfit type (.compare f op operand) (.notLiteral (.compare f op operand))
  | unordered {f op b} : op ≠ .eq → op ≠ .ne →
      Unfit type (.compareLiteral f op (.boolean b))
        (.unordered (.compareLiteral f op (.boolean b)))
  | unorderedBound {f low high negated} : low.kind = .boolean ∨ high.kind = .boolean →
      Unfit type (.between f low high negated) (.unordered (.between f low high negated))
  | mixedBounds {f low high negated} : low.kind ≠ .boolean → high.kind ≠ .boolean →
      low.kind.isNumeric ≠ high.kind.isNumeric →
      Unfit type (.between f low high negated) (.mixedBounds (.between f low high negated))
  | likeOnType {f pattern} : type = .numeric ∨ type = .date →
      Unfit type (.like f pattern) (.likeOnType (.like f pattern) f type)

/-- The failure of a node by itself, whatever its operands are. A test fails with the resolver
before it is looked at any further. -/
inductive Fault (resolve : Resolver) : Expression → Error → Prop
  | literal {value} : Fault resolve (.literal value) (.unsupported (.literalAlone value))
  | field {f} : Fault resolve (.field f) (.unsupported (.fieldAlone f))
  | resolution {test f g message} : test.typedField? = some f →
      resolve f = .error (.resolution g message) → Fault resolve test (.resolution g message)
  | resolver {test f err} : test.typedField? = some f → resolve f = .error err →
      (∀ g message, err ≠ .resolution g message) →
      Fault resolve test (.resolution f err.message)
  | unfit {test f type cause} : test.typedField? = some f → resolve f = .ok type →
      Unfit type test cause → Fault resolve test (.unsupported cause)
  | negatedCount {operands} : operands.length ≠ 1 →
      Fault resolve (.logical .not operands) (.unsupported (.negatedCount operands.length))
  | noOperands {op} : op ≠ .not →
      Fault resolve (.logical op []) (.unsupported (.noOperands op))

/-- The failure of the first node that is at fault. -/
inductive FirstFault (resolve : Resolver) : List Expression → Error → Prop
  | here {node rest err} : node.Fault resolve err → FirstFault resolve (node :: rest) err
  | later {node rest err} : (∀ err', ¬ node.Fault resolve err') → FirstFault resolve rest err →
      FirstFault resolve (node :: rest) err

variable {o : Options} {resolve : Resolver} {test node : Expression} {err : Error} {f : String}
  {type : FieldType} {ns ms : List Expression}

theorem nodes_of_typedField? (h : test.typedField? = some f) : test.nodes = [test] := by
  cases test <;> first | rfl | cases h

theorem firstFault_cons : FirstFault resolve (node :: ns) err ↔
    node.Fault resolve err ∨ (∀ err', ¬ node.Fault resolve err') ∧ FirstFault resolve ns err := by
  constructor
  · intro h
    cases h with
    | here hfault => exact .inl hfault
    | later hnone hrest => exact .inr ⟨hnone, hrest⟩
  · rintro (hfault | ⟨hnone, hrest⟩)
    · exact .here hfault
    · exact .later hnone hrest

theorem not_firstFault_nil : ¬ FirstFault resolve [] err := nofun

theorem firstFault_singleton : FirstFault resolve [node] err ↔ node.Fault resolve err := by
  simp [firstFault_cons, not_firstFault_nil]

/-- Nodes that follow are at fault first when none in front of them is at fault at all. -/
theorem firstFault_append : FirstFault resolve (ns ++ ms) err ↔ FirstFault resolve ns err ∨
    (∀ err', ¬ FirstFault resolve ns err') ∧ FirstFault resolve ms err := by
  induction ns with
  | nil => simp [not_firstFault_nil]
  | cons node ns ih =>
    by_cases hnone : ∀ err', ¬ node.Fault resolve err' <;>
      simp [firstFault_cons, ih, hnone]

/-- A run fails as the first node at fault says, and only if there is one. -/
def FailsAt {α : Type} (resolve : Resolver) (ns : List Expression) (x : Except Error α) : Prop :=
  ∀ err, x = .error err ↔ FirstFault resolve ns err

namespace FailsAt

variable {α β : Type} {x : Except Error α} {k : α → Except Error β}

theorem bind (hx : FailsAt resolve ns x) (hk : ∀ a, FailsAt resolve ms (k a)) :
    FailsAt resolve (ns ++ ms) (x >>= k) := by
  intro err
  rw [firstFault_append]
  cases x with
  | error first =>
    have hfirst : FirstFault resolve ns first := (hx first).1 rfl
    have hsome : ¬ ∀ err', ¬ FirstFault resolve ns err' := fun hnone => hnone first hfirst
    simp only [hsome, false_and, or_false, ← hx err, Except.error.injEq, error_bind_eq_error_iff]
  | ok a =>
    have hnone : ∀ err', ¬ FirstFault resolve ns err' := fun err' h => nomatch (hx err').2 h
    simp only [hnone, false_or, not_false_eq_true, implies_true, true_and]
    exact hk a err

theorem map (hx : FailsAt resolve ns x) (g : α → β) :
    FailsAt resolve ns (x >>= fun a => .ok (g a)) := fun err => map_eq_error_iff.trans (hx err)

/-- A node that is at fault fails before any of its operands. -/
theorem here {first : Error} (hnode : ∀ err, node.Fault resolve err ↔ err = first) :
    FailsAt resolve (node :: ns) (Except.error first : Except Error α) := by
  intro err
  simp [firstFault_cons, hnode, eq_comm]

/-- A node that is not at fault leaves the failure to its operands. -/
theorem cons (hnode : ∀ err, ¬ node.Fault resolve err) (hx : FailsAt resolve ns x) :
    FailsAt resolve (node :: ns) x := by
  intro err
  simp [firstFault_cons, hnode, hx err]

end FailsAt

/-- A test fails with the resolver, or else where it has no clause. -/
theorem fault_test (hfield : test.typedField? = some f) : test.Fault resolve err ↔
    resolve.typeOf f = .error err ∨
      ∃ type cause, resolve f = .ok type ∧ Unfit type test cause ∧ err = .unsupported cause := by
  rw [typeOf_eq_error_iff]
  constructor
  · intro h
    cases h with
    | literal | field | negatedCount | noOperands => cases hfield
    | resolution hfield' hresolve =>
      obtain rfl := Option.some.inj (hfield.symm.trans hfield')
      exact .inl (.inl ⟨_, _, hresolve, rfl⟩)
    | resolver hfield' hresolve hother =>
      obtain rfl := Option.some.inj (hfield.symm.trans hfield')
      exact .inl (.inr ⟨_, hresolve, hother, rfl⟩)
    | unfit hfield' hresolve hunfit =>
      obtain rfl := Option.some.inj (hfield.symm.trans hfield')
      exact .inr ⟨_, _, hresolve, hunfit, rfl⟩
  · rintro ((⟨g, message, hresolve, rfl⟩ | ⟨cause, hresolve, hother, rfl⟩) |
      ⟨type, cause, hresolve, hunfit, rfl⟩)
    · exact .resolution hfield hresolve
    · exact .resolver hfield hresolve hother
    · exact .unfit hfield hresolve hunfit

/-- A run that asks for a type and goes on with it fails where the test does. -/
theorem failsAt_test {α : Type} {k : FieldType → Except Error α}
    (hfield : test.typedField? = some f)
    (hk : ∀ type err, k type = .error err ↔
      ∃ cause, Unfit type test cause ∧ err = .unsupported cause) :
    FailsAt resolve test.nodes (resolve.typeOf f >>= k) := by
  intro err
  rw [nodes_of_typedField? hfield, firstFault_singleton, fault_test hfield]
  cases htype : resolve.typeOf f with
  | error first =>
    have hfails : ∀ type, resolve f ≠ .ok type := by
      intro type hresolve
      rw [typeOf_eq_ok_iff.2 hresolve] at htype
      cases htype
    simp [hfails, error_bind_eq_error_iff]
  | ok type =>
    have hresolve : resolve f = .ok type := typeOf_eq_ok_iff.1 htype
    simp only [hresolve, reduceCtorEq, false_or, Except.ok.injEq, exists_and_left, exists_eq_left']
    exact hk type err

/-- A test that has a clause on every type fails only with the resolver. -/
theorem failsAt_answered {α : Type} {g : FieldType → α} (hfield : test.typedField? = some f)
    (hnone : ∀ type cause, ¬ Unfit type test cause) :
    FailsAt resolve test.nodes (resolve.typeOf f >>= fun type => .ok (g type)) := by
  refine failsAt_test hfield fun type err => ?_
  constructor
  · intro h
    cases h
  · rintro ⟨cause, hunfit, _⟩
    exact (hnone type cause hunfit).elim

theorem comparison_eq_error_iff {op : Comparison} {value : Literal} :
    Lowered.comparison o f type op value = .error err ↔
      ∃ cause, Unfit type (.compareLiteral f op value) cause ∧ err = .unsupported cause := by
  constructor
  · intro h
    unfold Lowered.comparison at h
    split at h
    · cases h
    · next hbounds =>
      split at h
      · next hkind =>
        cases h
        cases value <;> cases hkind
        refine ⟨_, .unordered ?_ ?_, rfl⟩ <;>
        · rintro rfl
          cases hbounds
      · cases h
  · rintro ⟨cause, hunfit, rfl⟩
    cases hunfit with
    | notLiteral hoperand => exact (hoperand value rfl).elim
    | unordered heq hne =>
      cases op with
      | eq => exact (heq rfl).elim
      | ne => exact (hne rfl).elim
      | _ => rfl

theorem checkBounds_eq_error_iff {low high : Literal} {negated : Bool} :
    Lowered.checkBounds (.between f low high negated) low high = .error err ↔
      ∃ cause, Unfit type (.between f low high negated) cause ∧ err = .unsupported cause := by
  constructor
  · intro h
    unfold Lowered.checkBounds at h
    split at h
    · next hkind =>
      cases h
      exact ⟨_, .unorderedBound hkind, rfl⟩
    · next hkind =>
      obtain ⟨hlow, hhigh⟩ := not_or.1 hkind
      split at h
      · next hmixed =>
        cases h
        exact ⟨_, .mixedBounds hlow hhigh hmixed, rfl⟩
      · cases h
  · rintro ⟨cause, hunfit, rfl⟩
    unfold Lowered.checkBounds
    cases hunfit with
    | unorderedBound hkind => rw [if_pos hkind]
    | mixedBounds hlow hhigh hmixed =>
      rw [if_neg (not_or.2 ⟨hlow, hhigh⟩), if_pos hmixed]

theorem failsAt_lowerAll {es : List Expression}
    (h : ∀ e ∈ es, FailsAt resolve e.nodes (e.lower o resolve)) :
    FailsAt resolve (operandNodes es) (lowerAll o resolve es) := by
  induction es with
  | nil =>
    intro err
    simp [lowerAll, operandNodes, not_firstFault_nil]
  | cons e es ih =>
    obtain ⟨he, hes⟩ := List.forall_mem_cons.1 h
    rw [lowerAll, operandNodes]
    exact he.bind fun l => (ih hes).map _

theorem fault_literal {value : Literal} :
    (literal value).Fault resolve err ↔ err = .unsupported (.literalAlone value) := by
  constructor
  · intro h
    cases h with
    | literal => rfl
    | resolution hfield | resolver hfield | unfit hfield => cases hfield
  · rintro rfl
    exact .literal

theorem fault_field :
    (field f).Fault resolve err ↔ err = .unsupported (.fieldAlone f) := by
  constructor
  · intro h
    cases h with
    | field => rfl
    | resolution hfield | resolver hfield | unfit hfield => cases hfield
  · rintro rfl
    exact .field

theorem fault_logical {op : Connective} {operands : List Expression} :
    (logical op operands).Fault resolve err ↔
      (op = .not ∧ operands.length ≠ 1 ∧ err = .unsupported (.negatedCount operands.length)) ∨
      (op ≠ .not ∧ operands = [] ∧ err = .unsupported (.noOperands op)) := by
  constructor
  · intro h
    cases h with
    | resolution hfield | resolver hfield | unfit hfield => cases hfield
    | negatedCount hlength => exact .inl ⟨rfl, hlength, rfl⟩
    | noOperands hop => exact .inr ⟨hop, rfl, rfl⟩
  · rintro (⟨rfl, hlength, rfl⟩ | ⟨hop, rfl, rfl⟩)
    · exact .negatedCount hlength
    · exact .noOperands hop

/-- A connective with the operands that it needs fails where they do. -/
theorem failsAt_logical (op : Connective) {operands : List Expression}
    (h : ∀ e ∈ operands, FailsAt resolve e.nodes (e.lower o resolve)) :
    FailsAt resolve (logical op operands).nodes ((logical op operands).lower o resolve) := by
  have hall := failsAt_lowerAll h
  rw [nodes]
  cases op with
  | not =>
    obtain _ | ⟨e, _ | ⟨e', rest⟩⟩ := operands
    · rw [lower]
      · exact .here (by simp [fault_logical])
      · simp
    · have he := h e (List.mem_singleton_self e)
      change FailsAt resolve _ (e.not.lower o resolve)
      rw [lower_not, operandNodes, operandNodes, List.append_nil]
      exact (he.map _).cons (by simp [fault_logical])
    · rw [lower]
      · exact .here (by simp [fault_logical])
      · simp
  | and | or =>
    cases operands with
    | nil =>
      rw [lower]
      · exact .here (by simp [fault_logical])
      all_goals simp
    | cons e rest =>
      rw [lower]
      exact (hall.map _).cons (by simp [fault_logical])

theorem failsAt_compare (f : String) (op : Comparison) (operand : Expression) :
    FailsAt resolve (compare f op operand).nodes ((compare f op operand).lower o resolve) := by
  by_cases hliteral : ∃ value, operand = .literal value
  · obtain ⟨value, rfl⟩ := hliteral
    rw [lower]
    exact failsAt_test rfl fun type err => comparison_eq_error_iff
  · simp only [not_exists] at hliteral
    rw [lower_compare_of_ne_literal hliteral]
    refine failsAt_test rfl fun type err => ?_
    constructor
    · rintro ⟨⟩
      exact ⟨_, .notLiteral hliteral, rfl⟩
    · rintro ⟨cause, hunfit, rfl⟩
      cases hunfit with
      | notLiteral => rfl
      | unordered => exact (hliteral _ rfl).elim

theorem failsAt_like (f pattern : String) :
    FailsAt resolve (like f pattern).nodes ((like f pattern).lower o resolve) := by
  rw [lower]
  refine failsAt_test rfl fun type err => ?_
  constructor
  · intro h
    cases type with
    | exact | analyzed => cases h
    | numeric =>
      cases h
      exact ⟨_, .likeOnType (.inl rfl), rfl⟩
    | date =>
      cases h
      exact ⟨_, .likeOnType (.inr rfl), rfl⟩
  · rintro ⟨cause, hunfit, rfl⟩
    cases hunfit with
    | likeOnType htype => rcases htype with rfl | rfl <;> rfl

theorem failsAt_lower (o : Options) (resolve : Resolver) (e : Expression) :
    FailsAt resolve e.nodes (e.lower o resolve) := by
  induction e with
  | literal value =>
    rw [lower]
    exact .here fun err => fault_literal
  | field f =>
    rw [lower]
    exact .here fun err => fault_field
  | compare f op operand => exact failsAt_compare f op operand
  | between f low high negated =>
    rw [lower]
    exact failsAt_test rfl fun type err => map_eq_error_iff.trans checkBounds_eq_error_iff
  | among f values negated =>
    rw [lower]
    refine failsAt_answered rfl fun type cause h => ?_
    cases h
  | like f pattern => exact failsAt_like f pattern
  | present f negated =>
    rw [lower]
    refine failsAt_answered rfl fun type cause h => ?_
    cases h
  | logical op operands ih => exact failsAt_logical op ih

/-- A condition has no query exactly when some node is at fault, and the failure is that of the
first one, whatever the options are. -/
theorem compile_fails_at_first_fault (resolve : Resolver) (e : Expression) :
    (∀ o o' err, e.compile o resolve = .error err ↔ e.compile o' resolve = .error err) ∧
    ∀ o err, e.compile o resolve = .error err ↔ FirstFault resolve e.nodes err := by
  have hfails : ∀ o, FailsAt resolve e.nodes (e.compile o resolve) :=
    fun o => (failsAt_lower o resolve e).map _
  exact ⟨fun o o' err => (hfails o err).trans (hfails o' err).symm, hfails⟩

/-- A field without a type stands in front of an OR that has no operands. -/
example :
    let resolve : Resolver := fun f => if f = "b" then .error .json else .ok .numeric
    let e : Expression := .and [.compareLiteral "a" .gt (.integer 1), .not (.like "b" "x%"), .or []]
    e.compile Options.default resolve = .error (.resolution "b" "JSON error") := rfl

end Expression

end SearchSql
