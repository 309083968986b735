import SearchSql.Proofs.Parsing.Terminals
import SearchSql.Token.Basic

/-!
The grammar of statements: which tokens stand for which statement. Nothing here looks ahead or
chooses; a phrase is put together from the phrases of its parts.
-/

namespace SearchSql.Grammar

/-- `value`: a text, a boolean, or a number. A number with a point is a decimal, and any other one
has to fit a signed word. -/
inductive Value : Token → Literal → Prop
  | text {t} : t.kind = .text → Value t (.text t.text)
  | true {t} : t.kind = .keyword .true → Value t (.boolean true)
  | false {t} : t.kind = .keyword .false → Value t (.boolean false)
  | decimal {t x} : t.kind = .number → Fractional t.text.toList x → Value t (.decimal x)
  | integer {t n} : t.kind = .number → Integer t.text.toList n →
      -0x8000000000000000 ≤ n ∧ n < 0x8000000000000000 → Value t (.integer n)

theorem Value.kind {t : Token} {value : Literal} (h : Value t value) :
    t.kind = .text ∨ t.kind = .keyword .true ∨ t.kind = .keyword .false ∨ t.kind = .number := by
  cases h <;> simp [*]

/-- `[token]`: a token of a kind or nothing, and whether it is there. -/
inductive Optional (kind : TokenKind) : List Token → Bool → Prop
  | absent : Optional kind [] false
  | present {t} : t.kind = kind → Optional kind [t] true

/-- `phrase (token phrase)*`: one or more phrases, with a token of a kind between them. -/
inductive Separated {α : Type} (kind : TokenKind) (P : List Token → α → Prop) :
    List Token → List α → Prop
  | one {ts a} : P ts a → Separated kind P ts [a]
  | more {ts a t rest as} : P ts a → t.kind = kind → Separated kind P rest as →
      Separated kind P (ts ++ t :: rest) (a :: as)

theorem Separated.start {α : Type} {kind : TokenKind} {P : List Token → α → Prop}
    {Q : Token → Prop} {ts : List Token} {as : List α} (h : Separated kind P ts as)
    (hstart : ∀ {ts a}, P ts a → ∃ t rest, ts = t :: rest ∧ Q t) :
    ∃ t rest, ts = t :: rest ∧ Q t := by
  cases h with
  | one hp => exact hstart hp
  | more hp =>
    obtain ⟨t, rest, rfl, ht⟩ := hstart hp
    exact ⟨t, _, rfl, ht⟩

theorem Separated.ne_nil {α : Type} {kind : TokenKind} {P : List Token → α → Prop}
    {ts : List Token} {as : List α} (h : Separated kind P ts as) : as ≠ [] := by
  cases h <;> exact List.cons_ne_nil _ _

theorem Separated.exists_of_mem {α : Type} {kind : TokenKind} {P : List Token → α → Prop}
    {ts : List Token} {as : List α} (h : Separated kind P ts as) : ∀ a ∈ as, ∃ ts, P ts a := by
  induction h with
  | one hp =>
    intro a ha
    rw [List.mem_singleton] at ha
    exact ⟨_, ha ▸ hp⟩
  | more hp _ _ ih => exact List.forall_mem_cons.2 ⟨⟨_, hp⟩, ih⟩

/-- `predicate`: a condition on one field. With the literal in front, the comparison is turned
around. -/
inductive Predicate : List Token → Expression → Prop
  | compareField {f c g op} : f.kind = .identifier → c.kind = .operator op →
      g.kind = .identifier → Predicate [f, c, g] (.compare f.text op (.field g.text))
  | compare {f c v op value} : f.kind = .identifier → c.kind = .operator op → Value v value →
      Predicate [f, c, v] (.compare f.text op (.literal value))
  | flipped {v c f op turned value} : Value v value → c.kind = .operator op → Turned op turned →
      f.kind = .identifier → Predicate [v, c, f] (.compare f.text turned (.literal value))
  | between {f nots b l a h negated low high} : f.kind = .identifier →
      Optional (.keyword .not) nots negated → b.kind = .keyword .between → Value l low →
      a.kind = .keyword .and → Value h high →
      Predicate (f :: nots ++ [b, l, a, h]) (.between f.text low high negated)
  | among {f nots i left vs right negated values} : f.kind = .identifier →
      Optional (.keyword .not) nots negated → i.kind = .keyword .in → left.kind = .leftParen →
      Separated .comma (fun ts value => ∃ t, ts = [t] ∧ Value t value) vs values →
      right.kind = .rightParen →
      Predicate (f :: nots ++ i :: left :: vs ++ [right]) (.among f.text values negated)
  | like {f l p} : f.kind = .identifier → l.kind = .keyword .like → p.kind = .text →
      Predicate [f, l, p] (.like f.text p.text)
  | notLike {f n l p} : f.kind = .identifier → n.kind = .keyword .not →
      l.kind = .keyword .like → p.kind = .text →
      Predicate [f, n, l, p] (.logical .not [.like f.text p.text])
  | present {f i nots m required} : f.kind = .identifier → i.kind = .keyword .is →
      Optional (.keyword .not) nots required →
      m.kind = .keyword .miss ∨ m.kind = .keyword .null →
      Predicate (f :: i :: nots ++ [m]) (.present f.text !required)

theorem Predicate.start {ts : List Token} {e : Expression} (h : Predicate ts e) :
    ∃ t rest, ts = t :: rest ∧ (t.kind = .identifier ∨ ∃ value, Value t value) := by
  cases h with
  | flipped hv => exact ⟨_, _, rfl, .inr ⟨_, hv⟩⟩
  | _ => exact ⟨_, _, rfl, .inl ‹_›⟩

/-- What a run of operands stands for: a single one for itself, more for one node. -/
inductive Joined (op : Connective) : List Expression → Expression → Prop
  | one {e} : Joined op [e] e
  | run {e e' es} : Joined op (e :: e' :: es) (.logical op (e :: e' :: es))

mutual

/-- `and_expr (OR and_expr)*`: the operands of `or_expr`. -/
inductive Disjuncts : List Token → List Expression → Prop
  | one {ts es e} : Conjuncts ts es → Joined .and es e → Disjuncts ts [e]
  | more {ts es e t rest ds} : Conjuncts ts es → Joined .and es e → t.kind = .keyword .or →
      Disjuncts rest ds → Disjuncts (ts ++ t :: rest) (e :: ds)

/-- `not_expr (AND not_expr)*`: the operands of `and_expr`. -/
inductive Conjuncts : List Token → List Expression → Prop
  | one {ts e} : Negated ts e → Conjuncts ts [e]
  | more {ts e t rest es} : Negated ts e → t.kind = .keyword .and → Conjuncts rest es →
      Conjuncts (ts ++ t :: rest) (e :: es)

/-- `not_expr := NOT not_expr | primary` -/
inductive Negated : List Token → Expression → Prop
  | not {t ts e} : t.kind = .keyword .not → Negated ts e →
      Negated (t :: ts) (.logical .not [e])
  | primary {ts e} : Primary ts e → Negated ts e

/-- `primary := ( or_expr ) | predicate`. Parentheses leave no node. -/
inductive Primary : List Token → Expression → Prop
  | parens {left ts right es e} : left.kind = .leftParen → Disjuncts ts es → Joined .or es e →
      right.kind = .rightParen → Primary (left :: ts ++ [right]) e
  | predicate {ts e} : Predicate ts e → Primary ts e

end

/-- `or_expr` -/
inductive Condition : List Token → Expression → Prop
  | mk {ts es e} : Disjuncts ts es → Joined .or es e → Condition ts e

/-- What holds of conditions on one field, and of negations and runs of conditions of which it
holds, holds of every condition. -/
theorem Condition.induction {motive : Expression → Prop} {ts : List Token} {e : Expression}
    (h : Condition ts e) (predicate : ∀ {ts e}, Predicate ts e → motive e)
    (not : ∀ {e}, motive e → motive e.not)
    (run : ∀ {op es e}, op ≠ .not → Joined op es e → (∀ e ∈ es, motive e) → motive e) :
    motive e := by
  obtain ⟨hdisjuncts, hjoined⟩ := h
  refine run (by simp) hjoined ?_
  refine @Disjuncts.rec (fun _ es _ => ∀ e ∈ es, motive e) (fun _ es _ => ∀ e ∈ es, motive e)
    (fun _ e _ => motive e) (fun _ e _ => motive e) ?oneDisjunct ?moreDisjuncts ?oneConjunct
    ?moreConjuncts ?negation ?primary ?parens ?predicate _ _ hdisjuncts
  case oneDisjunct =>
    intro ts es e _ hjoined hes
    exact List.forall_mem_singleton.2 (run (by simp) hjoined hes)
  case moreDisjuncts =>
    intro ts es e t rest ds _ hjoined _ _ hes hds
    exact List.forall_mem_cons.2 ⟨run (by simp) hjoined hes, hds⟩
  case oneConjunct =>
    intro ts e _ he
    exact List.forall_mem_singleton.2 he
  case moreConjuncts =>
    intro ts e t rest es _ _ _ he hes
    exact List.forall_mem_cons.2 ⟨he, hes⟩
  case negation =>
    intro t ts e _ _ he
    exact not he
  case primary =>
    intro ts e _ he
    exact he
  case parens =>
    intro left ts right es e _ _ hjoined _ hes
    exact run (by simp) hjoined hes
  case predicate =>
    intro ts e hpredicate
    exact predicate hpredicate

/-- `item := ident | FUNC ( * | ident )`. Only COUNT takes a star. -/
inductive Item : List Token → SelectItem → Prop
  | field {n} : n.kind = .identifier → Item [n] (.field n.text)
  | aggregate {n left f right metric} : n.kind = .identifier → FunctionName n.text metric →
      left.kind = .leftParen → f.kind = .identifier → right.kind = .rightParen →
      Item [n, left, f, right] (.aggregate ⟨metric, some f.text⟩)
  | count {n left star right} : n.kind = .identifier → FunctionName n.text .count →
      left.kind = .leftParen → star.kind = .star → right.kind = .rightParen →
      Item [n, left, star, right] (.aggregate ⟨.count, none⟩)

theorem Item.start {ts : List Token} {item : SelectItem} (h : Item ts item) :
    ∃ n rest, ts = n :: rest ∧ n.kind = .identifier := by
  cases h <;> exact ⟨_, _, rfl, ‹_›⟩

/-- `projection := * | item (, item)*` -/
inductive Projection : List Token → List SelectItem → Prop
  | star {t} : t.kind = .star → Projection [t] [.star]
  | items {ts items} : Separated .comma Item ts items → Projection ts items

/-- `ident [/ ident]` -/
inductive Source : List Token → Target → Prop
  | index {n} : n.kind = .identifier → Source [n] ⟨n.text, none⟩
  | typed {n slash t} : n.kind = .identifier → slash.kind = .slash → t.kind = .identifier →
      Source [n, slash, t] ⟨n.text, some t.text⟩

/-- `[WHERE or_expr]` -/
inductive Where : List Token → Option Expression → Prop
  | absent : Where [] none
  | present {t ts e} : t.kind = .keyword .where → Condition ts e → Where (t :: ts) (some e)

/-- `order := ident [ASC | DESC]` -/
inductive Key : List Token → SortKey → Prop
  | ascending {n asc marked} : n.kind = .identifier → Optional (.keyword .asc) asc marked →
      Key (n :: asc) ⟨n.text, .ascending⟩
  | descending {n d} : n.kind = .identifier → d.kind = .keyword .desc →
      Key [n, d] ⟨n.text, .descending⟩

/-- `[ORDER BY order (, order)*]` -/
inductive Order : List Token → List SortKey → Prop
  | absent : Order [] []
  | present {o b ts keys} : o.kind = .keyword .order → b.kind = .keyword .by →
      Separated .comma Key ts keys → Order (o :: b :: ts) keys

/-- A count of hits, which has to fit an unsigned word. -/
inductive Count : Token → Nat → Prop
  | mk {t n} : t.kind = .number → Natural t.text.toList n → n < 0x10000000000000000 → Count t n

theorem count_iff {t : Token} {n : Nat} :
    Count t n ↔ t.kind = .number ∧ Decimal.uint64? t.text = some n := by
  rw [← natural_iff]
  constructor
  · rintro ⟨hkind, hn, hfits⟩
    exact ⟨hkind, hn, hfits⟩
  · rintro ⟨hkind, hn, hfits⟩
    exact .mk hkind hn hfits

/-- `[LIMIT n [, n]]`: the offset and the limit. Of two counts the first one is the offset. -/
inductive Window : List Token → Option Nat → Option Nat → Prop
  | absent : Window [] none none
  | limit {l t n} : l.kind = .keyword .limit → Count t n → Window [l, t] none (some n)
  | offset {l t comma t' m n} : l.kind = .keyword .limit → Count t m → comma.kind = .comma →
      Count t' n → Window [l, t, comma, t'] (some m) (some n)

/-- `SELECT projection FROM sources [WHERE or_expr] [ORDER BY …] [LIMIT …] [;]` -/
inductive Sentence : List Token → Statement → Prop
  | mk {select ps from_ ts ws os ls end_ closed projection targets condition order offset limit} :
      select.kind = .keyword .select → Projection ps projection → from_.kind = .keyword .from →
      Separated .comma Source ts targets → Where ws condition → Order os order →
      Window ls offset limit → Optional .semicolon end_ closed →
      Sentence (select :: ps ++ from_ :: ts ++ ws ++ os ++ ls ++ end_)
        { projection, targets, condition, order, limit, offset }

end SearchSql.Grammar
