import SearchSql.Query.Basic
import SearchSql.Query.Options
import SearchSql.Schema.Basic

/-!
Queries of conditions. Every leaf of a condition becomes one clause, whose kind depends on the type
of the field, and connectives become `bool` clauses.
-/

namespace SearchSql

/-- A character of a LIKE pattern as a wildcard pattern has it. The percent sign is the only
wildcard of LIKE. -/
def wildcardChars (c : Char) : List Char :=
  if c = '%' then ['*']
  else if c = '*' ∨ c = '?' ∨ c = '\\' then ['\\', c]
  else [c]

/-- The wildcard pattern of a LIKE pattern. -/
def wildcardOfLike (pattern : String) : String :=
  String.ofList (pattern.toList.flatMap wildcardChars)

/-- A query, with a note for each place that made one. -/
structure Lowered where
  query : Query
  notes : List Note

namespace Lowered

/-- The equality of analyzed text with a value. -/
def textMatch (mode : TextEquality) (field : String) (value : Literal) : Query :=
  match mode with
  | .phrase => .matchPhrase field value
  | .anyWord => .matchAny field value

/-- The equality of a field with a value. -/
def equality (o : Options) (field : String) (type : FieldType) (value : Literal) : Lowered :=
  match type with
  | .analyzed =>
    { query := textMatch o.textEquality field value, notes := [.analyzedEquality field] }
  | .exact | .numeric | .date => { query := .term field value, notes := [] }

/-- The equality of a field with one of several values. Analyzed text is matched with each. -/
def membership (o : Options) (field : String) (type : FieldType) (values : List Literal) :
    Lowered :=
  match type with
  | .analyzed =>
    { query := .anyOf (values.map (textMatch o.textEquality field))
      notes := values.map fun _ => .analyzedEquality field }
  | .exact | .numeric | .date => { query := .terms field values, notes := [] }

/-- The negation of a test of some fields. -/
def negate (o : Options) (fields : List String) (l : Lowered) : Lowered :=
  if fields = [] then { l with query := .excluding l.query }
  else match o.negation with
    | .mustNot =>
      { query := .excluding l.query, notes := l.notes ++ fields.map .missingField }
    | .requireField =>
      { l with query := .bool [] (fields.map .present) [] [l.query] none }

/-- The test of a field, negated from within or not. -/
def negateIf (o : Options) (negated : Bool) (field : String) (l : Lowered) : Lowered :=
  if negated then l.negate o [field] else l

/-- The bounds of a comparison that orders; none for equality. -/
def bounds? (op : Comparison) (value : Literal) : Option Bounds :=
  match op with
  | .eq | .ne => none
  | .gt => some { Bounds.unbounded with gt := some value }
  | .ge => some { Bounds.unbounded with gte := some value }
  | .lt => some { Bounds.unbounded with lt := some value }
  | .le => some { Bounds.unbounded with lte := some value }

/-- The comparison of a field with a value. Booleans have no order. -/
def comparison (o : Options) (field : String) (type : FieldType) (op : Comparison)
    (value : Literal) : Except Error Lowered :=
  match bounds? op value with
  | none => .ok ((equality o field type value).negateIf o (op == .ne) field)
  | some bounds =>
    if value.kind = .boolean then
      .error (.unsupported (.unordered (.compareLiteral field op value)))
    else .ok { query := .range field bounds, notes := [] }

/-- The bounds of a BETWEEN are two numbers or two texts. -/
def checkBounds (condition : Expression) (low high : Literal) : Except Error Unit :=
  if low.kind = .boolean ∨ high.kind = .boolean then .error (.unsupported (.unordered condition))
  else if low.kind.isNumeric ≠ high.kind.isNumeric then
    .error (.unsupported (.mixedBounds condition))
  else .ok ()

/-- All queries together: scored clauses stay scored. -/
def conjunction (ls : List Lowered) : Lowered :=
  let queries := ls.map Lowered.query
  { query := .bool (queries.filter Query.isScored) (queries.filter fun q => !q.isScored) [] [] none
    notes := ls.flatMap Lowered.notes }

/-- At least one of the queries. -/
def disjunction (ls : List Lowered) : Lowered :=
  { query := .anyOf (ls.map Lowered.query), notes := ls.flatMap Lowered.notes }

end Lowered

/-- The type of a field. Failures of the resolver name the field. -/
def Resolver.typeOf (resolve : Resolver) (field : String) : Except Error FieldType :=
  match resolve field with
  | .ok type => .ok type
  | .error (.resolution failed message) => .error (.resolution failed message)
  | .error other => .error (.resolution field other.message)

namespace Expression

mutual

/-- The fields whose values a condition tests, with repetitions. A test of presence decides on
missing fields by itself and does not count. -/
def tests : Expression → List String
  | .compare f _ _ | .between f _ _ _ | .among f _ _ | .like f _ => [f]
  | .logical _ operands => operandTests operands
  | .literal _ | .field _ | .present _ _ => []

def operandTests : List Expression → List String
  | [] => []
  | operand :: rest => operand.tests ++ operandTests rest

end

/-- The fields whose values a condition tests, each once. -/
def testedFields (e : Expression) : List String := e.tests.eraseDups

mutual

/-- The query of a condition. The first failure from left to right is reported. -/
def lower (o : Options) (resolve : Resolver) : Expression → Except Error Lowered
  | .literal value => .error (.unsupported (.literalAlone value))
  | .field f => .error (.unsupported (.fieldAlone f))
  | .compare f op operand => do
    let type ← resolve.typeOf f
    match operand with
    | .literal value => Lowered.comparison o f type op value
    | other => .error (.unsupported (.notLiteral (.compare f op other)))
  | .between f low high negated => do
    let _ ← resolve.typeOf f
    Lowered.checkBounds (.between f low high negated) low high
    return Lowered.negateIf o negated f { query := .range f (.closed low high), notes := [] }
  | .among f values negated => do
    let type ← resolve.typeOf f
    return (Lowered.membership o f type values).negateIf o negated f
  | .like f pattern => do
    match ← resolve.typeOf f with
    | .numeric => .error (.unsupported (.likeOnType (.like f pattern) f .numeric))
    | .date => .error (.unsupported (.likeOnType (.like f pattern) f .date))
    | .exact | .analyzed => return { query := .wildcard f (wildcardOfLike pattern), notes := [] }
  | .present f negated => do
    let _ ← resolve.typeOf f
    return { query := if negated then .missing f else .present f, notes := [] }
  | .logical .not [operand] => do
    let l ← operand.lower o resolve
    return l.negate o operand.testedFields
  | .logical .not operands => .error (.unsupported (.negatedCount operands.length))
  | .logical op [] => .error (.unsupported (.noOperands op))
  | .logical .and (operand :: rest) =>
    return Lowered.conjunction (← lowerAll o resolve (operand :: rest))
  | .logical .or (operand :: rest) =>
    return Lowered.disjunction (← lowerAll o resolve (operand :: rest))

def lowerAll (o : Options) (resolve : Resolver) : List Expression → Except Error (List Lowered)
  | [] => .ok []
  | operand :: rest => do
    let l ← operand.lower o resolve
    let ls ← lowerAll o resolve rest
    return l :: ls

end

/-- The query of a condition with its notes, each once and in the order in which they arise. -/
def compile (o : Options) (resolve : Resolver) (e : Expression) : Except Error Lowered := do
  let l ← e.lower o resolve
  return { l with notes := l.notes.eraseDups }

end Expression

end SearchSql
