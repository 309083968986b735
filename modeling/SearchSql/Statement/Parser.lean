import SearchSql.Statement.Reader
import SearchSql.Token.Lexer

/-!
Reading statements. `OR` binds loosest, then `AND`, then `NOT`; parentheses bind tightest and leave
no node of their own.
-/

namespace SearchSql

namespace Literal

/-- The value of a token that stands for one. -/
def ofToken (expected : String) (t : Token) : Except String Literal :=
  match t.kind with
  | .text => .ok (.text t.text)
  | .keyword .true => .ok (.boolean true)
  | .keyword .false => .ok (.boolean false)
  | .number =>
    if t.text.toList.contains '.' then
      match Decimal.double? t.text with
      | some x => .ok (.decimal x)
      | none => .error "decimal number"
    else
      match Decimal.int64? t.text with
      | some n => .ok (.integer n)
      | none => .error "integer within 64-bit range"
  | _ => .error expected

def reader (expected : String) : Reader Literal := Reader.takeMap expected (ofToken expected)

end Literal

namespace Expression

open Reader

/-- The bounds of a range, after BETWEEN. -/
def readBetween (field : String) (negated : Bool) : Reader Expression := do
  let low ← Literal.reader "lower bound"
  let _ ← expect (.keyword .and)
  let high ← Literal.reader "upper bound"
  return .between field low high negated

/-- The values of a set, after IN. -/
def readAmong (field : String) (negated : Bool) : Reader Expression := do
  let _ ← expect .leftParen
  let values ← separated (Literal.reader "literal value")
  let _ ← expect .rightParen
  return .among field values negated

/-- The pattern of a text, after LIKE. -/
def readLike (field : String) : Reader Expression := do
  let pattern ← expect .text
  return .like field pattern

/-- The other operand of a comparison: a field or a literal. -/
def readOperand : Reader Expression := do
  if (← peek) = some .identifier then
    return .field (← identifier "value")
  else
    return .literal (← Literal.reader "literal value or field name")

/-- What follows a field and NOT. -/
def readNegatedTest (field : String) : Reader Expression := do
  if ← accept (.keyword .between) then readBetween field true
  else if ← accept (.keyword .in) then readAmong field true
  else if ← accept (.keyword .like) then return .not (← readLike field)
  else refuse "BETWEEN, IN or LIKE after NOT"

/-- What follows a field and IS. -/
def readPresence (field : String) : Reader Expression := do
  let required ← accept (.keyword .not)
  if ← accept (.keyword .miss) then return .present field !required
  else if ← accept (.keyword .null) then return .present field !required
  else refuse "MISS or NULL"

/-- The kinds of token with which the test of a field starts. -/
inductive TestWord
  | operator (op : Comparison)
  | not
  | between
  | among
  | like
  | is

def TestWord.ofKind? : TokenKind → Option TestWord
  | .operator op => some (.operator op)
  | .keyword .not => some .not
  | .keyword .between => some .between
  | .keyword .in => some .among
  | .keyword .like => some .like
  | .keyword .is => some .is
  | _ => none

def testExpected : String := "comparison operator, BETWEEN, IN, LIKE or IS"

/-- What a condition that starts with a field goes on with. -/
def readTest (field : String) : Reader Expression := do
  let word ← takeMap testExpected fun t =>
    match TestWord.ofKind? t.kind with
    | some word => .ok word
    | none => .error testExpected
  match word with
  | .operator op => return .compare field op (← readOperand)
  | .not => readNegatedTest field
  | .between => readBetween field false
  | .among => readAmong field false
  | .like => readLike field
  | .is => readPresence field

/-- An operator of comparison. -/
def readOperator : Reader Comparison :=
  takeMap "comparison operator" fun t =>
    match t.kind with
    | .operator op => .ok op
    | _ => .error "comparison operator"

/-- A condition on one field. With the literal in front, the comparison is turned around. -/
def readSimple : Reader Expression := do
  match ← peek with
  | none => refuse "predicate"
  | some .identifier => readTest (← identifier "field name")
  | some _ =>
    let value ← Literal.reader "field name, literal or '('"
    let op ← readOperator
    let field ← identifier "field name"
    return compareLiteral field op.flip value

mutual

/-- One or more operands of OR. -/
def readDisjuncts (tokens : List Token) : Except Refusal (Reading (List Expression) tokens) :=
  match readConjuncts tokens with
  | .error refusal => .error refusal
  | .ok first =>
    match _hr : first.rest with
    | [] => .ok ⟨[join .and first.value], [], List.nil_suffix⟩
    | next :: rest =>
      have hs : next :: rest <:+ tokens := _hr ▸ first.suffix
      if next.kind = .keyword .or then
        match readDisjuncts rest with
        | .error refusal => .error refusal
        | .ok others => .ok ⟨join .and first.value :: others.value, others.rest,
            others.suffix.trans ((List.suffix_cons next rest).trans hs)⟩
      else .ok ⟨[join .and first.value], next :: rest, hs⟩
termination_by (tokens.length, 3)
decreasing_by
  · simp [Prod.lex_def]
  · have := hs.length_le
    simp only [List.length_cons] at this
    simp only [Prod.lex_def]
    omega

/-- One or more operands of AND. -/
def readConjuncts (tokens : List Token) : Except Refusal (Reading (List Expression) tokens) :=
  match readNegation tokens with
  | .error refusal => .error refusal
  | .ok first =>
    match _hr : first.rest with
    | [] => .ok ⟨[first.value], [], List.nil_suffix⟩
    | next :: rest =>
      have hs : next :: rest <:+ tokens := _hr ▸ first.suffix
      if next.kind = .keyword .and then
        match readConjuncts rest with
        | .error refusal => .error refusal
        | .ok others => .ok ⟨first.value :: others.value, others.rest,
            others.suffix.trans ((List.suffix_cons next rest).trans hs)⟩
      else .ok ⟨[first.value], next :: rest, hs⟩
termination_by (tokens.length, 2)
decreasing_by
  · simp [Prod.lex_def]
  · have := hs.length_le
    simp only [List.length_cons] at this
    simp only [Prod.lex_def]
    omega

/-- A condition with any number of NOT in front. -/
def readNegation (tokens : List Token) : Except Refusal (Reading Expression tokens) :=
  match tokens with
  | [] => readPrimary []
  | t :: rest =>
    if t.kind = .keyword .not then
      match readNegation rest with
      | .error refusal => .error refusal
      | .ok operand =>
        .ok ⟨.not operand.value, operand.rest, operand.suffix.trans (List.suffix_cons t rest)⟩
    else readPrimary (t :: rest)
termination_by (tokens.length, 1)
decreasing_by all_goals simp [Prod.lex_def]

/-- A condition in parentheses, or one on a field. -/
def readPrimary (tokens : List Token) : Except Refusal (Reading Expression tokens) :=
  match tokens with
  | [] => readSimple []
  | t :: rest =>
    if t.kind = .leftParen then
      match readDisjuncts rest with
      | .error refusal => .error refusal
      | .ok inner => match expect .rightParen inner.rest with
        | .error refusal => .error refusal
        | .ok closing => .ok ⟨join .or inner.value, closing.rest,
            closing.suffix.trans (inner.suffix.trans (List.suffix_cons t rest))⟩
    else readSimple (t :: rest)
termination_by (tokens.length, 0)
decreasing_by simp [Prod.lex_def]

end

/-- A whole condition. -/
def reader : Reader Expression := do
  let disjuncts ← readDisjuncts
  return join .or disjuncts

end Expression

namespace Statement

open Reader

/-- What an aggregate is over: a field, or none for a star. -/
def readAggregateField : Reader (Option String) := do
  if ← accept .star then return none else return some (← identifier "'*' or field name")

/-- A field or an aggregate. Faults of an aggregate are reported where its name stands. -/
def readItem : Reader SelectItem := fun tokens => (do
  let name ← identifier "'*', field name or aggregate"
  if ← accept .leftParen then
    match Metric.ofName? name with
    | none => refuseAt tokens "aggregate function (COUNT, SUM, AVG, MIN, MAX)"
    | some metric =>
      let field ← readAggregateField
      let _ ← expect .rightParen
      if field = none ∧ metric ≠ .count then
        refuseAt tokens ("field name inside " ++ metric.name ++ "()")
      else return .aggregate { metric, field }
  else return .field name : Reader SelectItem) tokens

/-- A star alone, or items with commas between them. -/
def readProjection : Reader (List SelectItem) := do
  if ← accept .star then return [.star] else separated readItem

/-- An index, with a slash and a type or without. -/
def readTarget : Reader Target := do
  let index ← identifier "index name"
  if ← accept .slash then
    return { index, docType := some (← identifier "type name") }
  else return { index, docType := none }

/-- A field to sort by. It ascends unless DESC follows. -/
def readSortKey : Reader SortKey := do
  let field ← identifier "sort field"
  if ← accept (.keyword .desc) then return { field, direction := .descending }
  else
    let _ ← accept (.keyword .asc)
    return { field, direction := .ascending }

/-- A number of hits. -/
def readCount : Reader Nat :=
  takeMap "non-negative integer" fun t =>
    match t.kind, Decimal.uint64? t.text with
    | .number, some n => .ok n
    | _, _ => .error "non-negative integer"

def readCondition : Reader (Option Expression) := do
  if ← accept (.keyword .where) then return some (← Expression.reader) else return none

def readOrder : Reader (List SortKey) := do
  if ← accept (.keyword .order) then
    let _ ← expect (.keyword .by)
    separated readSortKey
  else return []

/-- The offset and the limit. Of two numbers the first one is the offset. -/
def readWindow : Reader (Option Nat × Option Nat) := do
  if ← accept (.keyword .limit) then
    let first ← readCount
    if ← accept .comma then return (some first, some (← readCount))
    else return (none, some first)
  else return (none, none)

def reader : Reader Statement := do
  let _ ← expect (.keyword .select)
  let projection ← readProjection
  let _ ← expect (.keyword .from)
  let targets ← separated readTarget
  let condition ← readCondition
  let order ← readOrder
  let (offset, limit) ← readWindow
  let _ ← accept .semicolon
  endOfInput
  return { projection, targets, condition, order, limit, offset }

/-- The statement of tokens from a text that ends at a byte offset. -/
def ofTokensUpTo (textEnd : Nat) (tokens : List Token) : Except Error Statement :=
  match reader tokens with
  | .ok reading => .ok reading.value
  | .error refusal => .error (refusal.error textEnd)

/-- The byte offset behind the contents of the last token. -/
def contentsEnd (tokens : List Token) : Nat :=
  match tokens.getLast? with
  | some t => t.position + t.text.utf8ByteSize
  | none => 0

/-- The statement of tokens, which need not come from a text. -/
def ofTokens (tokens : List Token) : Except Error Statement :=
  ofTokensUpTo (contentsEnd tokens) tokens

/-- The statement of a text. -/
def ofText (sql : String) : Except Error Statement := do
  ofTokensUpTo sql.utf8ByteSize (← Token.ofText sql)

end Statement

end SearchSql
