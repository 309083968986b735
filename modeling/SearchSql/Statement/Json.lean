import SearchSql.Json.Decode
import SearchSql.Statement.Basic

/-!
The JSON form of statements: a value of several shapes is an object whose only key names the shape.
-/

namespace SearchSql

namespace Comparison

def tag : Comparison → String
  | .eq => "Eq"
  | .ne => "Ne"
  | .gt => "Gt"
  | .ge => "Gte"
  | .lt => "Lt"
  | .le => "Lte"

def ofJson? (j : Json) : Option Comparison := j.word?.bind fun s => all.find? fun op => op.tag == s

end Comparison

namespace Connective

def tag : Connective → String
  | .and => "And"
  | .or => "Or"
  | .not => "Not"

def ofJson? (j : Json) : Option Connective :=
  j.word?.bind fun s => [Connective.and, .or, .not].find? fun op => op.tag == s

end Connective

namespace Metric

def tag : Metric → String
  | .count => "Count"
  | .sum => "Sum"
  | .avg => "Avg"
  | .min => "Min"
  | .max => "Max"

def ofJson? (j : Json) : Option Metric := j.word?.bind fun s => all.find? fun m => m.tag == s

end Metric

namespace Direction

def tag : Direction → String
  | .ascending => "Asc"
  | .descending => "Desc"

def ofJson? (j : Json) : Option Direction :=
  j.word?.bind fun s => [Direction.ascending, .descending].find? fun d => d.tag == s

end Direction

def LiteralKind.tag : LiteralKind → String
  | .integer => "Integer"
  | .decimal => "Decimal"
  | .text => "String"
  | .boolean => "Boolean"

namespace Literal

/-- The value alone. -/
def json : Literal → Json
  | .integer n => .integer n
  | .decimal x => .ofDouble x
  | .text s => .text s
  | .boolean b => .boolean b

/-- The value under the name of its shape. -/
def toJson : Literal → Json
  | .integer n => .single "Int" (.integer n)
  | .decimal x => .single "Float" (.ofDouble x)
  | .text s => .single "Str" (.text s)
  | .boolean b => .single "Bool" (.boolean b)

def ofJson? : Json → Option Literal
  | .object [("Int", body)] => body.int64?.map .integer
  | .object [("Float", body)] => body.double?.map .decimal
  | .object [("Str", body)] => body.text?.map .text
  | .object [("Bool", body)] => body.boolean?.map .boolean
  | _ => none

end Literal

namespace Expression

mutual

def toJson : Expression → Json
  | .literal value => .single "Literal" value.toJson
  | .field f => .single "FieldRef" (.text f)
  | .compare f op operand => .single "Comparison"
    (.ofMembers [("op", .text op.tag), ("field", .text f), ("value", operand.toJson)])
  | .between f low high negated => .single "Between"
    (.ofMembers [("field", .text f), ("low", low.toJson), ("high", high.toJson),
      ("negated", .boolean negated)])
  | .among f values negated => .single "InSet"
    (.ofMembers [("field", .text f), ("values", .list (values.map Literal.toJson)),
      ("negated", .boolean negated)])
  | .like f pattern => .single "Like"
    (.ofMembers [("field", .text f), ("pattern", .text pattern)])
  | .present f negated => .single "Exists"
    (.ofMembers [("field", .text f), ("negated", .boolean negated)])
  | .logical op operands => .single "Logical"
    (.ofMembers [("op", .text op.tag), ("children", .list (operandsToJson operands))])

def operandsToJson : List Expression → List Json
  | [] => []
  | operand :: rest => operand.toJson :: operandsToJson rest

end

mutual

def ofJson? : Json → Option Expression
  | .object [("Literal", body)] => (Literal.ofJson? body).map .literal
  | .object [("FieldRef", body)] => body.text?.map .field
  | .object [("Comparison", .object members)] => do
    let op ← (Keyed.find? "op" members).bind Comparison.ofJson?
    let f ← (Keyed.find? "field" members).bind Json.text?
    match _h : Keyed.find? "value" members with
    | some value => return .compare f op (← ofJson? value)
    | none => none
  | .object [("Between", .object members)] => do
    let f ← (Keyed.find? "field" members).bind Json.text?
    let low ← (Keyed.find? "low" members).bind Literal.ofJson?
    let high ← (Keyed.find? "high" members).bind Literal.ofJson?
    let negated ← (Keyed.find? "negated" members).bind Json.boolean?
    return .between f low high negated
  | .object [("InSet", .object members)] => do
    let f ← (Keyed.find? "field" members).bind Json.text?
    let values ← (Keyed.find? "values" members).bind (Json.listOf? Literal.ofJson?)
    let negated ← (Keyed.find? "negated" members).bind Json.boolean?
    return .among f values negated
  | .object [("Like", .object members)] => do
    let f ← (Keyed.find? "field" members).bind Json.text?
    let pattern ← (Keyed.find? "pattern" members).bind Json.text?
    return .like f pattern
  | .object [("Exists", .object members)] => do
    let f ← (Keyed.find? "field" members).bind Json.text?
    let negated ← (Keyed.find? "negated" members).bind Json.boolean?
    return .present f negated
  | .object [("Logical", .object members)] => do
    let op ← (Keyed.find? "op" members).bind Connective.ofJson?
    match _h : Keyed.find? "children" members with
    | some (.list items) => return .logical op (← operandsOfJson? items)
    | _ => none
  | _ => none
termination_by j => sizeOf j
decreasing_by
  all_goals
    have := Json.sizeOf_find? _h
    simp_all
    omega

def operandsOfJson? : List Json → Option (List Expression)
  | [] => some []
  | item :: rest => do
    let operand ← ofJson? item
    let others ← operandsOfJson? rest
    return operand :: others
termination_by items => sizeOf items

end

end Expression

namespace Aggregate

def toJson (a : Aggregate) : Json :=
  .ofMembers [("func", .text a.metric.tag), ("field", .ofOption .text a.field)]

def ofJson? : Json → Option Aggregate
  | .object members => do
    let metric ← (Keyed.find? "func" members).bind Metric.ofJson?
    let field ← Json.optional? Json.text? (Keyed.find? "field" members)
    return { metric, field }
  | .list [metric, field] => do
    return { metric := ← Metric.ofJson? metric, field := ← Json.optional? Json.text? field }
  | _ => none

end Aggregate

namespace SelectItem

def toJson : SelectItem → Json
  | .star => .text "Star"
  | .field f => .single "Field" (.text f)
  | .aggregate a => .single "Aggregate" a.toJson

def ofJson? : Json → Option SelectItem
  | .object [("Field", body)] => body.text?.map .field
  | .object [("Aggregate", body)] => (Aggregate.ofJson? body).map .aggregate
  | j => if j.word? = some "Star" then some .star else none

end SelectItem

namespace Target

def toJson (t : Target) : Json :=
  .ofMembers [("index", .text t.index), ("doc_type", .ofOption .text t.docType)]

def ofJson? : Json → Option Target
  | .object members => do
    let index ← (Keyed.find? "index" members).bind Json.text?
    let docType ← Json.optional? Json.text? (Keyed.find? "doc_type" members)
    return { index, docType }
  | .list [index, docType] => do
    return { index := ← index.text?, docType := ← Json.optional? Json.text? docType }
  | _ => none

end Target

namespace SortKey

def toJson (k : SortKey) : Json :=
  .ofMembers [("field", .text k.field), ("direction", .text k.direction.tag)]

def ofJson? : Json → Option SortKey
  | .object members => do
    let field ← (Keyed.find? "field" members).bind Json.text?
    let direction ← (Keyed.find? "direction" members).bind Direction.ofJson?
    return { field, direction }
  | .list [field, direction] => do
    return { field := ← field.text?, direction := ← Direction.ofJson? direction }
  | _ => none

end SortKey

namespace Statement

def toJson (s : Statement) : Json :=
  .ofMembers
    [("projection", .list (s.projection.map SelectItem.toJson)),
     ("sources", .list (s.targets.map Target.toJson)),
     ("predicate", .ofOption Expression.toJson s.condition),
     ("order_by", .list (s.order.map SortKey.toJson)),
     ("limit", .ofOption (fun n => .integer (Int.ofNat n)) s.limit),
     ("offset", .ofOption (fun n => .integer (Int.ofNat n)) s.offset)]

/-- The statement of six members. -/
def ofMembers? (projection targets condition order limit offset : Option Json) :
    Option Statement := do
  let projection ← projection.bind (Json.listOf? SelectItem.ofJson?)
  let targets ← targets.bind (Json.listOf? Target.ofJson?)
  let condition ← Json.optional? Expression.ofJson? condition
  let order ← order.bind (Json.listOf? SortKey.ofJson?)
  let limit ← Json.optional? Json.uint64? limit
  let offset ← Json.optional? Json.uint64? offset
  return { projection, targets, condition, order, limit, offset }

def ofJson? : Json → Option Statement
  | .object members =>
    ofMembers? (Keyed.find? "projection" members) (Keyed.find? "sources" members)
      (Keyed.find? "predicate" members) (Keyed.find? "order_by" members)
      (Keyed.find? "limit" members) (Keyed.find? "offset" members)
  | .list [projection, targets, condition, order, limit, offset] =>
    ofMembers? projection targets condition order limit offset
  | _ => none

end Statement

end SearchSql
