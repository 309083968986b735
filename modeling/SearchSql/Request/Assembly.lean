import SearchSql.Error
import SearchSql.Request.Basic

/-!
The search request of a statement whose condition is compiled.
-/

namespace SearchSql

namespace Query

/-- The root clause for a condition. What is not scored becomes a filter. -/
def root (q : Query) : Query :=
  if q.isScored then q
  else match q with
    | .bool [] _ [] _ _ => q
    | _ => filtering [q]

/-- Adds a condition that is not scored to a root clause. -/
def restrict (q condition : Query) : Query :=
  match q with
  | .matchAll => filtering [condition]
  | .bool must filter [] mustNot minimumShould =>
    .bool must (filter ++ [condition]) [] mustNot minimumShould
  | _ => if q.isScored then .bool [q] [condition] [] [] none else filtering [q, condition]

/-- The documents of a target. -/
def ofTarget (t : Target) : Query :=
  match t.docType with
  | some docType =>
    filtering [.term "_index" (.text t.index), .term "_type" (.text docType)]
  | none => .term "_index" (.text t.index)

/-- The documents of the targets, when the path alone cannot tell them. -/
def ofTargets? (ts : List Target) : Option Query :=
  if ts.any (fun t => t.docType.isSome) && !Target.typesInPath ts then
    some (anyOf (ts.eraseDups.map ofTarget))
  else none

end Query

namespace SelectItem

def field? : SelectItem → Option String
  | .field f => some f
  | .star | .aggregate _ => none

/-- The aggregation of an item. A star is counted over a field that every document has. -/
def aggregation? : SelectItem → Option Aggregation
  | .aggregate a =>
    some { name := a.sql, metric := a.metric, field := a.field.getD "_index" }
  | .star | .field _ => none

end SelectItem

/-- Keeps the first of the aggregations with the same name. -/
def Aggregation.distinct : List Aggregation → List Aggregation
  | [] => []
  | a :: rest => a :: (distinct rest).filter fun b => b.name != a.name

namespace Statement

/-- The fields of the projection. -/
def fields (s : Statement) : List String := s.projection.filterMap SelectItem.field?

def aggregations (s : Statement) : List Aggregation :=
  Aggregation.distinct (s.projection.filterMap SelectItem.aggregation?)

/-- The root clause of a request: the condition, narrowed to the targets. -/
def rootQuery (s : Statement) (condition : Option Query) : Query :=
  let root := match condition with
    | some q => q.root
    | none => .matchAll
  match Query.ofTargets? s.targets with
  | some targets => root.restrict targets
  | none => root

/-- The request of a statement with a compiled condition. Aggregates leave no room for fields, and
with them no hits come back. -/
def assemble (s : Statement) (condition : Option Query) (notes : List Note) :
    Except Error Request :=
  let query := s.rootQuery condition
  if s.isAggregate then
    if s.fields = [] then
      .ok { targets := s.targets, query, fetched := .none, sort := [], size := some 0
            start := none, aggregations := s.aggregations, notes }
    else .error (.unsupported (.fieldsWithAggregates s.fields))
  else
    .ok { targets := s.targets, query
          fetched := if s.fields = [] then .all else .only s.fields
          sort := s.order, size := s.limit, start := s.offset, aggregations := [], notes }

end Statement

end SearchSql
