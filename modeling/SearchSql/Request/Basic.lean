import SearchSql.Query.Json
import SearchSql.Query.Options
import SearchSql.Statement.Printer

/-!
Search requests: where they are sent, and their body.
-/

namespace SearchSql

/-- Which fields of a document come back with a hit. -/
inductive Fetched
  | all
  | only (fields : List String)
  | none
deriving DecidableEq

/-- A metric that the server computes, under a name. -/
structure Aggregation where
  name : String
  metric : Metric
  field : String
deriving DecidableEq

/-- A search request. Without a size, the server decides how many hits come back. -/
structure Request where
  targets : List Target
  query : Query
  fetched : Fetched
  sort : List SortKey
  size : Option Nat
  start : Option Nat
  aggregations : List Aggregation
  notes : List Note

namespace Target

/-- The distinct indices, in order. -/
def indices (ts : List Target) : List String := (ts.map Target.index).eraseDups

/-- The distinct types, in order. -/
def docTypes (ts : List Target) : List String := (ts.filterMap Target.docType).eraseDups

/-- Whether every target has a type and each index occurs with each type. Then the path of the
request can name the types. -/
def typesInPath (ts : List Target) : Bool :=
  ts.all (fun t => t.docType.isSome) &&
    ts.eraseDups.length == (indices ts).length * (docTypes ts).length

/-- The path of the search endpoint for targets. -/
def searchPath (ts : List Target) : String :=
  let path := String.intercalate "," (indices ts)
  if typesInPath ts then path ++ "/" ++ String.intercalate "," (docTypes ts) ++ "/_search"
  else path ++ "/_search"

end Target

/-- The kind of aggregation that computes a metric. -/
def Metric.aggregation : Metric → String
  | .count => "value_count"
  | .sum => "sum"
  | .avg => "avg"
  | .min => "min"
  | .max => "max"

def Aggregation.body (a : Aggregation) : Json :=
  .single a.metric.aggregation (.single "field" (.text a.field))

def Aggregation.toJson (a : Aggregation) : Json :=
  .ofMembers [("name", .text a.name), ("func", .text a.metric.tag), ("field", .text a.field)]

/-- The word for a direction in a request. -/
def Direction.word : Direction → String
  | .ascending => "asc"
  | .descending => "desc"

def SortKey.body (k : SortKey) : Json := .single k.field (.single "order" (.text k.direction.word))

def Fetched.toJson : Fetched → Json
  | .all => .text "All"
  | .only fields => .single "Fields" (.list (fields.map .text))
  | .none => .text "None"

/-- The field of hits that a request asks for; none leaves it to the server. -/
def Fetched.body? : Fetched → Option Json
  | .only fields => some (.list (fields.map .text))
  | .all | .none => Option.none

namespace Request

def countJson (n : Nat) : Json := .integer (Int.ofNat n)

def isAggregateOnly (r : Request) : Bool := !r.aggregations.isEmpty

def searchPath (r : Request) : String := Target.searchPath r.targets

/-- The targets as they stand in the FROM clause. -/
def targetsText (r : Request) : String := String.intercalate "," (r.targets.map Target.sql)

/-- The body that is sent to the server. -/
def body (r : Request) : Json :=
  .ofSet
    [("query", some r.query.toJson),
     ("_source", r.fetched.body?),
     ("sort", if r.sort.isEmpty then none else some (.list (r.sort.map SortKey.body))),
     ("size", r.size.map countJson),
     ("from", r.start.map countJson),
     ("aggs", if r.aggregations.isEmpty then none
       else some (.ofMembers (r.aggregations.map fun a => (a.name, a.body))))]

/-- All parts of a request but its notes. -/
def toJson (r : Request) : Json :=
  .ofMembers
    [("targets", .list (r.targets.map Target.toJson)),
     ("query", r.query.toJson),
     ("source", r.fetched.toJson),
     ("sort", .list (r.sort.map SortKey.toJson)),
     ("size", .ofOption countJson r.size),
     ("from", .ofOption countJson r.start),
     ("aggregations", .list (r.aggregations.map Aggregation.toJson))]

end Request

end SearchSql
