import SearchSql.Error
import SearchSql.Json.Decode

/-!
Search responses: the hits, how many documents matched, and the computed aggregations.
-/

namespace SearchSql

/-- A document that matched. -/
structure Hit where
  index : String
  docType : Option String
  id : String
  score : Option Double
  source : List (String × Json)

structure Response where
  total : Nat
  hits : List Hit
  aggregations : Option Json

namespace Hit

/-- The members of a hit in the order in which they are listed. -/
def members (h : Hit) : List (String × Json) :=
  [("_index", .text h.index)] ++ (h.docType.map fun t => ("_type", .text t)).toList ++
    [("_id", .text h.id), ("_score", .ofOption .ofDouble h.score), ("_source", .object h.source)]

def toJson (h : Hit) : Json := .ofMembers h.members

/-- A source that may be missing, but not be null. -/
def source? : Option Json → Option (List (String × Json))
  | none => some []
  | some value => value.members?

/-- The hit of five members, of which the index and the identifier are required. -/
def ofMembers? (index docType id score source : Option Json) : Option Hit := do
  let index ← index.bind Json.text?
  let docType ← Json.optional? Json.text? docType
  let id ← id.bind Json.text?
  let score ← Json.optional? Json.double? score
  let source ← source? source
  return { index, docType, id, score, source }

def ofJson? : Json → Option Hit
  | .object members =>
    ofMembers? (Keyed.find? "_index" members) (Keyed.find? "_type" members)
      (Keyed.find? "_id" members) (Keyed.find? "_score" members) (Keyed.find? "_source" members)
  | .list items =>
    if items.length ≤ 5 then ofMembers? items[0]? items[1]? items[2]? items[3]? items[4]? else none
  | _ => none

end Hit

namespace Response

/-- The count of matches: a number, or an object with the number as its value. -/
def total? : Json → Option Nat
  | .object members => (Keyed.find? "value" members).bind Json.uint64?
  | value => value.uint64?

/-- A list of hits that may be missing, but not be null. -/
def hits? : Option Json → Option (List Hit)
  | none => some []
  | some value => Json.listOf? Hit.ofJson? value

/-- The count of matches and the hits. Without a count, the hits are counted. -/
def found? (total hits : Option Json) : Option (Nat × List Hit) := do
  let total ← Json.optional? total? total
  let hits ← hits? hits
  return (total.getD hits.length, hits)

def foundOfJson? : Json → Option (Nat × List Hit)
  | .object members => found? (Keyed.find? "total" members) (Keyed.find? "hits" members)
  | .list [total] => found? total none
  | .list [total, hits] => found? total hits
  | _ => none

def ofMembers? (found aggregations : Option Json) : Option Response := do
  let (total, hits) ← found.bind foundOfJson?
  return { total, hits, aggregations := aggregations.filter fun a => !a.isNull }

def ofJson? : Json → Option Response
  | .object members => ofMembers? (Keyed.find? "hits" members) (Keyed.find? "aggregations" members)
  | .list [found] => ofMembers? found none
  | .list [found, aggregations] => ofMembers? found aggregations
  | _ => none

/-- Reads the body of a response. -/
def ofBody (body : Json) : Except Error Response :=
  match ofJson? body with
  | some response => .ok response
  | none => .error .json

def toJson (r : Response) : Json :=
  .ofMembers
    [("total", .integer (Int.ofNat r.total)),
     ("hits", .list (r.hits.map Hit.toJson)),
     ("aggregations", .ofOption id r.aggregations)]

/-- The value of an aggregation. -/
def aggregationValue? (r : Response) (name : String) : Option Json :=
  (r.aggregations.bind (Json.get? name)).bind (Json.get? "value")

end Response

end SearchSql
