import SearchSql.Query.Basic
import SearchSql.Statement.Json

/-!
The JSON form in which the search engine takes queries.
-/

namespace SearchSql

def Bounds.toJson (b : Bounds) : Json :=
  .ofSet [("gt", b.gt.map Literal.json), ("gte", b.gte.map Literal.json),
    ("lt", b.lt.map Literal.json), ("lte", b.lte.map Literal.json)]

namespace Query

/-- A section of a `bool` clause, left out when it is empty. -/
def sectionJson (clauses : List Json) : Option Json :=
  if clauses.isEmpty then none else some (.list clauses)

/-- A clause on a field: its kind, the field, and what is asked of the field. -/
def onField (kind field : String) (body : Json) : Json := .single kind (.single field body)

mutual

def toJson : Query → Json
  | .matchAll => .single "match_all" (.object [])
  | .term field value => onField "term" field value.json
  | .terms field values => onField "terms" field (.list (values.map Literal.json))
  | .matchAny field words => onField "match" field (.single "query" words.json)
  | .matchPhrase field phrase => onField "match_phrase" field (.single "query" phrase.json)
  | .range field bounds => onField "range" field bounds.toJson
  | .wildcard field pattern => onField "wildcard" field (.single "value" (.text pattern))
  | .present field => onField "exists" "field" (.text field)
  | .bool must filter should mustNot minimumShould => .single "bool"
    (.ofSet [("must", sectionJson (listToJson must)), ("filter", sectionJson (listToJson filter)),
      ("should", sectionJson (listToJson should)), ("must_not", sectionJson (listToJson mustNot)),
      ("minimum_should_match", minimumShould.map fun n => .integer (Int.ofNat n))])

def listToJson : List Query → List Json
  | [] => []
  | q :: rest => q.toJson :: listToJson rest

end

end Query

end SearchSql
