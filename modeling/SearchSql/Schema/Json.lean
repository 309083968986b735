import SearchSql.Json.Decode
import SearchSql.Schema.Basic

/-!
The JSON form of schemas: an object from field names to type names.
-/

namespace SearchSql

def FieldType.ofJson? (j : Json) : Option FieldType := j.word?.bind FieldType.ofName?

namespace Schema

def toJson (s : Schema) : Json :=
  .object (s.entries.map fun entry => (entry.1, .text entry.2.name))

/-- A field with its type. -/
def entryOfJson? (member : String × Json) : Option (String × FieldType) :=
  (FieldType.ofJson? member.2).map fun type => (member.1, type)

def ofJson? : Json → Option Schema
  | .object members => (members.mapM entryOfJson?).map ofPairs
  | _ => none

end Schema

end SearchSql
