import SearchSql.Json.Decode
import SearchSql.Schema.Basic

/-!
Index mappings, the documents in which a server describes the fields of its indices. A mapping may
be a whole response, a part of one, or of the older form with a level of types.
-/

namespace SearchSql.Mapping

def exactTypes : List String := ["keyword", "constant_keyword", "boolean", "ip"]

def analyzedTypes : List String := ["text", "match_only_text"]

def numericTypes : List String :=
  ["long", "integer", "short", "byte", "double", "float", "half_float", "scaled_float",
    "unsigned_long"]

def dateTypes : List String := ["date", "date_nanos"]

/-- The type that a field's definition gives, if it is a type of single values. Text of the older
form is exact when it is not analyzed. -/
def fieldType? (definition : Json) : Option FieldType := do
  let name ← (← definition.get? "type").text?
  if name ∈ exactTypes then some .exact
  else if name = "string" then
    if (definition.get? "index").bind Json.text? = some "not_analyzed" then some .exact
    else some .analyzed
  else if name ∈ analyzedTypes then some .analyzed
  else if name ∈ numericTypes then some .numeric
  else if name ∈ dateTypes then some .date
  else none

/-- The full name of a field inside another one. -/
def path (parent name : String) : String := if parent = "" then name else parent ++ "." ++ name

/-- A field with its type, if the definition has one. -/
def typed (field : String) (definition : Json) : List (String × FieldType) :=
  match fieldType? definition with
  | some type => [(field, type)]
  | none => []

/-- The other ways in which a field is indexed. -/
def multiFields (field : String) (definition : Json) : List (String × FieldType) :=
  match (definition.get? "fields").bind Json.members? with
  | some members => members.flatMap fun (name, sub) => typed (field ++ "." ++ name) sub
  | none => []

theorem sizeOf_get? {key : String} {j value : Json} (h : j.get? key = some value) :
    sizeOf value < sizeOf j := by
  cases j with
  | object members =>
    have := Json.sizeOf_find? h
    simp only [Json.object.sizeOf_spec]
    omega
  | _ => simp [Json.get?] at h

mutual

/-- The fields that properties describe, those of a field after the field itself. -/
def propertyFields (parent : String) : Json → List (String × FieldType)
  | .object members => definitionFields parent members
  | _ => []
termination_by properties => sizeOf properties

def definitionFields (parent : String) : List (String × Json) → List (String × FieldType)
  | [] => []
  | (name, definition) :: rest =>
    let field := path parent name
    let nested := match _h : definition.get? "properties" with
      | some properties => propertyFields field properties
      | none => []
    typed field definition ++ nested ++ multiFields field definition ++ definitionFields parent rest
termination_by members => sizeOf members
decreasing_by
  · have := sizeOf_get? _h
    simp only [List.cons.sizeOf_spec, Prod.mk.sizeOf_spec]
    omega
  · simp only [List.cons.sizeOf_spec]
    omega

end

mutual

/-- The fields that a mapping describes, in the order of the document. Without properties of its
own, it is searched for those of its members. -/
def fields : Json → List (String × FieldType)
  | .object members =>
    match Keyed.find? "properties" members with
    | some properties => propertyFields "" properties
    | none => memberFields members
  | _ => []

def memberFields : List (String × Json) → List (String × FieldType)
  | [] => []
  | (_, value) :: rest => fields value ++ memberFields rest

end

end SearchSql.Mapping

namespace SearchSql

/-- The schema of a mapping. -/
def Schema.ofMapping (mapping : Json) : Schema := .ofPairs (Mapping.fields mapping)

end SearchSql
