import SearchSql.Error
import SearchSql.Keyed

/-!
Schemas, which give the types of fields by name.
-/

namespace SearchSql

/-- Tells the type of a field, or why it cannot. -/
abbrev Resolver := String → Except Error FieldType

/-- The resolver that takes every field for analyzed text. -/
def Resolver.default : Resolver := fun _ => .ok .analyzed

/-- The types of some fields, in ascending order of the names. -/
@[ext]
structure Schema where
  entries : List (String × FieldType)
  ascending : Keyed.Ascending entries

namespace Schema

def empty : Schema := { entries := [], ascending := by simp [Keyed.Ascending] }

/-- Writes the type of one field. -/
def insert (s : Schema) (field : String) (type : FieldType) : Schema :=
  { entries := Keyed.insert field type s.entries, ascending := Keyed.ascending_insert s.ascending }

/-- Writes the types of several fields; the last type of a field wins. -/
def insertAll (s : Schema) (pairs : List (String × FieldType)) : Schema :=
  { entries := Keyed.insertAll s.entries pairs, ascending := Keyed.ascending_insertAll s.ascending }

def ofPairs (pairs : List (String × FieldType)) : Schema := empty.insertAll pairs

/-- Both schemas together. The other one wins where both have a type. -/
def merge (s other : Schema) : Schema := s.insertAll other.entries

def get? (s : Schema) (field : String) : Option FieldType := Keyed.find? field s.entries

def size (s : Schema) : Nat := s.entries.length

def isEmpty (s : Schema) : Bool := s.entries.isEmpty

/-- Fields without a type are taken for analyzed text. -/
def typeOf (s : Schema) (field : String) : FieldType := (s.get? field).getD .analyzed

def resolver (s : Schema) : Resolver := fun field => .ok (s.typeOf field)

@[simp] theorem get?_empty (field : String) : empty.get? field = none := rfl

end Schema

end SearchSql
