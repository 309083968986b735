/-!
How fields are indexed by the search engine.
-/

namespace SearchSql

/-- Exact values are matched as a whole, and analyzed text by its words. -/
inductive FieldType
  | exact
  | analyzed
  | numeric
  | date
deriving DecidableEq

namespace FieldType

def name : FieldType → String
  | .exact => "exact"
  | .analyzed => "text"
  | .numeric => "numeric"
  | .date => "date"

/-- The type with a name. Two types have a second name. -/
def ofName? (s : String) : Option FieldType :=
  if s = "exact" ∨ s = "keyword" then some .exact
  else if s = "text" ∨ s = "analyzed" then some .analyzed
  else if s = "numeric" then some .numeric
  else if s = "date" then some .date
  else none

@[simp] theorem ofName?_name (t : FieldType) : ofName? t.name = some t := by
  cases t <;> simp [ofName?, name]

end FieldType

end SearchSql
