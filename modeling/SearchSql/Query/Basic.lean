import SearchSql.Statement.Basic

/-!
The query clauses of the search engine.
-/

namespace SearchSql

/-- The bounds of a range; those not set do not restrict it. -/
structure Bounds where
  gt : Option Literal
  gte : Option Literal
  lt : Option Literal
  lte : Option Literal
deriving DecidableEq

namespace Bounds

def unbounded : Bounds := { gt := none, gte := none, lt := none, lte := none }

/-- The range with both ends. -/
def closed (low high : Literal) : Bounds := { unbounded with gte := some low, lte := some high }

end Bounds

/-- A clause of a query. In `bool`, `must` and `should` clauses are scored, `filter` and `mustNot`
clauses are not. -/
inductive Query
  | matchAll
  | term (field : String) (value : Literal)
  | terms (field : String) (values : List Literal)
  | matchAny (field : String) (words : Literal)
  | matchPhrase (field : String) (phrase : Literal)
  | range (field : String) (bounds : Bounds)
  | wildcard (field pattern : String)
  | present (field : String)
  | bool (must filter should mustNot : List Query) (minimumShould : Option Nat)

namespace Query

/-- What does not match a clause. -/
def excluding (q : Query) : Query := .bool [] [] [] [q] none

/-- The documents without a value for a field. -/
def missing (field : String) : Query := excluding (.present field)

/-- What matches all clauses, without a score. -/
def filtering (clauses : List Query) : Query := .bool [] clauses [] [] none

/-- What matches at least one clause. -/
def anyOf (clauses : List Query) : Query := .bool [] [] clauses [] (some 1)

mutual

/-- Whether the clause adds to the score of a hit, as only text matches do by themselves. -/
def isScored : Query → Bool
  | .matchAny _ _ | .matchPhrase _ _ => true
  | .bool must _ should _ _ => anyScored must || anyScored should
  | _ => false

/-- Whether some clause is scored. -/
def anyScored : List Query → Bool
  | [] => false
  | q :: rest => q.isScored || anyScored rest

end

end Query

end SearchSql
