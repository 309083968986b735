import SearchSql.Double

/-!
The parts of a SELECT statement.
-/

namespace SearchSql

inductive Comparison
  | eq
  | ne
  | gt
  | ge
  | lt
  | le
deriving DecidableEq

namespace Comparison

/-- The comparison to make when the operands change places. -/
def flip : Comparison → Comparison
  | .eq => .eq
  | .ne => .ne
  | .gt => .lt
  | .ge => .le
  | .lt => .gt
  | .le => .ge

def symbol : Comparison → String
  | .eq => "="
  | .ne => "!="
  | .gt => ">"
  | .ge => ">="
  | .lt => "<"
  | .le => "<="

def all : List Comparison := [.eq, .ne, .gt, .ge, .lt, .le]

end Comparison

/-- A value written in a statement. -/
inductive Literal
  | integer (n : Int)
  | decimal (x : Double)
  | text (s : String)
  | boolean (b : Bool)
deriving DecidableEq

inductive LiteralKind
  | integer
  | decimal
  | text
  | boolean
deriving DecidableEq

def Literal.kind : Literal → LiteralKind
  | .integer _ => .integer
  | .decimal _ => .decimal
  | .text _ => .text
  | .boolean _ => .boolean

def LiteralKind.isNumeric : LiteralKind → Bool
  | .integer | .decimal => true
  | .text | .boolean => false

inductive Connective
  | and
  | or
  | not
deriving DecidableEq

def Connective.word : Connective → String
  | .and => "AND"
  | .or => "OR"
  | .not => "NOT"

/-- A WHERE condition, or an operand of one. In a negated `present` the field has no value. -/
inductive Expression
  | literal (value : Literal)
  | field (name : String)
  | compare (field : String) (op : Comparison) (operand : Expression)
  | between (field : String) (low high : Literal) (negated : Bool)
  | among (field : String) (values : List Literal) (negated : Bool)
  | like (field pattern : String)
  | present (field : String) (negated : Bool)
  | logical (op : Connective) (operands : List Expression)

namespace Expression

def and (operands : List Expression) : Expression := .logical .and operands

def or (operands : List Expression) : Expression := .logical .or operands

def not (operand : Expression) : Expression := .logical .not [operand]

/-- A comparison of a field with a literal. -/
def compareLiteral (field : String) (op : Comparison) (value : Literal) : Expression :=
  .compare field op (.literal value)

/-- Operands joined by a connective; a single operand stands for itself. -/
def join (op : Connective) : List Expression → Expression
  | [operand] => operand
  | operands => .logical op operands

end Expression

/-- The functions that compute one value from a field of all hits. -/
inductive Metric
  | count
  | sum
  | avg
  | min
  | max
deriving DecidableEq

namespace Metric

def name : Metric → String
  | .count => "COUNT"
  | .sum => "SUM"
  | .avg => "AVG"
  | .min => "MIN"
  | .max => "MAX"

def all : List Metric := [.count, .sum, .avg, .min, .max]

/-- The metric with a name, in whatever case its ASCII letters are. -/
def ofName? (s : String) : Option Metric := all.find? fun m => m.name == s.map Char.toUpper

end Metric

/-- A metric over a field, or over `*` when there is none. -/
structure Aggregate where
  metric : Metric
  field : Option String
deriving DecidableEq

inductive SelectItem
  | star
  | field (name : String)
  | aggregate (a : Aggregate)
deriving DecidableEq

/-- An index of the FROM clause, all of it or one type of document in it. -/
structure Target where
  index : String
  docType : Option String
deriving DecidableEq

inductive Direction
  | ascending
  | descending
deriving DecidableEq

/-- A field of the ORDER BY clause. -/
structure SortKey where
  field : String
  direction : Direction
deriving DecidableEq

structure Statement where
  projection : List SelectItem
  targets : List Target
  condition : Option Expression
  order : List SortKey
  limit : Option Nat
  offset : Option Nat

namespace SelectItem

def isAggregate : SelectItem → Bool
  | .aggregate _ => true
  | .star | .field _ => false

end SelectItem

/-- Whether the projection holds an aggregate. -/
def Statement.isAggregate (s : Statement) : Bool := s.projection.any SelectItem.isAggregate

end SearchSql
