import SearchSql.Decimal.Layout
import SearchSql.Statement.Basic

/-!
The SQL text of statements and their parts.
-/

namespace SearchSql

/-- Decimals in SQL have no exponent, and whole ones no point. -/
def Literal.layout : Decimal.Layout :=
  { tie := .upward, positional := none, keepsPoint := false, infinity := "inf" }

/-- A text between single quotes, with a backslash before each quote in it. -/
def Literal.quoted (s : String) : String :=
  let escaped := s.toList.flatMap fun c => if c = '\'' then ['\\', '\''] else [c]
  String.ofList ('\'' :: escaped ++ ['\''])

def Literal.sql : Literal → String
  | .integer n => Decimal.integerText n
  | .decimal x => layout.text x
  | .text s => quoted s
  | .boolean b => if b then "true" else "false"

namespace Expression

/-- The word that negates a condition from within. -/
def notWord (negated : Bool) : String := if negated then "NOT " else ""

/-- Whether the condition is a run of operands, which needs parentheses inside another one. -/
def isRun : Expression → Bool
  | .logical .and _ | .logical .or _ => true
  | _ => false

/-- Puts the text of a run into parentheses. -/
def nested (e : Expression) (sql : String) : String := if e.isRun then "(" ++ sql ++ ")" else sql

mutual

def sql : Expression → String
  | .literal value => value.sql
  | .field f => f
  | .compare f op operand => f ++ " " ++ op.symbol ++ " " ++ operand.sql
  | .between f low high negated =>
    f ++ " " ++ notWord negated ++ "BETWEEN " ++ low.sql ++ " AND " ++ high.sql
  | .among f values negated =>
    f ++ " " ++ notWord negated ++ "IN (" ++ String.intercalate ", " (values.map Literal.sql) ++ ")"
  | .like f pattern => f ++ " LIKE " ++ Literal.quoted pattern
  | .present f negated => f ++ (if negated then " IS MISS" else " IS NOT MISS")
  | .logical .not operands => "NOT " ++ (operandTexts operands).headD ""
  | .logical op operands => String.intercalate (" " ++ op.word ++ " ") (operandTexts operands)

/-- The texts of operands, runs in parentheses. -/
def operandTexts : List Expression → List String
  | [] => []
  | operand :: rest => operand.nested operand.sql :: operandTexts rest

end

end Expression

def Aggregate.sql (a : Aggregate) : String := a.metric.name ++ "(" ++ a.field.getD "*" ++ ")"

def SelectItem.sql : SelectItem → String
  | .star => "*"
  | .field name => name
  | .aggregate a => a.sql

def Target.sql (t : Target) : String :=
  match t.docType with
  | some docType => t.index ++ "/" ++ docType
  | none => t.index

def SortKey.sql (k : SortKey) : String :=
  match k.direction with
  | .ascending => k.field
  | .descending => k.field ++ " DESC"

namespace Statement

def whereText (condition : Option Expression) : String :=
  match condition with
  | some e => " WHERE " ++ e.sql
  | none => ""

def orderText (order : List SortKey) : String :=
  if order = [] then "" else " ORDER BY " ++ String.intercalate ", " (order.map SortKey.sql)

/-- An offset is only written in front of a limit. -/
def limitText : Option Nat → Option Nat → String
  | some offset, some limit => " LIMIT " ++ toString offset ++ ", " ++ toString limit
  | none, some limit => " LIMIT " ++ toString limit
  | _, none => ""

def sql (s : Statement) : String :=
  "SELECT " ++ String.intercalate ", " (s.projection.map SelectItem.sql) ++
    " FROM " ++ String.intercalate "," (s.targets.map Target.sql) ++
    whereText s.condition ++ orderText s.order ++ limitText s.offset s.limit

end Statement

end SearchSql
