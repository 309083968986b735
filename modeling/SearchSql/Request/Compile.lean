import SearchSql.Query.Lowering
import SearchSql.Request.Assembly
import SearchSql.Statement.Parser

/-!
The search request of a statement, and of a text.
-/

namespace SearchSql

/-- The request of a statement. A failure of the condition is reported before one of the rest. -/
def Statement.compile (o : Options) (resolve : Resolver) (s : Statement) : Except Error Request :=
  match s.condition with
  | none => s.assemble none []
  | some condition => do
    let l ← condition.compile o resolve
    s.assemble l.query l.notes

/-- The request of a text. -/
def Request.ofText (o : Options) (resolve : Resolver) (sql : String) : Except Error Request := do
  let s ← Statement.ofText sql
  s.compile o resolve

end SearchSql
