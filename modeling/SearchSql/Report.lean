import SearchSql.Json.Printer
import SearchSql.Request.Basic
import SearchSql.Response
import SearchSql.Schema.Basic

/-!
How hits and aggregations are shown.
-/

namespace SearchSql.Report

/-- A text followed by as many spaces as it takes to have a number of characters. -/
def pad (width : Nat) (s : String) : String :=
  String.ofList (s.toList ++ List.replicate (width - s.toList.length) ' ')

/-- How a value is shown in a cell. -/
def cellText : Json → String
  | .null => "NULL"
  | .text s => s
  | value => value.compact

/-- The keys of all sources, in the order in which they first occur. -/
def columns (hits : List Hit) : List String :=
  (hits.flatMap fun h => h.source.map Prod.fst).eraseDups

/-- The cell of a hit in a column, empty if the hit has no such key. -/
def cell (column : String) (h : Hit) : String :=
  match Keyed.find? column h.source with
  | some value => cellText value
  | none => ""

/-- The width of a column: the most bytes that its name or one of its cells has. -/
def width (hits : List Hit) (column : String) : Nat :=
  hits.foldl (fun w h => max w (cell column h).utf8ByteSize) column.utf8ByteSize

/-- The columns of a table, each with its width. -/
def layout (hits : List Hit) : List (String × Nat) := (columns hits).map fun c => (c, width hits c)

/-- A row of cells, each padded to the width of its column. -/
def row (layout : List (String × Nat)) (text : String → String) : String :=
  String.intercalate " │ " (layout.map fun column => pad column.2 (text column.1))

/-- The line below the header. -/
def separator (layout : List (String × Nat)) : String :=
  String.intercalate "─┼─" (layout.map fun column => String.ofList (List.replicate column.2 '─'))

/-- The table of hits: a header, a separator, and a row for each hit. -/
def table (hits : List Hit) : List String :=
  let columns := layout hits
  row columns id :: separator columns :: hits.map fun h => row columns fun c => cell c h

/-- How many of the matching documents are shown. -/
def summary (r : Response) : String :=
  toString r.hits.length ++ " of " ++ toString r.total ++ " hit(s) returned"

/-- The hits as a table with a summary. -/
def hitLines (r : Response) : List String :=
  (if r.hits.isEmpty then ["(no results)"] else table r.hits) ++ ["", summary r]

/-- The hits as JSON. -/
def hitsJson (r : Response) : String :=
  (Json.list (r.hits.map fun h => .object h.members)).pretty 0

/-- The values of aggregations, one on each line. -/
def aggregationLines (aggregations : List Aggregation) (r : Response) : List String :=
  aggregations.map fun a =>
    a.name ++ ": " ++ ((r.aggregationValue? a.name).map cellText).getD "NULL"

/-- The aggregations as JSON. -/
def aggregationsJson (r : Response) : String := (r.aggregations.getD .null).pretty 0

/-- The fields of a schema with their types. -/
def fieldLines (s : Schema) : List String :=
  if s.isEmpty then ["(no mapped fields)"]
  else s.entries.map fun entry => pad 40 entry.1 ++ " " ++ entry.2.name

/-- The place and the body of a request. -/
def requestLines (r : Request) : List String := ["POST /" ++ r.searchPath, r.body.pretty 0]

end SearchSql.Report
