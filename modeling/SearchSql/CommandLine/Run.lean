import SearchSql.CommandLine.Arguments
import SearchSql.Config
import SearchSql.Report
import SearchSql.Server

/-!
What the command line does: running queries, explaining them, and showing the fields of an index.
-/

namespace SearchSql.CommandLine

/-- The settings that a run finds around it. -/
structure Surroundings where
  /-- The directory with the configurations of the user. -/
  configDir : Option String
  /-- The address of the server that the environment names. -/
  url : Option String

/-- The files in which a configuration is looked for. -/
def configPaths (around : Surroundings) : List String :=
  "sqles.toml" :: (around.configDir.map fun dir => dir ++ "/sqles/config.toml").toList

/-- The configuration in a file; none if there is no such file. -/
def readConfig (path : String) : FileState → Except Error (Option Config)
  | .missing => .ok none
  | .unreadable reason => .error (.config (.unreadable path reason))
  | .contents text => (Config.ofToml text).map some

/-- The reason that a missing file gives. -/
def missingReason : String := "No such file or directory (os error 2)"

/-- The configuration in the first of the files that is there. -/
def searchConfig : List String → Session Config
  | [] => return .default
  | path :: rest => do
    match ← Session.ofExcept (readConfig path (← Session.file path)) with
    | some config => return config
    | none => searchConfig rest

/-- The configuration in a file that has to be there. -/
def namedConfig (path : String) : Session Config := do
  match ← Session.ofExcept (readConfig path (← Session.file path)) with
  | some config => return config
  | none => Session.ofExcept (.error (.config (.unreadable path missingReason)))

/-- The configuration of a run. An address from the arguments or the environment replaces the one
in the file. -/
def loadConfig (around : Surroundings) (flags : Flags) : Session Config := do
  let config ← match flags.config with
    | some path => namedConfig path
    | none => searchConfig (configPaths around)
  match flags.url.or around.url with
  | some url => return { config with server := { config.server with url } }
  | none => return config

/-- The distinct indices of a statement in ascending order. -/
def sortedIndices (s : Statement) : List String :=
  (Keyed.ofPairs (s.targets.map fun t => (t.index, ()))).map Prod.fst

/-- The types of the fields of several indices. Where they differ, the last index wins. -/
def fetchMappings (url : String) (known : Schema) : List String → Session Schema
  | [] => return known
  | index :: rest => do
    let schema ← Server.fetchMapping url index
    fetchMappings url (known.merge schema) rest

/-- The schema of a run: the configured fields, on top of the mappings if they are asked for. -/
def buildSchema (config : Config) (flags : Flags) (sql : String) : Session Schema :=
  if flags.mapping then do
    let s ← Session.ofExcept (Statement.ofText sql)
    let fetched ← fetchMappings config.server.url .empty (sortedIndices s)
    return fetched.merge config.fields
  else return config.fields

def noteLine (n : Note) : String := "note: " ++ n.message

/-- The lines that show a response. -/
def resultLines (format : Format) (r : Request) (response : Response) : List String :=
  match format, r.isAggregateOnly with
  | .table, true => Report.aggregationLines r.aggregations response
  | .json, true => [Report.aggregationsJson response]
  | .table, false => Report.hitLines response
  | .json, false => [Report.hitsJson response]

def sayIf (condition : Bool) (line : String) : Session Unit :=
  if condition then Session.say line else return ()

/-- Compiles a query, and runs it unless only the request is to be shown. -/
def runQuery (around : Surroundings) (flags : Flags) (sql : String) : Session Unit := do
  sayIf flags.verbose ("Input: " ++ sql)
  let config ← loadConfig around flags
  let schema ← buildSchema config flags sql
  let request ← Session.ofExcept (Request.ofText config.options schema.resolver sql)
  Session.complainAll (request.notes.map noteLine)
  if flags.dryRun then Session.sayAll (Report.requestLines request)
  else
    sayIf flags.verbose ("Server: " ++ config.server.url)
    let response ← Server.search config.server.url request
    Session.sayAll (resultLines (flags.format.getD .table) request response)

/-- The lines that show the parts of a statement. -/
def statementLines (s : Statement) : List String :=
  ["Parsed Structure:",
    "  Select: " ++ String.intercalate ", " (s.projection.map SelectItem.sql),
    "  Targets:"] ++
  s.targets.map (fun t => "    • " ++ t.sql) ++
  (s.condition.map fun e => "  Where: " ++ e.sql).toList ++
  s.order.map (fun k => "  Order: " ++ k.field ++ " " ++ k.direction.word) ++
  ["  Limit: " ++ (s.limit.map toString).getD "server default"]

/-- The lines that show notes, if there are any. -/
def noteLines (notes : List Note) : List String :=
  if notes.isEmpty then []
  else ["", "Notes:"] ++ notes.map fun n => "  • " ++ n.message

/-- Shows a query, its parts and its request, which is compiled with the configured fields alone. -/
def explainQuery (around : Surroundings) (flags : Flags) (sql : String) : Session Unit := do
  Session.sayAll ["sqles Query Explanation", "", "Query: " ++ sql, ""]
  let config ← loadConfig around flags
  let s ← Session.ofExcept (Statement.ofText sql)
  Session.sayAll (statementLines s)
  let request ← Session.ofExcept (Request.ofText config.options config.fields.resolver sql)
  Session.sayAll (noteLines request.notes)
  Session.sayAll (["", "Request:"] ++ Report.requestLines request)

/-- Shows the fields of an index. -/
def showFields (around : Surroundings) (flags : Flags) (index : String) : Session Unit := do
  let config ← loadConfig around flags
  let fetched ← Server.fetchMapping config.server.url index
  Session.sayAll (Report.fieldLines (fetched.merge config.fields))

/-- The forms of SQL and what each becomes. -/
def syntaxRows : List (String × String) :=
  [("f = v", "term (exact) / match_phrase (text)"),
   ("f != v", "must_not [ f = v ]"),
   ("f > v, >=, <, <=", "range gt / gte / lt / lte"),
   ("f BETWEEN a AND b", "range gte a, lte b"),
   ("f NOT BETWEEN a AND b", "must_not [ range ]"),
   ("f IN (a, b)", "terms (exact) / should of match_phrase (text)"),
   ("f NOT IN (a, b)", "must_not [ terms ]"),
   ("f LIKE 'ab%'", "wildcard ab*"),
   ("f IS NOT MISS", "exists"),
   ("f IS MISS", "must_not [ exists ]"),
   ("a AND b", "bool filter / must"),
   ("a OR b", "bool should, minimum_should_match 1"),
   ("NOT a", "bool must_not"),
   ("SELECT a, b", "_source [a, b]"),
   ("SELECT COUNT(*)", "size 0 + value_count agg"),
   ("FROM i/t, j/t", "/i,j/t/_search"),
   ("FROM i/t, j", "/i,j/_search + _index/_type filter"),
   ("ORDER BY f DESC", "sort [ \x7b f: desc \x7d ]"),
   ("LIMIT [o,] n", "from o, size n")]

def syntaxRow (row : String × String) : String := Report.pad 28 row.1 ++ " " ++ row.2

/-- The lines that show the supported SQL. -/
def syntaxLines : List String :=
  ["sqles Syntax Reference", "", syntaxRow ("SQL", "Query DSL"),
    String.ofList (List.replicate 72 '─')] ++ syntaxRows.map syntaxRow

/-- The lines that show where to begin. -/
def introduction : List String :=
  ["sqles: SQL for search engines", "", "Usage: sqles <QUERY> [OPTIONS]", "", "Try: sqles --help"]

def runTask (around : Surroundings) (invocation : Invocation) : Session Unit :=
  match invocation.task with
  | .introduce => Session.sayAll introduction
  | .query sql => runQuery around invocation.flags sql
  | .explain sql => explainQuery around invocation.flags sql
  | .fields index => showFields around invocation.flags index
  | .showSyntax => Session.sayAll syntaxLines

/-- What is printed instead of a run. -/
def stopLines : Stop → List String
  | .help => ["Query Elasticsearch with SQL", "", "Usage: sqles [OPTIONS] [QUERY] [COMMAND]"]
  | .version => ["sqles 0.3.0"]
  | .wrong => []

/-- Wrong arguments have an exit code of their own. -/
def stopCode : Stop → Nat
  | .help | .version => 0
  | .wrong => 2

/-- Runs the program. The result is its exit code; a failure ends it with a complaint. -/
def run (around : Surroundings) (args : List String) : Session Nat :=
  match Invocation.ofArguments args with
  | .error stop => do
    Session.sayAll (stopLines stop)
    return stopCode stop
  | .ok invocation =>
    (runTask around invocation).andThen fun
      | .ok () => return 0
      | .error e => do
        Session.complain ("Error: " ++ e.message)
        return 1

end SearchSql.CommandLine
