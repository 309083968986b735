import SearchSql.Query.Options
import SearchSql.Schema.Basic
import SearchSql.Toml.Reader

/-!
The configuration of a run, which is read from a TOML document. Unknown keys are ignored.
-/

namespace SearchSql

/-- The search server and how long to wait for it. -/
structure ServerSettings where
  url : String
  timeoutSecs : Nat
deriving DecidableEq

def ServerSettings.default : ServerSettings := { url := "http://localhost:9200", timeoutSecs := 30 }

structure Config where
  server : ServerSettings
  options : Options
  fields : Schema

namespace Config

def default : Config := { server := .default, options := .default, fields := .empty }

end Config

namespace Toml

/-- Reads a value under a key, which may be missing. -/
def member? {α : Type} (read : Toml → Option α) (fallback : α) : Option Toml → Option α
  | none => some fallback
  | some value => read value

def text? : Toml → Option String
  | .text s => some s
  | _ => none

def natural? : Toml → Option Nat
  | .integer n => if 0 ≤ n then some n.toNat else none
  | _ => none

def isEmpty : Toml → Bool
  | .list [] | .table _ [] => true
  | _ => false

/-- A word without contents: its text, or a table with nothing under it. -/
def word? : Toml → Option String
  | .text s => some s
  | .table _ [(s, value)] => if value.isEmpty then some s else none
  | _ => none

/-- Reads a section of two values, which stand under their keys or in a list in order. A date or
time has neither key. -/
def settings? {α : Type} (first second : String) (read : Option Toml → Option Toml → Option α) :
    Toml → Option α
  | .table _ entries => read (Keyed.find? first entries) (Keyed.find? second entries)
  | .list items => read items[0]? items[1]?
  | .tables items => read (items[0]?.map (.table .header)) (items[1]?.map (.table .header))
  | .moment => read none none
  | _ => none

def serverSettings? : Toml → Option ServerSettings :=
  settings? "url" "timeout_secs" fun url timeoutSecs => do
    let url ← member? text? ServerSettings.default.url url
    let timeoutSecs ← member? natural? ServerSettings.default.timeoutSecs timeoutSecs
    return { url, timeoutSecs }

def options? : Toml → Option Options :=
  settings? "negation" "text_equality" fun negation textEquality => do
    let negation ←
      member? (fun v => v.word?.bind Negation.ofName?) Options.default.negation negation
    let textEquality ←
      member? (fun v => v.word?.bind TextEquality.ofName?) Options.default.textEquality textEquality
    return { negation, textEquality }

/-- A field with its type. -/
def fieldType? (entry : String × Toml) : Option (String × FieldType) :=
  (entry.2.word?.bind FieldType.ofName?).map fun type => (entry.1, type)

def schema? : Toml → Option Schema
  | .table _ entries => (entries.mapM fieldType?).map Schema.ofPairs
  | _ => none

end Toml

namespace Config

def ofEntries? (entries : Toml.Entries) : Option Config := do
  let server ← Toml.member? Toml.serverSettings? .default (Keyed.find? "backend" entries)
  let options ← Toml.member? Toml.options? .default (Keyed.find? "compile" entries)
  let fields ← Toml.member? Toml.schema? .empty (Keyed.find? "fields" entries)
  return { server, options, fields }

/-- Reads a configuration. -/
def ofToml (s : String) : Except Error Config :=
  match (Toml.parse? s).bind ofEntries? with
  | some config => .ok config
  | none => .error (.config .malformed)

end Config

end SearchSql
