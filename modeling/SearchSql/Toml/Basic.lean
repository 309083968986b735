import SearchSql.Keyed

/-!
TOML values, and tables that are built by headers and dotted keys.
-/

namespace SearchSql

/-- How a table came about: written as a value, under a header, named in a longer header, or named
in a dotted key. This decides what may still be added to it. -/
inductive TableOrigin
  | inline
  | header
  | implied
  | dotted
deriving DecidableEq

/-- A TOML value. Of decimals, dates and times only the kind is kept. -/
inductive Toml
  | text (s : String)
  | integer (n : Int)
  | decimal
  | boolean (b : Bool)
  | moment
  | list (items : List Toml)
  | table (origin : TableOrigin) (entries : List (String × Toml))
  | tables (items : List (List (String × Toml)))
deriving Inhabited

namespace Toml

/-- The keys of a table with their values. -/
abbrev Entries := List (String × Toml)

/-- Whether a dotted key may go on inside a table. -/
def opensToDotted : TableOrigin → Bool
  | .implied | .dotted => true
  | .inline | .header => false

/-- Changes the table at the end of a path of keys. Tables on the way are made when they are
missing; of a list of tables the last one is meant. Headers go through all tables but inline ones;
dotted keys go only through tables without a header of their own. -/
def alter (dotted : Bool) (change : TableOrigin → Entries → Option Entries) :
    List String → TableOrigin → Entries → Option Entries
  | [], origin, entries => change origin entries
  | key :: path, _, entries =>
    match Keyed.find? key entries with
    | none =>
      let origin := if dotted then .dotted else .implied
      (alter dotted change path origin []).map fun inner =>
        Keyed.insert key (.table origin inner) entries
    | some (.table origin inner) =>
      if if dotted then opensToDotted origin else origin ≠ .inline then
        (alter dotted change path origin inner).map fun inner =>
          Keyed.insert key (.table origin inner) entries
      else none
    | some (.tables items) =>
      (alter dotted change path .header (items.getLastD [])).map fun inner =>
        Keyed.insert key (.tables (items.dropLast ++ [inner])) entries
    | some _ => none

/-- Adds a value under a new key. A table that is reached by a dotted key has to come from one. -/
def addValue (dotted : Bool) (key : String) (value : Toml) (origin : TableOrigin)
    (entries : Entries) : Option Entries :=
  if dotted == (origin == .dotted) && (Keyed.find? key entries).isNone then
    some (Keyed.insert key value entries)
  else none

/-- Adds a table under a header. It may have been named in longer headers before. -/
def addTable (key : String) (_ : TableOrigin) (entries : Entries) : Option Entries :=
  match Keyed.find? key entries with
  | none => some (Keyed.insert key (.table .header []) entries)
  | some (.table .implied inner) => some (Keyed.insert key (.table .header inner) entries)
  | some _ => none

/-- Adds a table to the list of tables under a header. -/
def addItem (key : String) (_ : TableOrigin) (entries : Entries) : Option Entries :=
  match Keyed.find? key entries with
  | none => some (Keyed.insert key (.tables [[]]) entries)
  | some (.tables items) => some (Keyed.insert key (.tables (items ++ [[]])) entries)
  | some _ => none

/-- A key of one or more parts with dots between them: all parts but the last, and the last. -/
structure Path where
  parents : List String
  last : String

/-- Adds a value under a key of one or more parts. -/
def addAt (path : Path) (value : Toml) (origin : TableOrigin) (entries : Entries) :
    Option Entries :=
  alter true (addValue (path.parents ≠ []) path.last value) path.parents origin entries

/-- The table of pairs as they are written inline. -/
def ofPairs? (pairs : List (Path × Toml)) : Option Toml :=
  (pairs.foldlM (fun entries pair => addAt pair.1 pair.2 .inline entries) []).map (.table .inline)

end Toml

end SearchSql
