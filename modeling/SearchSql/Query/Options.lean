import SearchSql.Json.Decode

/-!
How conditions are compiled where SQL and the search engine differ, and the notes on what differs.
-/

namespace SearchSql

/-- What a negated test does with documents that lack the field. -/
inductive Negation
  | mustNot
  | requireField
deriving DecidableEq

/-- How analyzed text is compared for equality: with the whole phrase or with any word of it. -/
inductive TextEquality
  | phrase
  | anyWord
deriving DecidableEq

structure Options where
  negation : Negation
  textEquality : TextEquality
deriving DecidableEq

namespace Negation

def name : Negation → String
  | .mustNot => "must_not"
  | .requireField => "require_field"

def ofName? (s : String) : Option Negation :=
  [Negation.mustNot, .requireField].find? fun mode => mode.name == s

end Negation

namespace TextEquality

def name : TextEquality → String
  | .phrase => "match_phrase"
  | .anyWord => "match"

def ofName? (s : String) : Option TextEquality :=
  [TextEquality.phrase, .anyWord].find? fun mode => mode.name == s

end TextEquality

namespace Options

def default : Options := { negation := .mustNot, textEquality := .phrase }

def toJson (o : Options) : Json :=
  .ofMembers [("negation", .text o.negation.name), ("text_equality", .text o.textEquality.name)]

/-- A member that may be missing, but not be null. -/
def member? {α : Type} (ofName? : String → Option α) (fallback : α) : Option Json → Option α
  | none => some fallback
  | some value => value.word?.bind ofName?

def ofMembers? (negation textEquality : Option Json) : Option Options := do
  let negation ← member? Negation.ofName? default.negation negation
  let textEquality ← member? TextEquality.ofName? default.textEquality textEquality
  return { negation, textEquality }

def ofJson? : Json → Option Options
  | .object members =>
    ofMembers? (Keyed.find? "negation" members) (Keyed.find? "text_equality" members)
  | .list [] => some default
  | .list [negation] => ofMembers? negation none
  | .list [negation, textEquality] => ofMembers? negation textEquality
  | _ => none

end Options

/-- A place where a compiled query may not mean what the SQL suggests. -/
inductive Note
  | missingField (field : String)
  | analyzedEquality (field : String)
deriving DecidableEq

namespace Note

def message : Note → String
  | .missingField field =>
    "negated predicate on '" ++ field ++ "' also matches documents without that field"
  | .analyzedEquality field =>
    "'" ++ field ++ "' is analyzed text; equality also matches values that contain the given text"

def toJson : Note → Json
  | .missingField field =>
    .ofMembers [("kind", .text "missing_field_pass_through"), ("field", .text field)]
  | .analyzedEquality field =>
    .ofMembers [("kind", .text "analyzed_equality"), ("field", .text field)]

end Note

end SearchSql
