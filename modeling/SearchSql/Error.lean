import SearchSql.FieldType
import SearchSql.Statement.Printer

/-!
The failures of reading, compiling and running a query, and the text of each.
-/

namespace SearchSql

/-- Why no token can be read. -/
inductive LexFault
  | unterminatedText
  | unterminatedName
  | unrecognized (c : Char)
  | described (message : String)
deriving DecidableEq

def LexFault.message : LexFault → String
  | .unterminatedText => "Unterminated string literal"
  | .unterminatedName => "Unterminated quoted identifier"
  | .unrecognized c => "Unrecognized character '" ++ String.ofList [c] ++ "'"
  | .described message => message

/-- Why a statement has no search request. -/
inductive Unsupported
  | literalAlone (value : Literal)
  | fieldAlone (field : String)
  | notLiteral (comparison : Expression)
  | unordered (condition : Expression)
  | mixedBounds (condition : Expression)
  | likeOnType (condition : Expression) (field : String) (type : FieldType)
  | negatedCount (count : Nat)
  | noOperands (op : Connective)
  | fieldsWithAggregates (fields : List String)
  | described (message : String)

def Unsupported.message : Unsupported → String
  | .literalAlone value => "literal " ++ value.sql ++ " is not a predicate"
  | .fieldAlone field =>
    "field '" ++ field ++ "' alone is not a predicate; compare it or use IS NOT MISS"
  | .notLiteral e => e.sql ++ ": only literal values can be compared"
  | .unordered e => e.sql ++ ": booleans have no order"
  | .mixedBounds e => e.sql ++ ": bounds must be of the same kind"
  | .likeOnType e field type =>
    e.sql ++ ": LIKE needs a text field, '" ++ field ++ "' is " ++ type.name
  | .negatedCount count => "NOT takes exactly one operand, got " ++ toString count
  | .noOperands op => op.word ++ " with no operands"
  | .fieldsWithAggregates fields =>
    "cannot select fields (" ++ String.intercalate ", " fields ++ ") together with aggregates"
  | .described message => message

/-- Why there is no configuration. -/
inductive ConfigFault
  | unreadable (path reason : String)
  | malformed
  | described (message : String)
deriving DecidableEq

def ConfigFault.message : ConfigFault → String
  | .unreadable path reason => "Failed to read " ++ path ++ ": " ++ reason
  | .malformed => "TOML parse error"
  | .described message => message

/-- Why the server gave no usable answer. -/
inductive ServerFault
  | unreachable (url : String)
  | status (url reason body : String)
  | described (message : String)
deriving DecidableEq

def ServerFault.message : ServerFault → String
  | .unreachable url => url ++ ": error sending request for url (" ++ url ++ ")"
  | .status url reason body => url ++ " returned " ++ reason ++ ": " ++ body
  | .described message => message

inductive Error
  | lex (position : Nat) (fault : LexFault)
  | syntaxError (position : Nat) (expected found : String)
  | unsupported (cause : Unsupported)
  | resolution (field message : String)
  | config (fault : ConfigFault)
  | server (fault : ServerFault)
  | json

def Error.message : Error → String
  | .lex position fault => "Lex error at position " ++ toString position ++ ": " ++ fault.message
  | .syntaxError position expected found =>
    "Syntax error at position " ++ toString position ++ ": expected " ++ expected ++
      ", found " ++ found
  | .unsupported cause => "Unsupported predicate: " ++ cause.message
  | .resolution field message =>
    "Failed to resolve type of field '" ++ field ++ "': " ++ message
  | .config fault => "Configuration error: " ++ fault.message
  | .server fault => "Backend error: " ++ fault.message
  | .json => "JSON error"

end SearchSql
