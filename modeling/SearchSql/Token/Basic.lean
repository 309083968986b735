import SearchSql.Statement.Basic

/-!
Tokens of SQL text.
-/

namespace SearchSql

inductive Keyword
  | select
  | «from»
  | «where»
  | and
  | or
  | not
  | between
  | «in»
  | like
  | is
  | miss
  | null
  | order
  | «by»
  | limit
  | asc
  | desc
  | true
  | false
deriving DecidableEq

namespace Keyword

def word : Keyword → String
  | .select => "SELECT"
  | .from => "FROM"
  | .where => "WHERE"
  | .and => "AND"
  | .or => "OR"
  | .not => "NOT"
  | .between => "BETWEEN"
  | .in => "IN"
  | .like => "LIKE"
  | .is => "IS"
  | .miss => "MISS"
  | .null => "NULL"
  | .order => "ORDER"
  | .by => "BY"
  | .limit => "LIMIT"
  | .asc => "ASC"
  | .desc => "DESC"
  | .true => "TRUE"
  | .false => "FALSE"

def all : List Keyword :=
  [.select, .from, .where, .and, .or, .not, .between, .in, .like, .is, .miss, .null, .order, .by,
    .limit, .asc, .desc, .true, .false]

/-- The keyword that a word spells, in whatever case its ASCII letters are. -/
def ofWord? (s : String) : Option Keyword := all.find? fun k => k.word == s.map Char.toUpper

end Keyword

inductive TokenKind
  | keyword (k : Keyword)
  | identifier
  | number
  | text
  | operator (op : Comparison)
  | comma
  | leftParen
  | rightParen
  | star
  | slash
  | semicolon
deriving DecidableEq

/-- How a kind is named where it is missing. -/
def TokenKind.name : TokenKind → String
  | .keyword k => k.word
  | .identifier => "identifier"
  | .number => "number"
  | .text => "string literal"
  | .operator op => "'" ++ op.symbol ++ "'"
  | .comma => "','"
  | .leftParen => "'('"
  | .rightParen => "')'"
  | .star => "'*'"
  | .slash => "'/'"
  | .semicolon => "';'"

/-- A token with its contents, which are without quotes and escapes, and the byte offset of its
first character. -/
structure Token where
  kind : TokenKind
  text : String
  position : Nat
deriving DecidableEq

namespace Token

/-- How a token is named where it is not expected. -/
def describe (t : Token) : String :=
  match t.kind with
  | .keyword k => k.word
  | _ => "'" ++ t.text ++ "'"

def isKeyword (k : Keyword) (t : Token) : Bool := t.kind == .keyword k

end Token

end SearchSql
