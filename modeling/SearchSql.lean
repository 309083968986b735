import SearchSql.CommandLine.Arguments
import SearchSql.CommandLine.Run
import SearchSql.Config
import SearchSql.Decimal.Layout
import SearchSql.Decimal.Read
import SearchSql.Decimal.Shortest
import SearchSql.Double
import SearchSql.Error
import SearchSql.FieldType
import SearchSql.Json.Basic
import SearchSql.Json.Decode
import SearchSql.Json.Number
import SearchSql.Json.Printer
import SearchSql.Json.Reader
import SearchSql.Keyed
import SearchSql.Main
import SearchSql.Proofs.Aggregations
import SearchSql.Proofs.AskedValues
import SearchSql.Proofs.ByteOrder
import SearchSql.Proofs.Decimals.Rounding
import SearchSql.Proofs.Decimals.Shortest
import SearchSql.Proofs.Distinct
import SearchSql.Proofs.Lowering
import SearchSql.Proofs.Matching
import SearchSql.Proofs.Meaning
import SearchSql.Proofs.Members
import SearchSql.Proofs.NegationForms
import SearchSql.Proofs.Notes
import SearchSql.Proofs.OptionEffects
import SearchSql.Proofs.Parsing.Clauses
import SearchSql.Proofs.Parsing.Composition
import SearchSql.Proofs.Parsing.Condition
import SearchSql.Proofs.Parsing.Grammar
import SearchSql.Proofs.Parsing.Layout
import SearchSql.Proofs.Parsing.Lockstep
import SearchSql.Proofs.Parsing.Prefixes
import SearchSql.Proofs.Parsing.Reading
import SearchSql.Proofs.Parsing.Refusals
import SearchSql.Proofs.Parsing.Sentence
import SearchSql.Proofs.Parsing.Test
import SearchSql.Proofs.Parsing.Viable
import SearchSql.Proofs.Printing.Condition
import SearchSql.Proofs.Printing.Decimals
import SearchSql.Proofs.Printing.Lexing
import SearchSql.Proofs.Printing.Literals
import SearchSql.Proofs.Printing.Spelling
import SearchSql.Proofs.Printing.Statement
import SearchSql.Proofs.Printing.Words
import SearchSql.Proofs.QueryRuns
import SearchSql.Proofs.QueryShape
import SearchSql.Proofs.Scoring
import SearchSql.Proofs.SearchPath
import SearchSql.Proofs.SentLiterals
import SearchSql.Proofs.Sessions
import SearchSql.Proofs.Shape
import SearchSql.Proofs.SyntaxErrors
import SearchSql.Proofs.Targets
import SearchSql.Proofs.ThreeValued
import SearchSql.Proofs.Tokens.Classes
import SearchSql.Proofs.Tokens.Lexemes
import SearchSql.Proofs.Tokens.Spans
import SearchSql.Proofs.Unsupported
import SearchSql.Proofs.Wildcards
import SearchSql.Query.Basic
import SearchSql.Query.Json
import SearchSql.Query.Lowering
import SearchSql.Query.Options
import SearchSql.Report
import SearchSql.Request.Assembly
import SearchSql.Request.Basic
import SearchSql.Request.Compile
import SearchSql.Response
import SearchSql.Schema.Basic
import SearchSql.Schema.Json
import SearchSql.Schema.Mapping
import SearchSql.Server
import SearchSql.Session
import SearchSql.Statement.Basic
import SearchSql.Statement.Json
import SearchSql.Statement.Parser
import SearchSql.Statement.Printer
import SearchSql.Statement.Reader
import SearchSql.Text.Alphabetic
import SearchSql.Text.Blank
import SearchSql.Text.Hexadecimal
import SearchSql.Text.Numeric
import SearchSql.Text.Ranges
import SearchSql.Text.Rest
import SearchSql.Token.Basic
import SearchSql.Token.Lexeme
import SearchSql.Token.Lexer
import SearchSql.Toml.Basic
import SearchSql.Toml.Quoted
import SearchSql.Toml.Reader
import SearchSql.Toml.Scalar
import SearchSql.Word
import SearchSql.Proofs.Faults
import SearchSql.Proofs.TypeUse
import SearchSql.Proofs.Rendering
import SearchSql.Proofs.Tokens.Joined
import SearchSql.Proofs.LastWrites
import SearchSql.Proofs.Tokens.Stops
import SearchSql.Proofs.Pieces
import SearchSql.Proofs.OrderedJson
import SearchSql.Proofs.CompactTexts
import SearchSql.Proofs.Mappings.Flattening
import SearchSql.Proofs.Mappings.Responses
import SearchSql.Proofs.SchemaChanges
import SearchSql.Proofs.HitTables
import SearchSql.Proofs.SearchResponses
import SearchSql.Proofs.Explanations
