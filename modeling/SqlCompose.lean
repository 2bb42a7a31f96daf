import SqlCompose.Binary.Double
import SqlCompose.Binary.Format
import SqlCompose.Binary.Notation
import SqlCompose.Binary.Numeral
import SqlCompose.Binary.Shortest
import SqlCompose.Calendar.Date
import SqlCompose.Calendar.DateTime
import SqlCompose.Calendar.Reading
import SqlCompose.Calendar.Writing
import SqlCompose.Command.Arguments
import SqlCompose.Command.Basic
import SqlCompose.Command.Execution
import SqlCompose.Command.Failure
import SqlCompose.Connection.Basic
import SqlCompose.Connection.Recording
import SqlCompose.Connection.Registry
import SqlCompose.Connection.Run
import SqlCompose.Connection.Scripted
import SqlCompose.Dialect.Basic
import SqlCompose.Dialect.Statement
import SqlCompose.Dialect.Token
import SqlCompose.Entity.Basic
import SqlCompose.Entity.Kind
import SqlCompose.Error
import SqlCompose.Expr.Basic
import SqlCompose.Expr.Diagnostic
import SqlCompose.Expr.Operator
import SqlCompose.Fields
import SqlCompose.Json.Basic
import SqlCompose.Json.Decoding
import SqlCompose.Json.Reading
import SqlCompose.Json.Writing
import SqlCompose.Main
import SqlCompose.Postgres.Authority
import SqlCompose.Postgres.Binding
import SqlCompose.Postgres.Cell
import SqlCompose.Postgres.Client
import SqlCompose.Postgres.Kind
import SqlCompose.Postgres.Server
import SqlCompose.Postgres.Staged
import SqlCompose.Postgres.Wire
import SqlCompose.Predicate.Binding
import SqlCompose.Predicate.Call
import SqlCompose.Predicate.Clause
import SqlCompose.Predicate.Definition
import SqlCompose.Predicate.Further
import SqlCompose.Predicate.Keyword
import SqlCompose.Predicate.Level
import SqlCompose.Predicate.Lexeme
import SqlCompose.Predicate.Lexer
import SqlCompose.Predicate.Operand
import SqlCompose.Predicate.Operation
import SqlCompose.Predicate.Query
import SqlCompose.Predicate.Reader
import SqlCompose.Predicate.Reading
import SqlCompose.Predicate.Statement
import SqlCompose.Predicate.Table
import SqlCompose.Predicate.Term
import SqlCompose.Predicate.TypeName
import SqlCompose.Profile.Basic
import SqlCompose.Profile.Saved
import SqlCompose.Proofs.Binary.Double
import SqlCompose.Proofs.Binary.Exact
import SqlCompose.Proofs.Binary.Numeral
import SqlCompose.Proofs.Binary.Shortest
import SqlCompose.Proofs.Calendar.Date
import SqlCompose.Proofs.Calendar.DateTime
import SqlCompose.Proofs.Calendar.Reading
import SqlCompose.Proofs.Condition.Clause
import SqlCompose.Proofs.Condition.ClauseReading
import SqlCompose.Proofs.Condition.Drafting
import SqlCompose.Proofs.Condition.Exposed
import SqlCompose.Proofs.Condition.Filter
import SqlCompose.Proofs.Condition.Finishing
import SqlCompose.Proofs.Condition.Group
import SqlCompose.Proofs.Condition.Identifier
import SqlCompose.Proofs.Condition.Lexeme
import SqlCompose.Proofs.Condition.Marked
import SqlCompose.Proofs.Condition.Meaning
import SqlCompose.Proofs.Condition.Membership
import SqlCompose.Proofs.Condition.Piece
import SqlCompose.Proofs.Condition.Reader
import SqlCompose.Proofs.Condition.Settling
import SqlCompose.Proofs.Condition.Truth
import SqlCompose.Proofs.Condition.Unmarked
import SqlCompose.Proofs.Condition.Verdict
import SqlCompose.Proofs.Condition.Watch
import SqlCompose.Proofs.Condition.Written
import SqlCompose.Proofs.Dialect.Glyph
import SqlCompose.Proofs.Dialect.Quotation
import SqlCompose.Proofs.Dialect.Rewording
import SqlCompose.Proofs.Dialect.RowStatement
import SqlCompose.Proofs.Dialect.Segment
import SqlCompose.Proofs.Dialect.Symbol
import SqlCompose.Proofs.Dialect.Tame
import SqlCompose.Proofs.Dialect.Token
import SqlCompose.Proofs.Entity.Conversion
import SqlCompose.Proofs.Entity.Fields
import SqlCompose.Proofs.Entity.Keys
import SqlCompose.Proofs.Formula.Assertion
import SqlCompose.Proofs.Formula.Condition
import SqlCompose.Proofs.Formula.Conjunction
import SqlCompose.Proofs.Formula.Grouping
import SqlCompose.Proofs.Formula.Layout
import SqlCompose.Proofs.Formula.Meaning
import SqlCompose.Proofs.Formula.Misreading
import SqlCompose.Proofs.Formula.Reader
import SqlCompose.Proofs.Formula.Regrouping
import SqlCompose.Proofs.Formula.Term
import SqlCompose.Proofs.Formula.Value
import SqlCompose.Proofs.Formula.Written
import SqlCompose.Proofs.Json.Form
import SqlCompose.Proofs.Json.Numeral
import SqlCompose.Proofs.Json.Quoted
import SqlCompose.Proofs.Json.RoundTrip
import SqlCompose.Proofs.Paging.Answer
import SqlCompose.Proofs.Paging.Compiled
import SqlCompose.Proofs.Paging.Recorded
import SqlCompose.Proofs.Paging.Strategies
import SqlCompose.Proofs.Postgres.Answer
import SqlCompose.Proofs.Postgres.Cell
import SqlCompose.Proofs.Postgres.Integer
import SqlCompose.Proofs.Postgres.RoundTrip
import SqlCompose.Proofs.Postgres.Wire
import SqlCompose.Proofs.Predicate.Acceptance
import SqlCompose.Proofs.Predicate.Reader
import SqlCompose.Proofs.Predicate.Trailing
import SqlCompose.Proofs.Profile.Parameters
import SqlCompose.Proofs.Profile.Saved
import SqlCompose.Proofs.Query.Capture
import SqlCompose.Proofs.Query.Chain
import SqlCompose.Proofs.Query.Dialects
import SqlCompose.Proofs.Query.Fault
import SqlCompose.Proofs.Query.Frame
import SqlCompose.Proofs.Query.Independence
import SqlCompose.Proofs.Query.LastWord
import SqlCompose.Proofs.Query.Naming
import SqlCompose.Proofs.Query.Origin
import SqlCompose.Proofs.Query.Outline
import SqlCompose.Proofs.Query.Placeholders
import SqlCompose.Proofs.Query.Reference
import SqlCompose.Proofs.Query.Renumbering
import SqlCompose.Proofs.Query.Selection
import SqlCompose.Proofs.Query.Silence
import SqlCompose.Proofs.Query.Walk
import SqlCompose.Proofs.Session.Batch
import SqlCompose.Proofs.Session.Composition
import SqlCompose.Proofs.Session.Description
import SqlCompose.Proofs.Session.Discipline
import SqlCompose.Proofs.Session.Insertion
import SqlCompose.Proofs.Session.Journal
import SqlCompose.Proofs.Session.Materialization
import SqlCompose.Proofs.Session.Members
import SqlCompose.Proofs.Session.Refusal
import SqlCompose.Proofs.Session.Rows
import SqlCompose.Proofs.Text.Numeral
import SqlCompose.Proofs.Text.Replacing
import SqlCompose.Proofs.Text.Utf8
import SqlCompose.Proofs.Toml.Document
import SqlCompose.Proofs.Toml.Quoted
import SqlCompose.Proofs.Value.RoundTrip
import SqlCompose.Query.Draft
import SqlCompose.Query.NullTest
import SqlCompose.Query.Plan
import SqlCompose.Query.Select
import SqlCompose.ResultSet
import SqlCompose.Sample.Users
import SqlCompose.Session.Description
import SqlCompose.Session.Handle
import SqlCompose.Session.Provider
import SqlCompose.Session.Repository
import SqlCompose.Session.Shape
import SqlCompose.Text.Ascii
import SqlCompose.Text.Blank
import SqlCompose.Text.Diagnostic
import SqlCompose.Text.Hidden
import SqlCompose.Text.Letter
import SqlCompose.Text.Range
import SqlCompose.Text.Search
import SqlCompose.Text.Upper
import SqlCompose.Text.Utf8
import SqlCompose.Toml.Basic
import SqlCompose.Toml.Quoted
import SqlCompose.Toml.Reading
import SqlCompose.Toml.Scalar
import SqlCompose.Toml.Writing
import SqlCompose.Value.Basic
import SqlCompose.Value.Diagnostic
import SqlCompose.Value.Display
import SqlCompose.Value.Integer
import SqlCompose.Value.Json
