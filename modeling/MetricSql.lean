import MetricSql.Compile
import MetricSql.Decimal.Binary
import MetricSql.Decimal.Layout
import MetricSql.Decimal.Literal
import MetricSql.Decimal.Shortest
import MetricSql.Dialect.Basic
import MetricSql.Dialect.Reserved
import MetricSql.Dialect.Spelling
import MetricSql.Document.Decode
import MetricSql.Document.Json
import MetricSql.Document.Toml
import MetricSql.Document.Toml.Scalar
import MetricSql.Document.Toml.Table
import MetricSql.Document.Toml.Text
import MetricSql.Document.Value
import MetricSql.Expr.Basic
import MetricSql.Expr.Support
import MetricSql.Expr.Tokens
import MetricSql.Failure
import MetricSql.Manifest.Basic
import MetricSql.Manifest.Codec
import MetricSql.Metric.Codec
import MetricSql.Metric.Formula
import MetricSql.Naming
import MetricSql.Plan.Aggregate
import MetricSql.Plan.Alias
import MetricSql.Plan.Basic
import MetricSql.Plan.Build
import MetricSql.Plan.Column
import MetricSql.Plan.GroupKeys
import MetricSql.Plan.Join
import MetricSql.Plan.Metrics
import MetricSql.Plan.Read
import MetricSql.Plan.Render
import MetricSql.Profile
import MetricSql.Profile.Codec
import MetricSql.Proofs.Formula.Arithmetic
import MetricSql.Proofs.Formula.Meaning
import MetricSql.Proofs.Lexeme.Number
import MetricSql.Proofs.Lexeme.Scan
import MetricSql.Proofs.Plan.Built
import MetricSql.Proofs.Plan.Scope
import MetricSql.Proofs.Plan.Session
import MetricSql.Proofs.Plan.Steps
import MetricSql.Proofs.Rows.Basic
import MetricSql.Proofs.Rows.Join
import MetricSql.Query.Basic
import MetricSql.Query.Tokens
import MetricSql.Request
import MetricSql.Request.Codec
import MetricSql.Resolve.Groups
import MetricSql.Resolve.Measures
import MetricSql.Schema.Codec
import MetricSql.Schema.DataType
import MetricSql.Schema.Element
import MetricSql.Schema.Grain
import MetricSql.Schema.Model
import MetricSql.Schema.Table
import MetricSql.Settings
import MetricSql.Statement.Basic
import MetricSql.Statement.Lexeme
import MetricSql.Statement.Parser
import MetricSql.Statement.Shape
import MetricSql.Text.Blank
import MetricSql.Text.Identifier
import MetricSql.Text.Nearest
import MetricSql.Text.Quoted
import MetricSql.Text.Uppercase
import MetricSql.Text.UppercaseTable
import MetricSql.Token
import MetricSql.Proofs.Lexeme.Token
import MetricSql.Proofs.Lexeme.Spacing
import MetricSql.Proofs.Lexeme.Layout
import MetricSql.Proofs.Statement.Operand
import MetricSql.Proofs.Statement.Expression
import MetricSql.Proofs.Statement.Clause
import MetricSql.Proofs.Plan.Formed
import MetricSql.Proofs.Statement.RoundTrip
import MetricSql.Proofs.Plan.Resolution
import MetricSql.Proofs.Plan.Resolved
import MetricSql.Proofs.Plan.Shape
import MetricSql.Proofs.Plan.Refusal
import MetricSql.Proofs.Plan.Obstacle
import MetricSql.Proofs.Plan.Buildable
import MetricSql.Proofs.Rows.Total
import MetricSql.Proofs.Lexeme.Names
import MetricSql.Proofs.Plan.Extension
import MetricSql.Proofs.Plan.Calls
import MetricSql.Proofs.Plan.Printable
import MetricSql.Proofs.Plan.Answers
import MetricSql.Proofs.Plan.Alike
import MetricSql.Proofs.Plan.Order
import MetricSql.Proofs.Lexeme.Comment
import MetricSql.Proofs.Lexeme.Fallback
import MetricSql.Proofs.Plan.Aliases
import MetricSql.Proofs.Plan.Support
import MetricSql.Proofs.Document.Codec
import MetricSql.Proofs.Plan.Joinable
import MetricSql.Proofs.Plan.Tower
import MetricSql.Proofs.Plan.Measures
import MetricSql.Proofs.Plan.LinkColumns
import MetricSql.Proofs.Lexeme.StageComments
import MetricSql.Proofs.Plan.MissingKey
import MetricSql.Proofs.Plan.Reuse
import MetricSql.Proofs.Text.Nearest
import MetricSql.Proofs.Plan.Suggestion
import MetricSql.Proofs.Lexeme.Nesting
import MetricSql.Proofs.Plan.Reachability
