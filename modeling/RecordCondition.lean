import RecordCondition.Annotation
import RecordCondition.Annotation.Token
import RecordCondition.Binary
import RecordCondition.Binary.Text
import RecordCondition.Build
import RecordCondition.Calendar
import RecordCondition.Cell
import RecordCondition.Comparator
import RecordCondition.Comparison
import RecordCondition.Condition
import RecordCondition.Decimal
import RecordCondition.Declaration
import RecordCondition.Expr
import RecordCondition.Expr.Parser
import RecordCondition.Field
import RecordCondition.Grammar
import RecordCondition.Grammar.Trace
import RecordCondition.Instant
import RecordCondition.Integer
import RecordCondition.Json
import RecordCondition.Json.Column
import RecordCondition.Json.Reader
import RecordCondition.Limits
import RecordCondition.Limits.Json
import RecordCondition.Nesting
import RecordCondition.Pattern
import RecordCondition.Pattern.Reader
import RecordCondition.Portfolio
import RecordCondition.Portfolio.Holding
import RecordCondition.Portfolio.Listing
import RecordCondition.Portfolio.Stock
import RecordCondition.Portfolio.Tagged
import RecordCondition.Predicate
import RecordCondition.Proofs.Agreement
import RecordCondition.Proofs.Build.Equations
import RecordCondition.Proofs.Build.Evaluation
import RecordCondition.Proofs.Build.Fault
import RecordCondition.Proofs.Build.Respelling
import RecordCondition.Proofs.Build.Rewriting
import RecordCondition.Proofs.Build.Tests
import RecordCondition.Proofs.Cell.Scalars
import RecordCondition.Proofs.Compilation
import RecordCondition.Proofs.Correspondence
import RecordCondition.Proofs.Declaration.Selection
import RecordCondition.Proofs.Declaration.Settings
import RecordCondition.Proofs.Evaluation
import RecordCondition.Proofs.Expr.Equality
import RecordCondition.Proofs.Expr.Induction
import RecordCondition.Proofs.Field.Bounds
import RecordCondition.Proofs.Field.Cleaning
import RecordCondition.Proofs.Field.Distribution
import RecordCondition.Proofs.Field.Filter
import RecordCondition.Proofs.Grammar.Alignment
import RecordCondition.Proofs.Grammar.Faults
import RecordCondition.Proofs.Grammar.Survey
import RecordCondition.Proofs.Grammar.Visits
import RecordCondition.Proofs.Grammar.Walk
import RecordCondition.Proofs.Isolation
import RecordCondition.Proofs.Json.Backends
import RecordCondition.Proofs.LineBreaks
import RecordCondition.Proofs.Nesting.Arithmetic
import RecordCondition.Proofs.Nesting.Bound
import RecordCondition.Proofs.Nesting.Brackets
import RecordCondition.Proofs.Nesting.Chain
import RecordCondition.Proofs.Nesting.Pieces
import RecordCondition.Proofs.Nesting.PrefixFree
import RecordCondition.Proofs.Nesting.Reach
import RecordCondition.Proofs.Nesting.Respacing
import RecordCondition.Proofs.Nesting.Scan
import RecordCondition.Proofs.Nesting.Shortfall
import RecordCondition.Proofs.Nesting.Tally
import RecordCondition.Proofs.Predicate.Algebra
import RecordCondition.Proofs.Predicate.Alike
import RecordCondition.Proofs.Predicate.Display
import RecordCondition.Proofs.Predicate.Joining
import RecordCondition.Proofs.Predicate.Tests
import RecordCondition.Proofs.Results
import RecordCondition.Proofs.Reuse
import RecordCondition.Proofs.Scalar.Order
import RecordCondition.Proofs.Scalar.Rereading
import RecordCondition.Proofs.Spelling.Canonical
import RecordCondition.Proofs.Spelling.Characters
import RecordCondition.Proofs.Spelling.Completeness
import RecordCondition.Proofs.Spelling.Consumption
import RecordCondition.Proofs.Spelling.Edges
import RecordCondition.Proofs.Spelling.Grammar
import RecordCondition.Proofs.Spelling.Ladder
import RecordCondition.Proofs.Spelling.Layout
import RecordCondition.Proofs.Spelling.Lexing
import RecordCondition.Proofs.Spelling.Negation
import RecordCondition.Proofs.Spelling.Numbers
import RecordCondition.Proofs.Spelling.Parsed
import RecordCondition.Proofs.Spelling.Placement
import RecordCondition.Proofs.Spelling.Progress
import RecordCondition.Proofs.Spelling.Readers
import RecordCondition.Proofs.Spelling.Reentry
import RecordCondition.Proofs.Spelling.Respacing
import RecordCondition.Proofs.Spelling.RoundTrip
import RecordCondition.Proofs.Spelling.Soundness
import RecordCondition.Proofs.Spelling.Stopping
import RecordCondition.Proofs.Spelling.Verbatim
import RecordCondition.Proofs.Spelling.WellFormed
import RecordCondition.Proofs.Validation.Demands
import RecordCondition.Proofs.Validation.Mentions
import RecordCondition.Proofs.Validation.Objection
import RecordCondition.Registry
import RecordCondition.Scalar
import RecordCondition.Text.Alphabetic
import RecordCondition.Text.CharClass
import RecordCondition.Text.Numeric
import RecordCondition.TextRecord
import RecordCondition.Token
import RecordCondition.Token.Lexer
import RecordCondition.Validation
