import LocalizedQuery.Backend.Basic
import LocalizedQuery.Backend.KeyValue
import LocalizedQuery.Backend.Table
import LocalizedQuery.CommandLine.Command
import LocalizedQuery.CommandLine.Outcome
import LocalizedQuery.Compile
import LocalizedQuery.Configuration.Build
import LocalizedQuery.Configuration.Error
import LocalizedQuery.Configuration.Settings
import LocalizedQuery.Decimal.Double
import LocalizedQuery.Decimal.Shortest
import LocalizedQuery.Inference.Error
import LocalizedQuery.Inference.Node
import LocalizedQuery.Inference.Visitor
import LocalizedQuery.Inversion
import LocalizedQuery.JoinPlan
import LocalizedQuery.Locale
import LocalizedQuery.LocalizedModel
import LocalizedQuery.Main
import LocalizedQuery.Model
import LocalizedQuery.NameMap
import LocalizedQuery.PlanReport
import LocalizedQuery.Predicate.Grammar.Call
import LocalizedQuery.Predicate.Grammar.ColumnOption
import LocalizedQuery.Predicate.Grammar.DataType
import LocalizedQuery.Predicate.Grammar.Expression
import LocalizedQuery.Predicate.Grammar.Form
import LocalizedQuery.Predicate.Grammar.Modification
import LocalizedQuery.Predicate.Grammar.Query
import LocalizedQuery.Predicate.Grammar.RowPattern
import LocalizedQuery.Predicate.Grammar.Rules
import LocalizedQuery.Predicate.Grammar.Selection
import LocalizedQuery.Predicate.Grammar.Table
import LocalizedQuery.Predicate.Lexeme
import LocalizedQuery.Predicate.Lexer
import LocalizedQuery.Predicate.Lowering
import LocalizedQuery.Predicate.Parse
import LocalizedQuery.Predicate.Reader
import LocalizedQuery.Predicate.ReservedWord
import LocalizedQuery.Predicate.Tree
import LocalizedQuery.Registry
import LocalizedQuery.Sql.Dialect
import LocalizedQuery.Sql.Expr
import LocalizedQuery.Sql.JoinKind
import LocalizedQuery.Sql.Query
import LocalizedQuery.Sql.Rendering
import LocalizedQuery.Sql.Token
import LocalizedQuery.Text.Case
import LocalizedQuery.Text.CharSet
import LocalizedQuery.Text.Inflection
import LocalizedQuery.Text.Letter
import LocalizedQuery.Text.Quoted
import LocalizedQuery.Toml.Document
import LocalizedQuery.Toml.Reader
import LocalizedQuery.Toml.Scalar
import LocalizedQuery.Toml.Text
import LocalizedQuery.Proofs.Evaluation.Truth
import LocalizedQuery.Proofs.Evaluation.Value
import LocalizedQuery.Proofs.Evaluation.Rows
import LocalizedQuery.Proofs.Inference.KeyValue
import LocalizedQuery.Proofs.Backend
import LocalizedQuery.Proofs.Closure
import LocalizedQuery.Proofs.Evaluation.Fragment
import LocalizedQuery.Proofs.Evaluation.Instances
import LocalizedQuery.Proofs.Evaluation.Terms
import LocalizedQuery.Proofs.Inference.Instances
import LocalizedQuery.Proofs.Inference.Strictness
import LocalizedQuery.Proofs.InnerJoins
import LocalizedQuery.Proofs.OuterJoins
import LocalizedQuery.Proofs.Confluence
import LocalizedQuery.Proofs.Scoping
import LocalizedQuery.Proofs.Restriction
import LocalizedQuery.Proofs.Aliases
import LocalizedQuery.Proofs.Evaluation.Matching
import LocalizedQuery.Proofs.InvertedQueries
import LocalizedQuery.Proofs.BackendByBackend
import LocalizedQuery.Proofs.ReportedJoins
import LocalizedQuery.Proofs.Rendering.Reader
import LocalizedQuery.Proofs.Rendering.Written
import LocalizedQuery.Proofs.Rendering.RoundTrip
import LocalizedQuery.Proofs.Rendering.BooleanStructure
import LocalizedQuery.Proofs.Rendering.Spelling
import LocalizedQuery.Proofs.Rendering.Arithmetic
import LocalizedQuery.Proofs.Rendering.Regrouping
import LocalizedQuery.Proofs.Parts
import LocalizedQuery.Proofs.Rendering.Search
import LocalizedQuery.Proofs.Rendering.Writable
import LocalizedQuery.Proofs.CompiledTexts
import LocalizedQuery.Proofs.Rendering.EscapedText
import LocalizedQuery.Proofs.Rendering.Comments
import LocalizedQuery.Proofs.Predicate.Clauses
import LocalizedQuery.Proofs.Inference.Rejection
import LocalizedQuery.Proofs.Inference.ShortCircuit
import LocalizedQuery.Proofs.Inference.Ancestors
import LocalizedQuery.Proofs.KeyValuePlans
import LocalizedQuery.Proofs.Configuration.Acceptance
import LocalizedQuery.Proofs.OuterNeeds
import LocalizedQuery.Proofs.Inference.HiddenReferences
import LocalizedQuery.Proofs.Inference.Tolerance
import LocalizedQuery.Proofs.ForeignParts
import LocalizedQuery.Proofs.NullComparisons
import LocalizedQuery.Proofs.Parentheses
import LocalizedQuery.Proofs.Predicate.Resolution
import LocalizedQuery.Proofs.Predicate.Integers
import LocalizedQuery.Proofs.AttachingOrder
import LocalizedQuery.Proofs.Inference.UniformVisitor
