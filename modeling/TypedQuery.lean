import TypedQuery.Binary64.Double
import TypedQuery.Binary64.Exact
import TypedQuery.Columnar.Apply
import TypedQuery.Columnar.Cast
import TypedQuery.Columnar.Column
import TypedQuery.Columnar.Combine
import TypedQuery.Columnar.Function
import TypedQuery.Columnar.Lists
import TypedQuery.Columnar.Literal
import TypedQuery.Columnar.Operator
import TypedQuery.Columnar.Reduction
import TypedQuery.Columnar.Texts
import TypedQuery.Columnar.Times
import TypedQuery.Config
import TypedQuery.DataType.Basic
import TypedQuery.Decimal.Reader
import TypedQuery.Decimal.Shortest
import TypedQuery.Emission.Walk
import TypedQuery.Engine.Compile
import TypedQuery.Engine.Functions
import TypedQuery.Engine.Operators
import TypedQuery.Engine.Rule
import TypedQuery.Engine.Tables
import TypedQuery.Error
import TypedQuery.Expr.Basic
import TypedQuery.Expr.Evaluate
import TypedQuery.Json.Basic
import TypedQuery.Json.Decode
import TypedQuery.Node.Access
import TypedQuery.Node.Basic
import TypedQuery.Node.Build
import TypedQuery.Node.Catalogue
import TypedQuery.Node.Hash
import TypedQuery.Node.Kind
import TypedQuery.Node.Print
import TypedQuery.Node.Rules
import TypedQuery.Node.Signature
import TypedQuery.Node.Validator
import TypedQuery.Outline
import TypedQuery.Plan.Basic
import TypedQuery.Plan.Brief
import TypedQuery.Plan.Execute
import TypedQuery.Plan.Group
import TypedQuery.Plan.Join
import TypedQuery.Plan.Select
import TypedQuery.Proofs.Binary64.Whole
import TypedQuery.Proofs.Clipping
import TypedQuery.Proofs.Columnar.Coerced
import TypedQuery.Proofs.Columnar.Counts
import TypedQuery.Proofs.Columnar.Echoes
import TypedQuery.Proofs.Columnar.Functions
import TypedQuery.Proofs.Columnar.Given
import TypedQuery.Proofs.Columnar.Heights
import TypedQuery.Proofs.Columnar.Lists
import TypedQuery.Proofs.Columnar.Order
import TypedQuery.Proofs.Columnar.Reduced
import TypedQuery.Proofs.Columnar.Residues
import TypedQuery.Proofs.Columnar.ResultTypes
import TypedQuery.Proofs.Columnar.RowByRow
import TypedQuery.Proofs.Columnar.RowView
import TypedQuery.Proofs.Columnar.Truncated
import TypedQuery.Proofs.Columnar.Typed
import TypedQuery.Proofs.Columnar.TypedWithin
import TypedQuery.Proofs.Columnar.Uniform
import TypedQuery.Proofs.DataType.Supertypes
import TypedQuery.Proofs.Decimal.Shortest
import TypedQuery.Proofs.DeclaredTypes
import TypedQuery.Proofs.Dispatch
import TypedQuery.Proofs.DistinctRows
import TypedQuery.Proofs.Emission.Memo
import TypedQuery.Proofs.Emission.Run
import TypedQuery.Proofs.EmittedLists
import TypedQuery.Proofs.Engine.Answers
import TypedQuery.Proofs.Engine.Names
import TypedQuery.Proofs.Engine.Operands
import TypedQuery.Proofs.Engine.OwnTypes
import TypedQuery.Proofs.Engine.Preserved
import TypedQuery.Proofs.Engine.Reading
import TypedQuery.Proofs.Engine.References
import TypedQuery.Proofs.Engine.Rowless
import TypedQuery.Proofs.Engine.Safe
import TypedQuery.Proofs.Engine.SafeTables
import TypedQuery.Proofs.Engine.TableTypes
import TypedQuery.Proofs.Engine.ValueTypes
import TypedQuery.Proofs.EquiJoin
import TypedQuery.Proofs.Expr.Filled
import TypedQuery.Proofs.Expr.Picked
import TypedQuery.Proofs.Expr.Types
import TypedQuery.Proofs.FilledCells
import TypedQuery.Proofs.FilteredReductions
import TypedQuery.Proofs.FirstFilled
import TypedQuery.Proofs.FirstMatch
import TypedQuery.Proofs.GivenRows
import TypedQuery.Proofs.Grouping
import TypedQuery.Proofs.HorizontalExtremes
import TypedQuery.Proofs.InternalErrors
import TypedQuery.Proofs.Join.Names
import TypedQuery.Proofs.JoinNames
import TypedQuery.Proofs.JoinReferences
import TypedQuery.Proofs.LegalCalls
import TypedQuery.Proofs.Literals
import TypedQuery.Proofs.Membership
import TypedQuery.Proofs.Memoization
import TypedQuery.Proofs.MergedParameters
import TypedQuery.Proofs.Metrics
import TypedQuery.Proofs.NestedLoops
import TypedQuery.Proofs.Node.Accepted
import TypedQuery.Proofs.Node.Held
import TypedQuery.Proofs.Node.Rebound
import TypedQuery.Proofs.Node.Reread
import TypedQuery.Proofs.Node.Revalidated
import TypedQuery.Proofs.Node.Shapes
import TypedQuery.Proofs.Node.Types
import TypedQuery.Proofs.NullTests
import TypedQuery.Proofs.OperandHeights
import TypedQuery.Proofs.OperandSplicing
import TypedQuery.Proofs.OperandTypes
import TypedQuery.Proofs.Plan.Aggregates
import TypedQuery.Proofs.Plan.Groups
import TypedQuery.Proofs.Plan.Keys
import TypedQuery.Proofs.Plan.Preserved
import TypedQuery.Proofs.Plan.Rectangular
import TypedQuery.Proofs.Plan.Types
import TypedQuery.Proofs.Projection
import TypedQuery.Proofs.Rebuilding
import TypedQuery.Proofs.RightJoins
import TypedQuery.Proofs.RowLocality
import TypedQuery.Proofs.RowOrder
import TypedQuery.Proofs.ScopeOrder
import TypedQuery.Proofs.Scoping
import TypedQuery.Proofs.Selections
import TypedQuery.Proofs.Sharing
import TypedQuery.Proofs.SemiJoins
import TypedQuery.Proofs.SetSearches
import TypedQuery.Proofs.Sql.Carried
import TypedQuery.Proofs.Sql.Constants
import TypedQuery.Proofs.Sql.Digits
import TypedQuery.Proofs.Sql.LaidTables
import TypedQuery.Proofs.Sql.LaidValues
import TypedQuery.Proofs.Sql.Layout
import TypedQuery.Proofs.Sql.Lexeme
import TypedQuery.Proofs.Sql.Meaning
import TypedQuery.Proofs.Sql.Orderly
import TypedQuery.Proofs.Sql.Phrase
import TypedQuery.Proofs.Sql.Query
import TypedQuery.Proofs.Sql.Reach
import TypedQuery.Proofs.Sql.Safe
import TypedQuery.Proofs.Sql.Shown
import TypedQuery.Proofs.Sql.Spelling
import TypedQuery.Proofs.Sql.Splices
import TypedQuery.Proofs.Sql.Written
import TypedQuery.Proofs.StoredCells
import TypedQuery.Proofs.TableColumns
import TypedQuery.Proofs.TextEdges
import TypedQuery.Proofs.TextSearches
import TypedQuery.Proofs.Time.Calendar
import TypedQuery.Proofs.Time.Periods
import TypedQuery.Proofs.TimestampArithmetic
import TypedQuery.Proofs.TimestampParts
import TypedQuery.Proofs.Truncations
import TypedQuery.Proofs.TypeInference
import TypedQuery.Regex.Basic
import TypedQuery.Regex.CharSet
import TypedQuery.Regex.Pattern
import TypedQuery.Regex.Reader
import TypedQuery.Schema.Basic
import TypedQuery.Schema.Wire
import TypedQuery.Shape
import TypedQuery.Sql.Compile
import TypedQuery.Sql.Functions
import TypedQuery.Sql.Literal
import TypedQuery.Sql.Operators
import TypedQuery.Sql.Rule
import TypedQuery.Sql.Tables
import TypedQuery.Text.Case
import TypedQuery.Text.Quoted
import TypedQuery.Text.Search
import TypedQuery.Time.Fields
import TypedQuery.Time.Instant
import TypedQuery.Time.Parsed
import TypedQuery.Time.Pattern
import TypedQuery.Time.Reading
import TypedQuery.Time.Unit
import TypedQuery.Unicode.Classes
import TypedQuery.Unicode.Packed
import TypedQuery.Unicode.Tables
import TypedQuery.Value.Basic
import TypedQuery.Value.Wire
