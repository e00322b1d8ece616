import QueryPlan.Abi
import QueryPlan.Main
import QueryPlan.Planning
import QueryPlan.Proofs.Abi
import QueryPlan.Proofs.Binding.Assembled
import QueryPlan.Proofs.Binding.Building
import QueryPlan.Proofs.Binding.Conditions
import QueryPlan.Proofs.Binding.Detached
import QueryPlan.Proofs.Binding.Expr
import QueryPlan.Proofs.Binding.From
import QueryPlan.Proofs.Binding.GroupedMeaning
import QueryPlan.Proofs.Binding.Grouping
import QueryPlan.Proofs.Binding.IgnoredClauses
import QueryPlan.Proofs.Binding.Inherited
import QueryPlan.Proofs.Binding.Inversion
import QueryPlan.Proofs.Binding.JoinedTables
import QueryPlan.Proofs.Binding.Layers
import QueryPlan.Proofs.Binding.LegalTypes
import QueryPlan.Proofs.Binding.Parts
import QueryPlan.Proofs.Binding.Predicates
import QueryPlan.Proofs.Binding.Query
import QueryPlan.Proofs.Binding.Resolution
import QueryPlan.Proofs.Binding.WholeNumbers
import QueryPlan.Proofs.Bytes
import QueryPlan.Proofs.Catalog.Lookup
import QueryPlan.Proofs.Catalog.Order
import QueryPlan.Proofs.Catalog.Reread
import QueryPlan.Proofs.Catalog.Types
import QueryPlan.Proofs.CommandLine.Lines
import QueryPlan.Proofs.CommandLine.Session
import QueryPlan.Proofs.EnginePlan.Addresses
import QueryPlan.Proofs.EnginePlan.Decoding
import QueryPlan.Proofs.EnginePlan.Exprs
import QueryPlan.Proofs.EnginePlan.Faithful
import QueryPlan.Proofs.EnginePlan.JoinLines
import QueryPlan.Proofs.EnginePlan.LineCount
import QueryPlan.Proofs.EnginePlan.Lines
import QueryPlan.Proofs.EnginePlan.Literals
import QueryPlan.Proofs.EnginePlan.Names
import QueryPlan.Proofs.EnginePlan.Numbering
import QueryPlan.Proofs.EnginePlan.Readers
import QueryPlan.Proofs.EnginePlan.Refusal
import QueryPlan.Proofs.Except
import QueryPlan.Proofs.Expr.Calls
import QueryPlan.Proofs.Expr.Columns
import QueryPlan.Proofs.Expr.Conjuncts
import QueryPlan.Proofs.Files.Spelling
import QueryPlan.Proofs.Isolate.Counters
import QueryPlan.Proofs.Isolate.Handles
import QueryPlan.Proofs.Isolate.History
import QueryPlan.Proofs.Isolate.Memory
import QueryPlan.Proofs.Isolate.Operations
import QueryPlan.Proofs.Isolate.Serving
import QueryPlan.Proofs.Isolate.Traces
import QueryPlan.Proofs.Json.Reading
import QueryPlan.Proofs.Log.Lines
import QueryPlan.Proofs.Log.Logger
import QueryPlan.Proofs.Log.Planning
import QueryPlan.Proofs.Log.Serving
import QueryPlan.Proofs.Log.Sessions
import QueryPlan.Proofs.Meaning.Algebra
import QueryPlan.Proofs.Meaning.Comparison
import QueryPlan.Proofs.Meaning.Conjuncts
import QueryPlan.Proofs.Meaning.Expr
import QueryPlan.Proofs.Meaning.Join
import QueryPlan.Proofs.Meaning.Picking
import QueryPlan.Proofs.Meaning.Plan
import QueryPlan.Proofs.Meaning.References
import QueryPlan.Proofs.Relation.Demand
import QueryPlan.Proofs.Relation.Detached
import QueryPlan.Proofs.Relation.LegalTypes
import QueryPlan.Proofs.Relation.Names
import QueryPlan.Proofs.Relation.WellFormed
import QueryPlan.Proofs.Rewrite.Access
import QueryPlan.Proofs.Rewrite.ArrowScans
import QueryPlan.Proofs.Rewrite.AverageSplit
import QueryPlan.Proofs.Rewrite.BareFilters
import QueryPlan.Proofs.Rewrite.ColumnPruning
import QueryPlan.Proofs.Rewrite.Detached
import QueryPlan.Proofs.Rewrite.Distribution
import QueryPlan.Proofs.Rewrite.Elimination
import QueryPlan.Proofs.Rewrite.Ending
import QueryPlan.Proofs.Rewrite.FilterPushing
import QueryPlan.Proofs.Rewrite.Fixpoint
import QueryPlan.Proofs.Rewrite.Handing
import QueryPlan.Proofs.Rewrite.IdentityProject
import QueryPlan.Proofs.Rewrite.JoinSides
import QueryPlan.Proofs.Rewrite.Layers
import QueryPlan.Proofs.Rewrite.LegalTypes
import QueryPlan.Proofs.Rewrite.Meaning
import QueryPlan.Proofs.Rewrite.Narrowing
import QueryPlan.Proofs.Rewrite.PassBounds
import QueryPlan.Proofs.Rewrite.Passes
import QueryPlan.Proofs.Rewrite.Reading
import QueryPlan.Proofs.Rewrite.Refusal
import QueryPlan.Proofs.Rewrite.Rest
import QueryPlan.Proofs.Rewrite.Rows
import QueryPlan.Proofs.Rewrite.Runs
import QueryPlan.Proofs.Rewrite.Settling
import QueryPlan.Proofs.Rewrite.Shape
import QueryPlan.Proofs.Rewrite.ShownNames
import QueryPlan.Proofs.Rewrite.Soundness
import QueryPlan.Proofs.Rewrite.Thrift
import QueryPlan.Proofs.Sorting
import QueryPlan.Proofs.SqlType.Digits
import QueryPlan.Proofs.SqlType.Legal
import QueryPlan.Proofs.SqlType.Values
import QueryPlan.Relation.Explain
