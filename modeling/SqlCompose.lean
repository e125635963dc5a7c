import SqlCompose.Build
import SqlCompose.Calendar
import SqlCompose.Compose.Insert
import SqlCompose.Compose.Like
import SqlCompose.Compose.Mutation
import SqlCompose.Compose.Row
import SqlCompose.Compose.Select
import SqlCompose.Compose.Upsert
import SqlCompose.Config
import SqlCompose.Count
import SqlCompose.Decimal.Binary
import SqlCompose.Decimal.Shortest
import SqlCompose.Dialect.Basic
import SqlCompose.Dialect.Catalog
import SqlCompose.Error
import SqlCompose.Execution
import SqlCompose.Identifier
import SqlCompose.Json.Basic
import SqlCompose.Json.Reader
import SqlCompose.Log
import SqlCompose.Options
import SqlCompose.Query.Basic
import SqlCompose.Query.Filter
import SqlCompose.Query.Insert
import SqlCompose.Query.Mutation
import SqlCompose.Query.Nested
import SqlCompose.Scope.Alias
import SqlCompose.Scope.Tree
import SqlCompose.Sql.Piece
import SqlCompose.Sql.Printer
import SqlCompose.Sql.Tree
import SqlCompose.Statement
import SqlCompose.Table
import SqlCompose.Text.CaseTable
import SqlCompose.Text.Doubling
import SqlCompose.Text.Hex
import SqlCompose.Text.Lowercase
import SqlCompose.Text.Truncation
import SqlCompose.Value.Basic
import SqlCompose.Value.Literal
import SqlCompose.Value.Wire
import SqlCompose.Proofs.Query.Nesting
import SqlCompose.Proofs.Scope.Registration
import SqlCompose.Proofs.Scope.Freshness
import SqlCompose.Proofs.Scope.Uniqueness
import SqlCompose.Proofs.Query.Operands
import SqlCompose.Proofs.Scope.Levels
import SqlCompose.Proofs.Compose.Success
import SqlCompose.Proofs.Sql.Operands
import SqlCompose.Proofs.Compose.Commands
import SqlCompose.Proofs.Compose.Tracing
import SqlCompose.Proofs.Compose.Resolution
import SqlCompose.Proofs.Payload.Agreement
import SqlCompose.Proofs.Payload.Blank
import SqlCompose.Proofs.Payload.Composing
import SqlCompose.Proofs.Payload.Mutations
import SqlCompose.Proofs.Payload.Noninterference
import SqlCompose.Proofs.Sql.Boundaries
import SqlCompose.Proofs.Sql.Woven
import SqlCompose.Proofs.Sql.Commands
import SqlCompose.Proofs.Sql.Placeholders
import SqlCompose.Proofs.Scope.Legality
import SqlCompose.Proofs.Sql.Names
import SqlCompose.Proofs.Compose.Naming
import SqlCompose.Proofs.Compose.Parameters
import SqlCompose.Proofs.Conditions.Grammar
import SqlCompose.Proofs.Conditions.Parser
import SqlCompose.Proofs.Conditions.Predicates
import SqlCompose.Proofs.Conditions.Unambiguity
import SqlCompose.Proofs.Conditions.Tokens
import SqlCompose.Proofs.Conditions.Printed
import SqlCompose.Proofs.Conditions.Groups
import SqlCompose.Proofs.Conditions.Criteria
import SqlCompose.Proofs.Conditions.Meaning
import SqlCompose.Proofs.Insert.Batch
import SqlCompose.Proofs.Conditions.PairLists
import SqlCompose.Proofs.Portability.Filters
import SqlCompose.Proofs.Portability.Outcomes
import SqlCompose.Proofs.Portability.Selects
import SqlCompose.Proofs.Portability.Queries
import SqlCompose.Proofs.Like.Escaping
import SqlCompose.Proofs.Compose.Containing
import SqlCompose.Proofs.Like.Statements
import SqlCompose.Proofs.Scope.Numbering
import SqlCompose.Proofs.Scope.Parents
import SqlCompose.Proofs.Scope.Injectivity
import SqlCompose.Proofs.Compose.Lockstep
import SqlCompose.Proofs.Query.Placement
import SqlCompose.Proofs.Query.Meeting
import SqlCompose.Proofs.Insert.Statements
import SqlCompose.Proofs.Upsert.Clauses
import SqlCompose.Proofs.Upsert.Families
import SqlCompose.Proofs.Upsert.Incoming
import SqlCompose.Proofs.Query.Constructs
import SqlCompose.Proofs.Compose.Refusals
import SqlCompose.Proofs.Query.Refusals
import SqlCompose.Proofs.Filter.Erasure
import SqlCompose.Proofs.Filter.Guard
import SqlCompose.Proofs.Insert.Alignment
import SqlCompose.Proofs.Sql.Constructs
import SqlCompose.Proofs.Portability.Support
import SqlCompose.Proofs.Query.References
import SqlCompose.Proofs.Compose.Scoping
import SqlCompose.Proofs.Query.Places
import SqlCompose.Proofs.Sql.Collecting
import SqlCompose.Proofs.Sql.Places
import SqlCompose.Proofs.Compose.Places
import SqlCompose.Proofs.Compose.Widths
import SqlCompose.Proofs.Upsert.Identity
import SqlCompose.Proofs.Upsert.Qualifier
import SqlCompose.Proofs.Insert.Returning
import SqlCompose.Proofs.Table.Lookup
import SqlCompose.Proofs.Like.Fragments
import SqlCompose.Proofs.Compose.Previews
import SqlCompose.Proofs.Scope.Growth
import SqlCompose.Proofs.Query.Filtering
import SqlCompose.Proofs.Query.Binding
import SqlCompose.Proofs.Compose.Binding
import SqlCompose.Proofs.Renaming.Queries
import SqlCompose.Proofs.Renaming.Levels
import SqlCompose.Proofs.Renaming.Outcomes
import SqlCompose.Proofs.Renaming.Composing
import SqlCompose.Proofs.Renaming.Mutations
import SqlCompose.Proofs.Renaming.Building
import SqlCompose.Proofs.Execution.Batches
import SqlCompose.Proofs.Insert.Drafting
import SqlCompose.Proofs.Text.Literals
import SqlCompose.Proofs.Text.Quoting
import SqlCompose.Proofs.Upsert.Ignoring
import SqlCompose.Proofs.Sql.Words
import SqlCompose.Proofs.Sql.Windows
import SqlCompose.Proofs.Sql.Paging
import SqlCompose.Proofs.Compose.Paging
import SqlCompose.Proofs.Value.Literals
import SqlCompose.Proofs.Sql.Literals
import SqlCompose.Proofs.Compose.Literals
import SqlCompose.Proofs.Upsert.Ownership
import SqlCompose.Proofs.Execution.Counts
import SqlCompose.Proofs.Scope.Aliases
import SqlCompose.Proofs.Text.Truncation
