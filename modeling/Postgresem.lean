import Postgresem.Foundation.Control
import Postgresem.Foundation.Coupling
import Postgresem.Foundation.OrderedSet
import Postgresem.Foundation.OrderedMap
import Postgresem.Foundation.Named
import Postgresem.Foundation.Text
import Postgresem.Foundation.Template
import Postgresem.Foundation.Lexing
import Postgresem.Foundation.Json
import Postgresem.Foundation.JsonNumber
import Postgresem.Foundation.JsonReader
import Postgresem.Foundation.JsonRoundTrip
import Postgresem.Foundation.Sha256
import Postgresem.Foundation.Hmac
import Postgresem.Foundation.Locking
import Postgresem.Relational.Grouping
import Postgresem.Relational.Join
import Postgresem.Relational.Kleene
import Postgresem.Semantic.Literal
import Postgresem.Semantic.Snapshot
import Postgresem.Semantic.Json
import Postgresem.Semantic.Value
import Postgresem.Semantic.Diff
import Postgresem.Semantic.DiffReport
import Postgresem.Semantic.Serialization
import Postgresem.Semantic.Canonical
import Postgresem.Query.Lsq
import Postgresem.Query.Normalize
import Postgresem.Compiler.Requirement
import Postgresem.Compiler.Validate
import Postgresem.Compiler.Resolution
import Postgresem.Compiler.Render
import Postgresem.Sql.Syntax
import Postgresem.Sql.Writing
import Postgresem.Sql.Erasure
import Postgresem.Sql.Semantics
import Postgresem.Compiler.Lower
import Postgresem.Compiler.Emission
import Postgresem.Compiler.Statement
import Postgresem.Compiler.Identifiers
import Postgresem.Compiler.Lineage
import Postgresem.Compiler.Agreement
import Postgresem.Compiler.Concealment
import Postgresem.Compiler.DiffSoundness
import Postgresem.Compiler.Interference
import Postgresem.Compiler.Meaning
import Postgresem.Compiler.Refinement
import Postgresem.Compiler.Fanout
import Postgresem.Compiler.Equality
import Postgresem.Compiler.Revision
import Postgresem.Compiler.DiffRevision
import Postgresem.Foundation.ReadCommitted
import Postgresem.Mutation.Lsm
import Postgresem.Mutation.Compile
import Postgresem.Mutation.Canonical
import Postgresem.Mutation.Indexing
import Postgresem.Mutation.Store
import Postgresem.Mutation.Claim
import Postgresem.Mutation.Transaction
import Postgresem.Mutation.Invariant
import Postgresem.Mutation.ExactlyOnce
import Postgresem.Mutation.AuditTrail
import Postgresem.Mutation.Reconcile
import Postgresem.Mutation.Execute
import Postgresem.Mutation.Outcome
import Postgresem.Registry.Revision
import Postgresem.Registry.Immutability
import Postgresem.Execution.Config
import Postgresem.Gateway.Authority
import Postgresem.Gateway.Authenticate
import Postgresem.Gateway.Principal
import Postgresem.Gateway.Bounds
import Postgresem.Mutation.Cells
import Postgresem.Compiler.DiffCompleteness
import Postgresem.Foundation.Placeholders
import Postgresem.Sql.Casts
import Postgresem.Compiler.Parameters
import Postgresem.Execution.Wrapper
import Postgresem.Execution.ResultRows
import Postgresem.Compiler.WellTyped
import Postgresem.Catalog.Snapshot
import Postgresem.Catalog.Evidence
import Postgresem.Catalog.Diff
import Postgresem.Catalog.Objects
import Postgresem.Catalog.Completeness
import Postgresem.Foundation.Precedence
import Postgresem.Sql.Reading
import Postgresem.Relational.Logic
import Postgresem.Compiler.FilterText
import Postgresem.Foundation.Failing
import Postgresem.Compiler.Blame
import Postgresem.Authoring.Scaffold
import Postgresem.Authoring.Grounding
import Postgresem.Foundation.JsonSchema
import Postgresem.Foundation.Paging
import Postgresem.Foundation.Usize
import Postgresem.Gateway.Listing
import Postgresem.Gateway.TokenTime
import Postgresem.Foundation.TokenBucket
import Postgresem.Gateway.RateLimit
import Postgresem.Gateway.Discovery
import Postgresem.Mutation.Policy
import Postgresem.Mutation.Roles
import Postgresem.Foundation.Trim
import Postgresem.Osi.MetricExpression
import Postgresem.Execution.Truncation
import Postgresem.Osi.Document
import Postgresem.Osi.Import
import Postgresem.Foundation.Edits
import Postgresem.Osi.Declarations
import Postgresem.Osi.Simulation
import Postgresem.Osi.Order
import Postgresem.Gateway.Confinement
import Postgresem.Foundation.JsonBytes
import Postgresem.Semantic.Evaluation
import Postgresem.Foundation.Lines
import Postgresem.Gateway.Stdio
import Postgresem.Query.Limits
import Postgresem.Foundation.Grammar
import Postgresem.Semantic.LiteralGrammar
import Postgresem.Foundation.Decimal
import Postgresem.Gateway.Bearer
import Postgresem.Foundation.Percent
import Postgresem.Gateway.Resources
import Postgresem.Gateway.ModernRequest
import Postgresem.Foundation.JsonDecoding
import Postgresem.Query.Decoding
import Postgresem.Query.Idempotence
import Postgresem.Mutation.Decoding
import Postgresem.Mutation.Idempotence
import Postgresem.Execution.Execute
import Postgresem.Execution.QueryAudit
import Postgresem.Foundation.JsonGrammar
import Postgresem.Foundation.JsonCollapse
import Postgresem.Gateway.Dispatch
import Postgresem.Mutation.Duplicates
import Postgresem.Gateway.EntryPaths
import Postgresem.Query.Strictness
import Postgresem.Mutation.Strictness
import Postgresem.Semantic.Decoding
import Postgresem.Osi.Export
import Postgresem.Osi.Tidy
import Postgresem.Osi.Gathering
import Postgresem.Osi.RoundTrip
import Postgresem.Foundation.Pool
import Postgresem.Gateway.Admission
import Postgresem.Gateway.Cancellation
