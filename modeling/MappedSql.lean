import MappedSql.Action
import MappedSql.Argument
import MappedSql.Bound
import MappedSql.Cache
import MappedSql.Cache.Key
import MappedSql.Cache.Options
import MappedSql.Cache.Overlay
import MappedSql.Cache.Pool
import MappedSql.Choice
import MappedSql.Configuration
import MappedSql.Driver
import MappedSql.Driver.Faults
import MappedSql.Driver.Scripted
import MappedSql.Entries
import MappedSql.Error
import MappedSql.Executor
import MappedSql.Executor.Batch
import MappedSql.Executor.Channel
import MappedSql.Executor.Pool
import MappedSql.Executor.Strategy
import MappedSql.Executor.Worker
import MappedSql.Expression
import MappedSql.Expression.Order
import MappedSql.Expression.Token
import MappedSql.Handler
import MappedSql.Hash.SipHash
import MappedSql.Json
import MappedSql.Json.Document
import MappedSql.Json.Record
import MappedSql.Number.Double
import MappedSql.Number.Layout
import MappedSql.Number.Shortest
import MappedSql.Parameter
import MappedSql.Path
import MappedSql.Placeholder
import MappedSql.Placeholder.Resolve
import MappedSql.ResultSet
import MappedSql.RowBounds
import MappedSql.Scope
import MappedSql.Session
import MappedSql.Settings
import MappedSql.Statement
import MappedSql.Template
import MappedSql.Template.Context
import MappedSql.Template.Loop
import MappedSql.Template.Node
import MappedSql.Template.Trim
import MappedSql.Text.Blank
import MappedSql.Text.Delimited
import MappedSql.Text.LetterCase
import MappedSql.Text.Letters
import MappedSql.Text.Numeral
import MappedSql.Text.Pattern
import MappedSql.Text.Pattern.Reader
import MappedSql.Text.Ranges
import MappedSql.Timestamp
import MappedSql.Transaction
import MappedSql.Value
import MappedSql.Value.Storage
import MappedSql.Value.Tagged
import MappedSql.ValueType
import MappedSql.Proofs.EqualKeys
import MappedSql.Proofs.CacheKeys
import MappedSql.Proofs.CacheContent
import MappedSql.Proofs.OverlayReplay
import MappedSql.Proofs.TransactionReplay
import MappedSql.Proofs.Ledger
import MappedSql.Proofs.Executions
import MappedSql.Proofs.WorkerCalls
import MappedSql.Proofs.OverlayContent
import MappedSql.Proofs.ExecutorCalls
import MappedSql.Proofs.SessionCalls
import MappedSql.Proofs.Publication
import MappedSql.Proofs.Staleness
import MappedSql.Proofs.CallRules
import MappedSql.Proofs.Requests
import MappedSql.Proofs.HandleLog
import MappedSql.Proofs.Desks
import MappedSql.Proofs.DeskBatches
import MappedSql.Proofs.Serving
import MappedSql.Proofs.WorkersOnDesks
import MappedSql.Proofs.Watching
import MappedSql.Proofs.Recordings
import MappedSql.Proofs.PendingUpdates
import MappedSql.Proofs.Twins
import MappedSql.Proofs.Deferral
import MappedSql.Proofs.Books
import MappedSql.Proofs.Transparency
import MappedSql.Proofs.Lockstep
import MappedSql.Proofs.DirectExecution
import MappedSql.Proofs.StatementReuse
import MappedSql.Proofs.CleanSessions
import MappedSql.Proofs.ClosedExecutors
import MappedSql.Proofs.ClosedSessions
import MappedSql.Proofs.LiteralTemplates
import MappedSql.Proofs.Decisions
import MappedSql.Proofs.Expansion
import MappedSql.Proofs.Grammar
import MappedSql.Proofs.Eviction
import MappedSql.Proofs.FailedBatches
import MappedSql.Proofs.LocalCaches
import MappedSql.Proofs.Occurrences
import MappedSql.Proofs.Spans
import MappedSql.Proofs.Escapes
import MappedSql.Proofs.Reassembly
import MappedSql.Proofs.Slices
import MappedSql.Proofs.Scanning
import MappedSql.Proofs.Characters
import MappedSql.Proofs.Markers
import MappedSql.Proofs.Rereading
import MappedSql.Proofs.RenamedBodies
import MappedSql.Proofs.Substitutions
import MappedSql.Proofs.Appending
import MappedSql.Proofs.TakingBack
import MappedSql.Proofs.Connectives
import MappedSql.Proofs.Clauses
import MappedSql.Proofs.FreedNames
import MappedSql.Proofs.PrintedPlaceholders
import MappedSql.Proofs.OptionsByName
import MappedSql.Proofs.PrintedTokens
import MappedSql.Proofs.PathSteps
import MappedSql.Proofs.DeclaredProperties
import MappedSql.Proofs.SharedNames
