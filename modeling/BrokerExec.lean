import BrokerExec.Lib.Bytes
import BrokerExec.Lib.Utf8
import BrokerExec.Domain.Utf8
import BrokerExec.Json.Text
import BrokerExec.Json.Reader
import BrokerExec.IntentLog.Sha256
import BrokerExec.Domain.Types
import BrokerExec.IntentLog.Record
import BrokerExec.IntentLog.Log
import BrokerExec.IntentLog.Recovery
import BrokerExec.Lib.Process
import BrokerExec.Lib.Table
import BrokerExec.Lifecycle
import BrokerExec.Idempotency
import BrokerExec.Runtime.Dispatcher
import BrokerExec.Runtime.AtMostOnce
import BrokerExec.Runtime.Terminal
import BrokerExec.Domain.Redaction
import BrokerExec.Ledger.Chain
import BrokerExec.Ledger.Checkpoint
import BrokerExec.Ledger.TamperEvidence
import BrokerExec.Ledger.Durability
import BrokerExec.Reconcile.Reconciler
import BrokerExec.Reconcile.Agreement
import BrokerExec.Reconcile.Recovery
import BrokerExec.Runtime.UnknownResolver
import BrokerExec.Lib.TopoSort
import BrokerExec.Options.Basket
import BrokerExec.Lib.Run
import BrokerExec.Lifecycle.History
import BrokerExec.Runtime.Visibility
import BrokerExec.BrokerReason
import BrokerExec.Adapters.Http
import BrokerExec.Adapters.Reconciled
import BrokerExec.Adapters.Kite.RestClient
import BrokerExec.Adapters.Kotak.Errors
import BrokerExec.Adapters.Kotak.RestClient
import BrokerExec.Adapters.Ambiguity
import BrokerExec.Domain.DecimalGrammar
import BrokerExec.Domain.DecimalPaise
import BrokerExec.FillNorm
import BrokerExec.Adapters.SquareOffExit
import BrokerExec.Adapters.Flatten
import BrokerExec.Adapters.Kite.Wire
import BrokerExec.Adapters.Kite.SquareOff
import BrokerExec.Adapters.Kite.OneExit
import BrokerExec.Adapters.Kotak.Wire
import BrokerExec.Adapters.Kotak.SquareOff
import BrokerExec.Adapters.Kotak.OverExit
import BrokerExec.Adapters.Evidence
import BrokerExec.Adapters.FillRace
import BrokerExec.Adapters.OrderView
import BrokerExec.Adapters.Kite.FetchOrders
import BrokerExec.Adapters.Kotak.FetchOrders
import BrokerExec.Adapters.RowReadings
import BrokerExec.Adapters.FillReport
import BrokerExec.Runtime.KnownFill
import BrokerExec.RateLimiter
import BrokerExec.StrategyBook
import BrokerExec.Modes.Posture
import BrokerExec.Modes.KillSwitch
import BrokerExec.Composition.ScopedPosture
import BrokerExec.Modes.KillDurability
import BrokerExec.Lib.Moment
import BrokerExec.Runtime.WriteAhead
import BrokerExec.Domain.Instrument
import BrokerExec.Risk.RiskEngine
import BrokerExec.Risk.FundsView
import BrokerExec.PriceBand
import BrokerExec.MarginSafety
import BrokerExec.SessionGuard
import BrokerExec.ModifyGuard
import BrokerExec.Risk.ValidationGate
import BrokerExec.Lib.Except
import BrokerExec.Composition.EngineAssembly
import BrokerExec.Composition.ExitIsolation
import BrokerExec.Composition.ModifyBypass
import BrokerExec.Lib.Checked
import BrokerExec.Lib.Disk
import BrokerExec.Secrets.TokenStore
import BrokerExec.Platform.LockPayload
import BrokerExec.Platform.FileLock
import BrokerExec.Platform.LockExclusion
import BrokerExec.Accounts.CachePaths
import BrokerExec.Accounts.SharedCache
import BrokerExec.Accounts.CacheSound
import BrokerExec.Platform.FreshLock
import BrokerExec.Accounts.FetchOnce
import BrokerExec.Lib.Binding
import BrokerExec.Adapters.Kotak.Correlation
import BrokerExec.Lib.Nearest
import BrokerExec.Lib.Segments
import BrokerExec.Idempotency.Signature
import BrokerExec.Lib.Tally
import BrokerExec.StrategyBook.Isolation
import BrokerExec.Options.Preflight
import BrokerExec.Lib.Munch
import BrokerExec.Lib.Edits
import BrokerExec.Lib.Tokens
import BrokerExec.Domain.ScrubEdits
import BrokerExec.Domain.ScrubPieces
import BrokerExec.Domain.ScrubIdempotent
import BrokerExec.Domain.ScrubSecrets
import BrokerExec.Domain.ProvenanceBlock
import BrokerExec.Domain.StrategyName
import BrokerExec.Idempotency.ClientRefs
import BrokerExec.Domain.Money
import BrokerExec.Lib.FixedWidth
import BrokerExec.Slicing.FreezeSlicer
import BrokerExec.Slicing.Verdict
import BrokerExec.Lib.FirstOf
import BrokerExec.Slicing.Dispatch
import BrokerExec.Runtime.ModifyProjection
import BrokerExec.Risk.ExactLimits
import BrokerExec.Composition.ArmedLimits
import BrokerExec.Composition.ClampedExit
import BrokerExec.MarginSafety.Buffer
import BrokerExec.Lib.CappedDoubling
import BrokerExec.RateLimit.CircuitBreaker
import BrokerExec.RateLimit.EndpointLimiter
import BrokerExec.RateLimit.EndpointRuns
import BrokerExec.RateLimit.TokenModel
import BrokerExec.Runtime.ResolvedRows
import BrokerExec.Lifecycle.ParentFold
import BrokerExec.Reconcile.RefPrecedence
import BrokerExec.Reconcile.ManualIntervention
import BrokerExec.Adapters.Kite.Counts
import BrokerExec.Adapters.BookReads
import BrokerExec.Adapters.Kite.FetchBooks
import BrokerExec.Adapters.Kotak.FetchBooks
import BrokerExec.Adapters.BookFacts
import BrokerExec.Lib.CivilDate
import BrokerExec.Refdata.TradingCalendar
import BrokerExec.Options.SlicedLeg
import BrokerExec.IntentLog.ReplayExact
import BrokerExec.Adapters.Kotak.Labels
import BrokerExec.Adapters.Kotak.ScrubAgain
import BrokerExec.Adapters.Kotak.TwoPasses
import BrokerExec.Adapters.Kotak.LabelledValues
import BrokerExec.IntentLog.Preimage
import BrokerExec.Adapters.Kotak.Frames
import BrokerExec.Supervisor.Policy
import BrokerExec.Supervisor.Plan
import BrokerExec.Supervisor.Gate
import BrokerExec.Lib.Since
import BrokerExec.FeedSub.ResubscribeGuard
import BrokerExec.Lib.Csv
import BrokerExec.Refdata.InstrumentCsv
import BrokerExec.Refdata.InstrumentSheet
import BrokerExec.Refdata.InstrumentMaster
import BrokerExec.Lib.Words
import BrokerExec.Json.Nested
import BrokerExec.Observability.AuditEvent
import BrokerExec.Domain.ScrubCuts
import BrokerExec.Observability.StructuredLogger
import BrokerExec.Observability.Sentinels
import BrokerExec.Observability.Provenance
import BrokerExec.Lib.Automaton
import BrokerExec.Json.Spot
import BrokerExec.Json.Scrubbed
import BrokerExec.Json.Dumped
import BrokerExec.Observability.AuditLine
import BrokerExec.Lib.Transaction
import BrokerExec.Store.Schema
import BrokerExec.Store.Migrations
import BrokerExec.Store.Calls
import BrokerExec.Store.Projection
import BrokerExec.Store.Lives
import BrokerExec.Store.Acknowledged
import BrokerExec.Options.HedgeFirst
import BrokerExec.Marketdata.View
import BrokerExec.Clock.SkewStall
import BrokerExec.Protection.StopSupervisor
import BrokerExec.Accounts.DataDir
import BrokerExec.Capabilities
import BrokerExec.Composition.BrokerFactory
import BrokerExec.Config.Toml
import BrokerExec.Config.Load
import BrokerExec.Config.Layers
import BrokerExec.Config.Refusals
import BrokerExec.Cli.HealthSnapshot
import BrokerExec.Lib.Attempt
import BrokerExec.Session.SafeStart
import BrokerExec.Boot.Checks
import BrokerExec.Boot.Sequence
import BrokerExec.Boot.Cleared
import BrokerExec.Boot.Gate
import BrokerExec.Boot.Verdict
import BrokerExec.Boot.Entrypoint
import BrokerExec.Adapters.Kotak.Session
import BrokerExec.Adapters.Kotak.SessionSecrets
import BrokerExec.Alerting.AlertSink
import BrokerExec.Observability.DailyReport
import BrokerExec.Observability.ReconciliationReport
