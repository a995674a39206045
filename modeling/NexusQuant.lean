import NexusQuant.Bus.Admission
import NexusQuant.Bus.BullMqBus
import NexusQuant.Bus.RedisBus
import NexusQuant.Control.CleanTrading
import NexusQuant.Control.ExecutionGate
import NexusQuant.Control.IncidentLifecycle
import NexusQuant.Control.KillSwitch
import NexusQuant.Control.Plane
import NexusQuant.Control.Rules
import NexusQuant.Control.VerifiedRecovery
import NexusQuant.Control.Worker
import NexusQuant.Core
import NexusQuant.Execution.Adapters
import NexusQuant.Execution.Allocation
import NexusQuant.Execution.Gate
import NexusQuant.Execution.HardCaps
import NexusQuant.Execution.Netting
import NexusQuant.Execution.Portfolio
import NexusQuant.Execution.Stage
import NexusQuant.Execution.Types
import NexusQuant.ExecutionAdapter.OptIn
import NexusQuant.ExecutionAdapter.Paper
import NexusQuant.ExecutionAdapter.Refinement
import NexusQuant.ExecutionAdapter.Types
import NexusQuant.ExecutionCore.AuditTrail
import NexusQuant.ExecutionCore.Books
import NexusQuant.ExecutionCore.CreateExecution
import NexusQuant.ExecutionCore.Exposure
import NexusQuant.ExecutionCore.FailClosed
import NexusQuant.ExecutionCore.FillLedger
import NexusQuant.ExecutionCore.Lifecycle
import NexusQuant.ExecutionCore.Orders
import NexusQuant.ExecutionCore.Plan
import NexusQuant.ExecutionCore.PlanQuantities
import NexusQuant.ExecutionCore.PositionAccount
import NexusQuant.ExecutionCore.Reducer
import NexusQuant.ExecutionCore.Serialization
import NexusQuant.ExecutionCore.SubmittableTrade
import NexusQuant.ExecutionCore.Types
import NexusQuant.Governance.Actions
import NexusQuant.Governance.Actors
import NexusQuant.Governance.Concurrency
import NexusQuant.Governance.Moves
import NexusQuant.Governance.Register
import NexusQuant.Governance.SerialRuns
import NexusQuant.Governance.Types
import NexusQuant.Ingestion.CandlePaging
import NexusQuant.Ingestion.Candles
import NexusQuant.Ingestion.DataQuality
import NexusQuant.Ingestion.FeatureBridge
import NexusQuant.Ingestion.FeatureFreshness
import NexusQuant.Ingestion.GapCheck
import NexusQuant.Ingestion.Gaps
import NexusQuant.Ingestion.LiveBuffers
import NexusQuant.Ingestion.LiveDrain
import NexusQuant.Ingestion.LiveFeatures
import NexusQuant.Ingestion.LiveSocket
import NexusQuant.Ingestion.LiveUpkeep
import NexusQuant.Ingestion.OpenInterest
import NexusQuant.Ingestion.OptionGrammar
import NexusQuant.Ingestion.OptionInstrument
import NexusQuant.Ingestion.Persistence
import NexusQuant.Ingestion.QualityGate
import NexusQuant.Ingestion.Types
import NexusQuant.Lib.Arithmetic
import NexusQuant.Lib.Base64
import NexusQuant.Lib.Binary64
import NexusQuant.Lib.Calendar
import NexusQuant.Lib.Comparator
import NexusQuant.Lib.DecimalText
import NexusQuant.Lib.Dict
import NexusQuant.Lib.Fallible
import NexusQuant.Lib.FixedWindow
import NexusQuant.Lib.Grouping
import NexusQuant.Lib.IndexedTable
import NexusQuant.Lib.Journal
import NexusQuant.Lib.JsNumber
import NexusQuant.Lib.JsValue
import NexusQuant.Lib.Json
import NexusQuant.Lib.JsonChecks
import NexusQuant.Lib.JsonText
import NexusQuant.Lib.JsonValue
import NexusQuant.Lib.JsonWriter
import NexusQuant.Lib.KeyedLists
import NexusQuant.Lib.Keyset
import NexusQuant.Lib.LiveLoop
import NexusQuant.Lib.LiveMap
import NexusQuant.Lib.Paging
import NexusQuant.Lib.Pattern
import NexusQuant.Lib.ReadCommitted
import NexusQuant.Lib.RetriedWrites
import NexusQuant.Lib.Rounding
import NexusQuant.Lib.Run
import NexusQuant.Lib.Separated
import NexusQuant.Lib.SerialTransaction
import NexusQuant.Lib.Series
import NexusQuant.Lib.Slots
import NexusQuant.Lib.Smoothing
import NexusQuant.Lib.Superlative
import NexusQuant.Lib.Transaction
import NexusQuant.Lib.UniqueIndex
import NexusQuant.Lib.UpsertTable
import NexusQuant.Lib.Utf16
import NexusQuant.Lib.Utf8
import NexusQuant.Market.BookIdentities
import NexusQuant.Market.Broker
import NexusQuant.Market.BrokerCaps
import NexusQuant.Market.BrokerStreams
import NexusQuant.Market.DeribitPayload
import NexusQuant.Market.DeribitTransport
import NexusQuant.Market.DrawdownSeries
import NexusQuant.Market.EventStore
import NexusQuant.Market.FailureAtomicity
import NexusQuant.Market.LabelRecovery
import NexusQuant.Market.Ledgers
import NexusQuant.Market.MarketView
import NexusQuant.Market.Order
import NexusQuant.Market.OrderStream
import NexusQuant.Market.PaperCalls
import NexusQuant.Market.PnlConservation
import NexusQuant.Market.PortfolioLedger
import NexusQuant.Market.QuotePoller
import NexusQuant.Market.QuoteTransport
import NexusQuant.Market.Reconcile
import NexusQuant.Market.Reconciled
import NexusQuant.Market.Recovery
import NexusQuant.Market.Reexecution
import NexusQuant.Market.Restart
import NexusQuant.Market.Stage
import NexusQuant.Market.State
import NexusQuant.Market.TargetConvergence
import NexusQuant.Market.Types
import NexusQuant.Market.VenueOrders
import NexusQuant.Market.VenueReplies
import NexusQuant.Market.VenueStreams
import NexusQuant.Pipeline.Decide
import NexusQuant.Pipeline.Evidence
import NexusQuant.Pipeline.EvidenceChain
import NexusQuant.Pipeline.EvidenceSteps
import NexusQuant.Pipeline.Fingerprint
import NexusQuant.Pipeline.SignalContract
import NexusQuant.Pipeline.SignalStore
import NexusQuant.Pipeline.Tick
import NexusQuant.Pipeline.Validate
import NexusQuant.PortfolioIntelligence.Aggregation
import NexusQuant.PortfolioIntelligence.Allocation
import NexusQuant.PortfolioIntelligence.Book
import NexusQuant.PortfolioIntelligence.Exposure
import NexusQuant.PortfolioIntelligence.Facts
import NexusQuant.PortfolioIntelligence.Heat
import NexusQuant.PortfolioIntelligence.HeatLaws
import NexusQuant.PortfolioIntelligence.Statistics
import NexusQuant.PortfolioIntelligence.Superlatives
import NexusQuant.PortfolioIntelligence.SymbolTotals
import NexusQuant.PortfolioIntelligence.Types
import NexusQuant.PortfolioIntelligence.Warnings
import NexusQuant.Quant.CoreTechnical
import NexusQuant.Quant.FeatureVector
import NexusQuant.Quant.IndicatorLaws
import NexusQuant.Risk.Approval
import NexusQuant.Risk.Engine
import NexusQuant.Risk.EventStore
import NexusQuant.Risk.ExecutionGate
import NexusQuant.Risk.Gate
import NexusQuant.Risk.HaltRecovery
import NexusQuant.Risk.LiveState
import NexusQuant.Risk.Sizer
import NexusQuant.Risk.Types
import NexusQuant.Runtime.ArmedWorker
import NexusQuant.Runtime.ClearedOrders
import NexusQuant.Runtime.StageRefinement
import NexusQuant.Signal.Engine
import NexusQuant.Signal.Mirror
import NexusQuant.Signal.Replay
import NexusQuant.Signal.Rule
import NexusQuant.TradingDecision.Decision
import NexusQuant.TradingDecision.OpportunityBoard
import NexusQuant.TradingDecision.Ranking
import NexusQuant.TradingDecision.SignalRule
import NexusQuant.TradingDecision.Types
import NexusQuant.TradingPlan.Plan
import NexusQuant.Web.AlertReconciliation
import NexusQuant.Web.GovernanceConsole
import NexusQuant.Web.LoginBounds
import NexusQuant.Web.LoginRateLimit
import NexusQuant.Web.OperatorAuthentication
import NexusQuant.Web.OperatorRegistry
import NexusQuant.Web.OpsAlerts
import NexusQuant.Web.PollOrder
import NexusQuant.Web.PolledResource
import NexusQuant.Web.RedisReplies
import NexusQuant.Web.ReplyChunks
import NexusQuant.Web.Session
import NexusQuant.Web.SessionAdmission
import NexusQuant.Web.SignalStream
import NexusQuant.Web.StreamDelivery
