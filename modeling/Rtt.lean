import Rtt.SnapshotSafety
import Rtt.ObservationOrder
import Rtt.CommandEffects
import Rtt.Convergence
import Rtt.AntiThrash
import Rtt.FillExposure
import Rtt.ClobExecutor
import Rtt.ExecutionLoop
import Rtt.BreakerThreads
import Rtt.PartialMap
import Rtt.PublicEvent
import Rtt.MarketMessages
import Rtt.DecimalOrder
import Rtt.OrderBook
import Rtt.BookReplay
import Rtt.HotState
import Rtt.SourceIsolation
import Rtt.TopOfBook
import Rtt.LadderBest
import Rtt.MarketPaths
import Rtt.CellHistory
import Rtt.HotHistory
import Rtt.NoticeVersions
import Rtt.StrategyContract
import Rtt.StrategyRuntime
import Rtt.CompanionState
import Rtt.Backtest
import Rtt.ReplayTriggers
import Rtt.PriceDecisions
import Rtt.Feed
import Rtt.FeedReconnect
import Rtt.WsClient
import Rtt.TraceOrder
import Rtt.ReconnectSignals
import Rtt.FeedBooks
import Rtt.LossyChannel
import Rtt.LaggedFeed
import Rtt.InventoryUnits
import Rtt.ListShares
import Rtt.SubscriptionPlan
import Rtt.EditQueue
import Rtt.SubscriptionProtocol
import Rtt.FeedManager
import Rtt.PartialBooks
import Rtt.TickConsistency
import Rtt.TickPersistence
import Rtt.Registry
import Rtt.RegistryPagination
import Rtt.RegistryRefresh
import Rtt.ConcurrentRefresh
import Rtt.ClobOrder
import Rtt.SignedAmounts
import Rtt.ParserAgreement
import Rtt.UsdCap
import Rtt.ExactCap
import Rtt.SlidingWindow
import Rtt.CommandThrottle
import Rtt.RateWindow
import Rtt.RecordEvents
import Rtt.RecordTimeouts
import Rtt.CanonicalPlan
import Rtt.ViewCompleteness
import Rtt.EmptyLevels
import Rtt.PriceIdentity
import Rtt.FrameParsing
import Rtt.ReconnectBackoff
import Rtt.ShardStability
import Rtt.ManagerAgreement
import Rtt.PageTermination
import Rtt.OutcomeTokens
import Rtt.DispatchTimes
import Rtt.RequestTemplate
import Rtt.ScaledFormat
import Rtt.MidpointRange
import Rtt.ConnectionPool
import Rtt.PoolRuns
import Rtt.PoolSenders
import Rtt.PoolResults
import Rtt.RelayLink
import Rtt.TriggerFlow
import Rtt.FlowRuns
import Rtt.DispatchOnce
import Rtt.BinaryFloat
import Rtt.OrderStatistics
import Rtt.Benchmark
import Rtt.ExecutorState
import Rtt.ExecutorTimes
import Rtt.RestartCaps
import Rtt.OrderWire
import Rtt.PresignedRotation
import Rtt.UniverseRuns
import Rtt.FlowShutdown
import Rtt.QuoteViews
import Rtt.ReferenceHistory
import Rtt.ThresholdExecution
