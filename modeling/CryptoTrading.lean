import CryptoTrading.Health.Recovery
import CryptoTrading.Health.Permissions
import CryptoTrading.Health.FatalConditions
import CryptoTrading.Protection.Drawdown
import CryptoTrading.Protection.Reservations
import CryptoTrading.Protection.Exposure
import CryptoTrading.Orders.Intents
import CryptoTrading.Orders.TradingCycles
import CryptoTrading.Backtest.ExecutionEngine
import CryptoTrading.Backtest.Runner
import CryptoTrading.Backtest.OrderOutcomes
import CryptoTrading.Backtest.Solvency
import CryptoTrading.Backtest.SessionIsolation
import CryptoTrading.Backtest.LaterSessions
import CryptoTrading.Session.CashFlow
import CryptoTrading.Session.PositionReconciler
import CryptoTrading.Session.UnrealizedPnl
import CryptoTrading.Session.LotMatching
import CryptoTrading.Session.ActiveHoldings
import CryptoTrading.Vcs.MergeIdentity
import CryptoTrading.Vcs.MergeSoundness
import CryptoTrading.Vcs.MergeBase
import CryptoTrading.Vcs.FastForward
import CryptoTrading.Vcs.MainAliases
import CryptoTrading.Vcs.BranchTips
import CryptoTrading.Vcs.CommitPreimage
import CryptoTrading.Vcs.DiffExchange
import CryptoTrading.Expressions.Evaluation
import CryptoTrading.Expressions.StrictValidation
import CryptoTrading.Expressions.InferredTypes
import CryptoTrading.Consensus.Manager
import CryptoTrading.Experiments.Candidates
import CryptoTrading.Experiments.PromotionPolicy
import CryptoTrading.Experiments.SimulatedRuns
import CryptoTrading.Experiments.Promotion
import CryptoTrading.Experiments.PromotionKeys
import CryptoTrading.Agent.Approvals
import CryptoTrading.Agent.ProposedChanges
import CryptoTrading.Agent.ApprovalCommits
import CryptoTrading.Protection.ReservedCash
import CryptoTrading.Reconciliation.FailedChecks
import CryptoTrading.Accounts.Convergence
import CryptoTrading.Accounts.Snapshots
import CryptoTrading.Orders.ExecutedQuantity
import CryptoTrading.Analytics.TradeAttribution
import CryptoTrading.Analytics.TradingWindows
import CryptoTrading.Analytics.WindowMembership
import CryptoTrading.Trading.HotReload
import CryptoTrading.Trading.FailedUpdate
import CryptoTrading.Trading.Indicators
import CryptoTrading.Retention.Loosening
import CryptoTrading.Retention.DurablePolicies
import CryptoTrading.Retention.Preview
import CryptoTrading.Persistence.RoundTrip
import CryptoTrading.Agent.RestartedProjector
import CryptoTrading.Backtest.Leases
import CryptoTrading.Backtest.RunDiscipline
import CryptoTrading.Backtest.QueuedConfiguration
import CryptoTrading.Proposals.ComparedEvidence
import CryptoTrading.Backtest.MaxDrawdown
import CryptoTrading.Backtest.TradingBehavior
import CryptoTrading.Recorder.MarketDataStore
import CryptoTrading.WalkForward.TimestampUnits
import CryptoTrading.Reconciliation.Pauses
import CryptoTrading.Protection.InheritedLimits
import CryptoTrading.Timeline.TimelineProjector
import CryptoTrading.Backtest.Warmup
import CryptoTrading.Datasets.LoadBack
import CryptoTrading.Exchange.FedChannels
import CryptoTrading.Markets.Reads
import CryptoTrading.Activity.StarvationWatchdog
import CryptoTrading.Trading.CommittedCash
import CryptoTrading.Lib.Shortfall
import CryptoTrading.Performance.LotMatching
import CryptoTrading.Performance.SessionTrades
import CryptoTrading.Performance.Report
import CryptoTrading.Events.StreamAccount
import CryptoTrading.Agent.Automation
import CryptoTrading.Metrics.TimeSeries
import CryptoTrading.Trading.TradeGuards
