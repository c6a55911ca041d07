import SignalFoundry.Backtesting.EventEngine.Lineage
import SignalFoundry.Backtesting.EventEngine.Orders
import SignalFoundry.Backtesting.EventEngine.Halt
import SignalFoundry.Backtesting.EventEngine.Recovery
import SignalFoundry.Backtesting.EventEngine.Submission
import SignalFoundry.Backtesting.Ledger.Marking
import SignalFoundry.Backtesting.Ledger.Targets
import SignalFoundry.Execution.OrderBook.Invariant
import SignalFoundry.Execution.OrderBook.Parity
import SignalFoundry.Execution.OrderBook.Priority
import SignalFoundry.Foundry.Research.FailedCancel
import SignalFoundry.Foundry.Trading.ReplayCash
import SignalFoundry.Foundry.Trading.RequestBudget
import SignalFoundry.Lattice.Shadow.FirstEligible
import SignalFoundry.Lattice.Shadow.Schedules
import SignalFoundry.Lattice.Tracking.CursorRoundTrip
import SignalFoundry.Lattice.Tracking.LeaseSafety
import SignalFoundry.Lattice.Tracking.Requests
import SignalFoundry.Lattice.Data.Bitemporal
import SignalFoundry.Lattice.Data.Identity
import SignalFoundry.Lattice.Governance.CohortContent
import SignalFoundry.Lattice.Governance.Promotion
import SignalFoundry.Lattice.Governance.Idempotency
import SignalFoundry.Lattice.Governance.Verifiers
import SignalFoundry.Lattice.Service.Admission
import SignalFoundry.AlphaForge.Broker.Reconciliation
import SignalFoundry.AlphaForge.Broker.ReplayedFills
import SignalFoundry.AlphaForge.Broker.Fills
import SignalFoundry.AlphaForge.Capacity.Runs
import SignalFoundry.AlphaForge.Capacity.Resolution
import SignalFoundry.AlphaForge.Capacity.BuyInReplay
import SignalFoundry.AlphaForge.Distributed.Writers
import SignalFoundry.AlphaForge.Distributed.Admission
import SignalFoundry.AlphaForge.ResearchLedger.Registrations
import SignalFoundry.AlphaForge.Training.Leakage
import SignalFoundry.AlphaForge.Training.TemporalFolds
import SignalFoundry.AlphaForge.Training.Windows
import SignalFoundry.Library.FirstClose
import SignalFoundry.AlphaForge.Data.SourceFrame
import SignalFoundry.AlphaForge.Data.Panels
import SignalFoundry.AlphaForge.Data.DecisionPanel
import SignalFoundry.Library.BenjaminiHochberg
import SignalFoundry.Library.ExactFloat
import SignalFoundry.AlphaForge.ResearchLedger.Corrections
import SignalFoundry.AlphaForge.ResearchLedger.Evidence
import SignalFoundry.AlphaForge.ResearchLedger.AcceptedCalls
import SignalFoundry.Lattice.Models.Splits
import SignalFoundry.AlphaForge.Execution.LatencyAgreement
import SignalFoundry.AlphaForge.Portfolio.Selection
import SignalFoundry.AlphaForge.Portfolio.UncertaintySizing
import SignalFoundry.AlphaForge.Labels.DeclaredFuture
import SignalFoundry.AlphaForge.Portfolio.ConstructionRuns
import SignalFoundry.AlphaForge.Portfolio.Convergence
import SignalFoundry.AlphaForge.Decision.Monotone
import SignalFoundry.AlphaForge.Regimes.ExactPosterior
import SignalFoundry.AlphaForge.Regimes.Segmentation
import SignalFoundry.Lattice.Features.Partitions
