import EventKernel.Coverage.Report
import EventKernel.Exploration.Choice
import EventKernel.Exploration.Seeded
import EventKernel.Json.Reader
import EventKernel.Proofs.AgendaRefinement
import EventKernel.Proofs.CausalityLimits
import EventKernel.Proofs.HandleFinality
import EventKernel.Proofs.MessageConservation
import EventKernel.Settings.Location
import EventKernel.Simulation.Machine
import EventKernel.Simulation.Start
import EventKernel.Proofs.LaneChart
import EventKernel.Proofs.OwnerOrder
import EventKernel.Proofs.Bookkeeping
import EventKernel.Proofs.BookkeepingRuns
import EventKernel.Proofs.CallbackAccounts
import EventKernel.Proofs.CallbackRuns
import EventKernel.Proofs.Bearings
import EventKernel.Proofs.CancellationPolicy
import EventKernel.Proofs.LookaheadDirection
import EventKernel.Proofs.StrategyIndependence
import EventKernel.Proofs.OwnClocks
import EventKernel.Proofs.GlobalTime
import EventKernel.Proofs.ListPolicyIndependence
import EventKernel.Proofs.CancelledBarriers
import EventKernel.Proofs.QueueReplacement
import EventKernel.Proofs.BranchTermination
import EventKernel.Proofs.DrainedQueues
import EventKernel.Proofs.DocumentRoundTrip
import EventKernel.Proofs.ParcelLedger
import EventKernel.Proofs.RemoteRequests
import EventKernel.Proofs.Interruptions
import EventKernel.Proofs.PathReduction
import EventKernel.Proofs.CreditAccounts
import EventKernel.Proofs.DeadlockFallback
import EventKernel.Proofs.PeekedQueues
import EventKernel.Proofs.PerturbationWindow
import EventKernel.Proofs.RefusedInsertions
import EventKernel.Proofs.ShortestPaths
import EventKernel.Proofs.UnknownSenders
import EventKernel.Proofs.DecodedConfigurations
import EventKernel.Proofs.CallbackContexts
import EventKernel.Proofs.DestroyPhase
import EventKernel.Proofs.NamedRemovals
import EventKernel.Proofs.CoverageCounts
import EventKernel.Proofs.CoverageTexts
import EventKernel.Proofs.NestedInvariant
import EventKernel.Proofs.SettingsConversion
import EventKernel.Proofs.LanePlacement
