import Flowness.Ledger.RecoveryTail
import Flowness.Ledger.Durability
import Flowness.Snapshot.SequenceDiscipline
import Flowness.Snapshot.LeaseProtection
import Flowness.Snapshot.CrashConvergence
import Flowness.CommitGate.EdgeTargets
import Flowness.CommitGate.FreshnessWindow
import Flowness.CommitGate.LiveTarget
import Flowness.CommitGate.RedLines
import Flowness.CommitGate.WriteLocks
import Flowness.Snapshot.Restore
import Flowness.OssHarness.AdmissionBudget
import Flowness.OssHarness.LedgerCrash
import Flowness.CommitGate.FencingCheck
import Flowness.Sessions.SessionOwnership
import Flowness.Snapshot.SettledEnvelopes
import Flowness.Snapshot.ConsolidationLimits
import Flowness.Release.JuryBacking
import Flowness.Release.Requirements
import Flowness.Release.ReportOrder
import Flowness.Ledger.LazyReads
import Flowness.FsGuard.DeletionGuard
import Flowness.PublicLedger.TypeProjection
import Flowness.PublicLedger.Receipts
import Flowness.OssHarness.ReconcileLossless
import Flowness.Planning.UnlockedWork
import Flowness.Planning.CommittedPlan
import Flowness.Awareness.ReconcileCrash
import Flowness.Snapshot.SplitVisibility
import Flowness.Projection.CouplingBackfill
import Flowness.Ledger.TypeScan
import Flowness.Projection.TolerantDrops
import Flowness.Reflow.Closes
import Flowness.OssHarness.ReworkRefused
import Flowness.Planning.DispatchBatch
import Flowness.Projection.FindingLifecycle
import Flowness.CommitGate.LookAhead
import Flowness.CommitGate.RetiredPremise
import Flowness.CommitGate.ObligationDefinition
import Flowness.CommitGate.ConceptEdges
import Flowness.OssHarness.ImpactReviewCoverage
import Flowness.CommitGate.CommitWriteSet
import Flowness.CommitGate.ClosureVerification
import Flowness.CommitGate.WorkComplete
import Flowness.Projection.ConsensusQuery
import Flowness.Projection.BlastRadius
import Flowness.Snapshot.DryRun
import Flowness.CommitGate.SupersedeResponses
