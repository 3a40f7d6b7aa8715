import SplitBrainFabric.Lineage
import SplitBrainFabric.QuorumAgreement
import SplitBrainFabric.EffectBoundary
import SplitBrainFabric.Issuance
import SplitBrainFabric.Replay
import SplitBrainFabric.JournalRecovery
import SplitBrainFabric.Capacity
import SplitBrainFabric.Framing
import SplitBrainFabric.Audit
import SplitBrainFabric.LogReopen
import SplitBrainFabric.PolicyRecovery
import SplitBrainFabric.EffectRuns
import SplitBrainFabric.AuditRuns
import SplitBrainFabric.LogicalTime
import SplitBrainFabric.OfflineAudit
import SplitBrainFabric.Neighbours
import SplitBrainFabric.Connection
import SplitBrainFabric.WitnessServer
import SplitBrainFabric.EvidenceOrder
import SplitBrainFabric.Validity
import SplitBrainFabric.Revocation
import SplitBrainFabric.Usability
import SplitBrainFabric.WallClock
import SplitBrainFabric.Plans
import SplitBrainFabric.FenceOwners
import SplitBrainFabric.LineageEpochs
import SplitBrainFabric.WitnessRestart
import SplitBrainFabric.WitnessSessions
import SplitBrainFabric.Attempts
import SplitBrainFabric.Refusals
import SplitBrainFabric.ScopeAlgebra
import SplitBrainFabric.Reconcile
import SplitBrainFabric.FrameBursts
import SplitBrainFabric.DecisionBinding
import SplitBrainFabric.StepWindows
import SplitBrainFabric.TokenFloor
import SplitBrainFabric.Retries
import SplitBrainFabric.ClaimIds
import SplitBrainFabric.Numerals
import SplitBrainFabric.ScopeIndex
import SplitBrainFabric.Sha256
import SplitBrainFabric.LateWriters
import SplitBrainFabric.Lockstep
import SplitBrainFabric.CommitAnswers
import SplitBrainFabric.Serialised
import SplitBrainFabric.RegistrySessions
import SplitBrainFabric.Lives
import SplitBrainFabric.Reports
