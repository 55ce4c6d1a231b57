import Paraloom.Theorems.CeremonyFinalize
import Paraloom.Theorems.CeremonySoundness
import Paraloom.Theorems.CircuitRelation
import Paraloom.Theorems.CoSignBudget
import Paraloom.Theorems.CoSignCollection
import Paraloom.Theorems.ColdKeys
import Paraloom.Theorems.ColdStart
import Paraloom.Theorems.ComputeAssignee
import Paraloom.Theorems.ComputeConsensus
import Paraloom.Theorems.ComputeNullifier
import Paraloom.Theorems.CoordinatorDeadlock
import Paraloom.Theorems.CreditIdempotence
import Paraloom.Theorems.DeactivationHysteresis
import Paraloom.Theorems.DecisionFinality
import Paraloom.Theorems.FailoverSnapshot
import Paraloom.Theorems.HonestVotes
import Paraloom.Theorems.JobCoordinatorDeadlock
import Paraloom.Theorems.JobIdentity
import Paraloom.Theorems.JobRetries
import Paraloom.Theorems.LeaderAgreement
import Paraloom.Theorems.ManagerLoad
import Paraloom.Theorems.MembershipPath
import Paraloom.Theorems.NoDoubleSpend
import Paraloom.Theorems.NullifierBatch
import Paraloom.Theorems.PersistedTree
import Paraloom.Theorems.PoolMirror
import Paraloom.Theorems.PoolRefinement
import Paraloom.Theorems.PrivateJob
import Paraloom.Theorems.QuorumIntersection
import Paraloom.Theorems.ReconcileConverges
import Paraloom.Theorems.ReconnectSchedule
import Paraloom.Theorems.RegistryCounters
import Paraloom.Theorems.RelayerAmounts
import Paraloom.Theorems.RootWindow
import Paraloom.Theorems.SettlementLayout
import Paraloom.Theorems.SpentSet
import Paraloom.Theorems.StakeBacking
import Paraloom.Theorems.StandbyMirroring
import Paraloom.Theorems.TaskSplit
import Paraloom.Theorems.TreeAgreement
import Paraloom.Theorems.TreeRoot
import Paraloom.Theorems.UnbondingDelay
import Paraloom.Theorems.ValidatorExit
