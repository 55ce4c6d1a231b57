import Paraloom.Lib.LockScopes

/-!
# The locks of the coordinators

Each method of the transact coordinator and of the job coordinator as the guards it takes, in the scopes in which it holds
them: to the end of the block for a variable, to the end of the statement within an expression. The branches that a method takes
are parameters.
-/

namespace Paraloom.OffChain

open LockOrder LockOrder.Program

inductive CoordinatorLock where
  | pending
  | validators
  | leaderSelector
  | timeoutStreaks
  | emitted
  | onchainWallets
  | onchainStakes
  | onchainRegistryTotal
  | equivocators
  /-- The metrics of the reputation tracker. -/
  | metrics
  /-- The records of the slashing tracker. -/
  | records
  /-- The votes of the tally of a request. -/
  | votes (requestId : String)
  deriving DecidableEq

/-- What a method does with the locks. -/
abbrev LockProgram : Type := Program CoordinatorLock

namespace LockProgram

/-- A part of a method that is reached on some branches only. -/
def onBranch (taken : Bool) (p : LockProgram) : LockProgram := if taken then p else .done

/-! ## The tally -/

def submitVote (requestId : String) : LockProgram := writing (.votes requestId) .done

def hasConsensus (requestId : String) : LockProgram := reading (.votes requestId) .done

def consensusResult (requestId : String) : LockProgram := reading (.votes requestId) .done

def completionPercentage (requestId : String) : LockProgram := reading (.votes requestId) .done

def voteCounts (requestId : String) : LockProgram := reading (.votes requestId) .done

def tallyValidVoters (requestId : String) : LockProgram := reading (.votes requestId) .done

/-! ## The trackers -/

/-- `register_validator` and `record_failure` of the reputation tracker. -/
def writeMetrics : LockProgram := writing .metrics .done

/-- `record` of the slashing tracker. -/
def recordEvidence : LockProgram := writing .records .done

/-! ## The coordinator -/

/-- Without a local wallet it takes no guard, and without eligible stake it returns before the votes. -/
def stakeQuorumMet (requestId : String) (localWallet eligibleStake : Bool) : LockProgram :=
  onBranch localWallet <| reading .onchainStakes <|
    reading .onchainRegistryTotal .done ++ onBranch eligibleStake (reading .equivocators (reading (.votes requestId) .done))

def eligibleWallets : LockProgram := reading .onchainWallets (reading .equivocators .done)

def validatorWallet : LockProgram := reading .leaderSelector .done

def resetTimeoutStreak : LockProgram := writing .timeoutStreaks .done

def startVerification (canonical enoughValidators : Bool) : LockProgram :=
  onBranch canonical <| reading .validators <| onBranch enoughValidators (writing .pending .done)

/-- The branches of `submit_result`. -/
structure SubmitBranches where
  /-- The request is pending, and the vote is under its canonical id and signed. -/
  accepted : Bool
  /-- The wallet is staked, or no staked wallet is known. -/
  staked : Bool
  equivocates : Bool
  /-- The coordinator has a sender of approvals. -/
  approvalTx : Bool
  /-- The request has been approved before. -/
  alreadyEmitted : Bool
  hasConsensus : Bool
  localWallet : Bool
  eligibleStake : Bool
  stakeQuorumMet : Bool

def submitResult (requestId : String) (b : SubmitBranches) : LockProgram :=
  reading .pending <| onBranch b.accepted <| reading .onchainWallets .done ++ onBranch b.staked (
      resetTimeoutStreak ++ submitVote requestId ++
      onBranch b.equivocates (writing .equivocators .done ++ writeMetrics ++ recordEvidence) ++
      onBranch b.approvalTx (eligibleWallets ++ writing .emitted (onBranch (!b.alreadyEmitted) (
        hasConsensus requestId ++ onBranch b.hasConsensus ( stakeQuorumMet requestId b.localWallet b.eligibleStake ++
          onBranch b.stakeQuorumMet (consensusResult requestId))))))

/-- The branches of `check_consensus`. -/
structure CheckBranches where
  /-- The request is pending and has not timed out. -/
  running : Bool
  hasConsensus : Bool
  valid : Bool
  localWallet : Bool
  eligibleStake : Bool

def checkConsensus (requestId : String) (b : CheckBranches) : LockProgram :=
  reading .pending <| onBranch b.running <| eligibleWallets ++ hasConsensus requestId ++ onBranch b.hasConsensus (
      consensusResult requestId ++ onBranch b.valid (stakeQuorumMet requestId b.localWallet b.eligibleStake))

def getStatus (requestId : String) (known : Bool) : LockProgram :=
  reading .pending <| onBranch known <| completionPercentage requestId ++ voteCounts requestId

def validVoters (requestId : String) (known : Bool) : LockProgram :=
  reading .pending <| onBranch known <| eligibleWallets ++ tallyValidVoters requestId

def registerValidatorWithWallet (admitted : Bool) : LockProgram :=
  reading .onchainWallets .done ++ onBranch admitted (writing .validators (writeMetrics ++ writing .leaderSelector .done))

def unregisterValidator : LockProgram := writing .validators (writing .leaderSelector .done)

def syncOnchainStakes (nonEmpty : Bool) : LockProgram :=
  onBranch nonEmpty (writing .onchainWallets .done ++ writing .onchainRegistryTotal .done ++ writing .onchainStakes .done) ++
    writing .leaderSelector .done

def sourceIsOnchainValidator (walletsKnown : Bool) : LockProgram :=
  reading .onchainWallets <| onBranch walletsKnown validatorWallet

def validatorCount : LockProgram := reading .validators .done

def isRegisteredValidator : LockProgram := reading .validators .done

def clearEmitted : LockProgram := writing .emitted .done

def cleanup : LockProgram := writing .pending .done

/-- The loop of `cleanup_timeouts`, once for each request that has timed out. -/
def dropTimedOut : (timedOut : Nat) → LockProgram
  | 0 => .done
  | timedOut + 1 => writing .emitted .done ++ dropTimedOut timedOut

def cleanupTimeouts (timedOut : Nat) : LockProgram := writing .pending (dropTimedOut timedOut)

end LockProgram

/-- A call of a method of the coordinator, with the branches it takes. -/
inductive CoordinatorCall where
  | startVerification (canonical enoughValidators : Bool)
  | submitResult (requestId : String) (branches : LockProgram.SubmitBranches)
  | checkConsensus (requestId : String) (branches : LockProgram.CheckBranches)
  | getStatus (requestId : String) (known : Bool)
  | validVoters (requestId : String) (known : Bool)
  | registerValidatorWithWallet (admitted : Bool)
  | unregisterValidator
  | syncOnchainStakes (nonEmpty : Bool)
  | sourceIsOnchainValidator (walletsKnown : Bool)
  | validatorWallet
  | validatorCount
  | isRegisteredValidator
  | clearEmitted
  | cleanup
  | cleanupTimeouts (timedOut : Nat)

/-- The guards that a call takes. -/
def CoordinatorCall.program : CoordinatorCall → LockProgram
  | .startVerification canonical enoughValidators => .startVerification canonical enoughValidators
  | .submitResult requestId branches => .submitResult requestId branches
  | .checkConsensus requestId branches => .checkConsensus requestId branches
  | .getStatus requestId known => .getStatus requestId known
  | .validVoters requestId known => .validVoters requestId known
  | .registerValidatorWithWallet admitted => .registerValidatorWithWallet admitted
  | .unregisterValidator => .unregisterValidator
  | .syncOnchainStakes nonEmpty => .syncOnchainStakes nonEmpty
  | .sourceIsOnchainValidator walletsKnown => .sourceIsOnchainValidator walletsKnown
  | .validatorWallet => .validatorWallet
  | .validatorCount => .validatorCount
  | .isRegisteredValidator => .isRegisteredValidator
  | .clearEmitted => .clearEmitted
  | .cleanup => .cleanup
  | .cleanupTimeouts timedOut => .cleanupTimeouts timedOut

/-! ## The job coordinator -/

/-- The locks of a job coordinator. -/
inductive JobLock where
  | validators
  | pendingAssignments
  | activeAssignments
  deriving DecidableEq

/-- What becomes of an assignment that is taken away from its validator. -/
inductive Retry where
  /-- It has been retried `MAX_JOB_RETRIES` times, and is given up. -/
  | givenUp
  /-- No validator has room for it. -/
  | noValidator
  /-- It goes to another validator. -/
  | reassigned

/-- What a method of the job coordinator does with its locks. -/
abbrev JobLockProgram : Type := Program JobLock

namespace JobLockProgram

def updateValidatorCapacity : JobLockProgram := writing .validators .done

def removeValidator : JobLockProgram := writing .validators .done

def getValidatorLoad : JobLockProgram := reading .pendingAssignments (reading .activeAssignments .done)

def assignJob (validatorFound : Bool) : JobLockProgram :=
  reading .validators (if validatorFound then writing .pendingAssignments .done else .done)

def markJobFetched (wasPending : Bool) : JobLockProgram :=
  writing .pendingAssignments (if wasPending then writing .activeAssignments .done else .done)

def removeAssignment : JobLockProgram := writing .pendingAssignments (writing .activeAssignments .done)

/-- A pending assignment is put back under the guard of the pending assignments that is already held. -/
def retryPending : Retry → JobLockProgram
  | .givenUp => .done
  | .noValidator => reading .validators .done
  | .reassigned => reading .validators .done

/-- For an active assignment the pending ones are read first, and written after the shared guard has been dropped. -/
def retryActive : Retry → JobLockProgram
  | .givenUp => .done
  | .noValidator => reading .validators (reading .pendingAssignments .done)
  | .reassigned => reading .validators (reading .pendingAssignments .done ++ writing .pendingAssignments .done)

/-- The loop over the assignments that are taken away. -/
def forEach (retry : Retry → JobLockProgram) : List Retry → JobLockProgram
  | [] => .done
  | outcome :: outcomes => retry outcome ++ forEach retry outcomes

/-- The two sections that `handle_timeouts` and `handle_validator_failure` share: the pending assignments, then the active
ones. -/
def retryAssignments (pending active : List Retry) : JobLockProgram :=
  writing .pendingAssignments (forEach retryPending pending) ++ writing .activeAssignments (forEach retryActive active)

def handleTimeouts (pending active : List Retry) : JobLockProgram := retryAssignments pending active

def handleValidatorFailure (pending active : List Retry) : JobLockProgram := removeValidator ++ retryAssignments pending active

end JobLockProgram

/-- A call of a method of the job coordinator, with the branches it takes. -/
inductive JobCall where
  | assignJob (validatorFound : Bool)
  | markJobFetched (wasPending : Bool)
  | removeAssignment
  | getValidatorLoad
  | updateValidatorCapacity
  | handleTimeouts (pending active : List Retry)
  | handleValidatorFailure (pending active : List Retry)

/-- The guards that a call takes. -/
def JobCall.program : JobCall → JobLockProgram
  | .assignJob validatorFound => .assignJob validatorFound
  | .markJobFetched wasPending => .markJobFetched wasPending
  | .removeAssignment => .removeAssignment
  | .getValidatorLoad => .getValidatorLoad
  | .updateValidatorCapacity => .updateValidatorCapacity
  | .handleTimeouts pending active => .handleTimeouts pending active
  | .handleValidatorFailure pending active => .handleValidatorFailure pending active

end Paraloom.OffChain
