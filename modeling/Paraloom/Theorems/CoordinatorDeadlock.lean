import Paraloom.OffChain.CoordinatorLocks

/-!
# The coordinator does not deadlock

Every method of the coordinator takes its locks in one order: the validators, the pending requests, the staked wallets, the
emitted ids, the stakes, their total, the banned wallets, the votes of one request, and last the locks under which no other is
taken. No method takes a lock that it holds.
-/

namespace Paraloom.OffChain

open LockOrder CoordinatorCall

/-- The place of a lock in the order. The tallies share one: a call takes the votes of one request only, and one guard at a
time. -/
def CoordinatorLock.rank : CoordinatorLock → Nat
  | .validators => 0
  | .pending => 1
  | .onchainWallets => 2
  | .emitted => 3
  | .onchainStakes => 4
  | .onchainRegistryTotal => 5
  | .equivocators => 6
  | .votes _ => 7
  | .timeoutStreaks => 8
  | .metrics => 9
  | .records => 10
  | .leaderSelector => 11

namespace LockProgram

variable {floor : Nat} {requestId : String}

@[simp] theorem ordered_onBranch :
    (onBranch taken p).Ordered CoordinatorLock.rank floor ↔ (taken = true → p.Ordered CoordinatorLock.rank floor) := by
  cases taken <;> simp [onBranch]

@[simp] theorem ordered_eligibleWallets : eligibleWallets.Ordered CoordinatorLock.rank floor ↔ floor ≤ 2 := by
  simp [eligibleWallets, CoordinatorLock.rank]

@[simp] theorem ordered_stakeQuorumMet {localWallet eligibleStake : Bool} :
    (stakeQuorumMet requestId localWallet eligibleStake).Ordered CoordinatorLock.rank floor ↔
      (localWallet = true → floor ≤ 4) := by
  simp [stakeQuorumMet, CoordinatorLock.rank]

theorem ordered_submitResult : (submitResult requestId b).Ordered CoordinatorLock.rank 0 := by
  simp [submitResult, resetTimeoutStreak, submitVote, writeMetrics, recordEvidence, hasConsensus, consensusResult,
    CoordinatorLock.rank]

theorem ordered_checkConsensus : (checkConsensus requestId b).Ordered CoordinatorLock.rank 0 := by
  simp [checkConsensus, hasConsensus, consensusResult, CoordinatorLock.rank]

theorem ordered_dropTimedOut (h : floor ≤ 3) : (dropTimedOut timedOut).Ordered CoordinatorLock.rank floor := by
  induction timedOut with
  | zero => exact trivial
  | succ timedOut ih => simp [dropTimedOut, CoordinatorLock.rank, h, ih]

theorem ordered_program (call : CoordinatorCall) : call.program.Ordered CoordinatorLock.rank 0 := by
  cases call with
  | startVerification => simp [program, startVerification, CoordinatorLock.rank]
  | submitResult _ branches => exact ordered_submitResult
  | checkConsensus _ branches => exact ordered_checkConsensus
  | getStatus => simp [program, getStatus, completionPercentage, voteCounts, CoordinatorLock.rank]
  | validVoters => simp [program, validVoters, tallyValidVoters, CoordinatorLock.rank]
  | registerValidatorWithWallet => simp [program, registerValidatorWithWallet, writeMetrics, CoordinatorLock.rank]
  | unregisterValidator => simp [program, unregisterValidator, CoordinatorLock.rank]
  | syncOnchainStakes => simp [program, syncOnchainStakes, CoordinatorLock.rank]
  | sourceIsOnchainValidator => simp [program, sourceIsOnchainValidator, validatorWallet, CoordinatorLock.rank]
  | validatorWallet => simp [program, validatorWallet]
  | validatorCount => simp [program, validatorCount]
  | isRegisteredValidator => simp [program, isRegisteredValidator]
  | clearEmitted => simp [program, clearEmitted]
  | cleanup => simp [program, cleanup]
  | cleanupTimeouts timedOut =>
    rw [program, cleanupTimeouts, Program.ordered_writing]
    exact ⟨Nat.zero_le _, ordered_dropTimedOut (by decide)⟩

end LockProgram

/-- For every finite set of calls on one coordinator, in every configuration that they reach and in which some call is
unfinished, some call can take a step. -/
theorem coordinator_never_deadlocks {ι : Type} [Finite ι] [DecidableEq ι] (calls : ι → CoordinatorCall) {order : List ι}
    {c : Config ι CoordinatorLock} (hrun : Run Config.Step (.start fun i => (calls i).program) order c)
    (hunfinished : ∃ i, c.Unfinished i) : ∃ i c', c.Step i c' :=
  progress_of_ordered (fun i => LockProgram.ordered_program (calls i)) hrun hunfinished

namespace LockSample

/-- A reader, a writer that comes after it and a reader that comes last. -/
def calls : Fin 3 → CoordinatorCall
  | 0 => .validVoters "request-1" true
  | 1 => .cleanupTimeouts 1
  | 2 => .getStatus "request-1" true

end LockSample

open LockSample in
/-- The first reader holds the pending requests, the writer waits for it, and the last reader waits behind the writer. -/
theorem coordinator_never_deadlocks_behind_writer :
    ∃ c : Config (Fin 3) CoordinatorLock, Run Config.Step (.start fun i => (calls i).program) [0, 0, 1, 2] c ∧
      c.queue .pending = [(1, .write), (2, .read)] ∧ ∃ i c', c.Step i c' := by
  have hasks : Run Config.Step (.start fun i => (calls i).program) [0] _ := Run.nil.snoc (.ask rfl (by decide))
  have henters : Run Config.Step (.start fun i => (calls i).program) [0, 0] _ :=
    hasks.snoc (.enter rfl (List.nil_append _).symm (by decide) (by decide))
  have hwriter : Run Config.Step (.start fun i => (calls i).program) [0, 0, 1] _ := henters.snoc (.ask rfl (by decide))
  have hreader : Run Config.Step (.start fun i => (calls i).program) [0, 0, 1, 2] _ := hwriter.snoc (.ask rfl (by decide))
  refine ⟨_, hreader, by decide, coordinator_never_deadlocks calls hreader ⟨0, ?_⟩⟩
  decide

end Paraloom.OffChain
