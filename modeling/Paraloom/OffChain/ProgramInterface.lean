import Paraloom.Accounts
import Paraloom.OffChain.TransactConsensus

/-!
# What the node reads from the program

The two reads of the stake reconciler: the active validator accounts, from their raw bytes, and the total of the registry.
-/

namespace Paraloom.OffChain

/-- The wallet and the stake in every validator account that is active. The flag is at byte 88, so an
account of an earlier layout is read too. -/
def listValidatorStakes (Γ : Ctx) (s : State) : List (Bytes32 × Nat) :=
  s.validators.entries.filterMap fun account =>
    if account.2.dataLen < 89 ∨ account.2.data.isActive = false then none
    else some (Γ.toBytes account.2.data.validator, account.2.data.stakeAmount)

/-- From bytes 64 to 72 of the registry. -/
def registryTotalActiveStake (s : State) : Except String Nat :=
  match s.validatorRegistry with
  | none => .error "AccountNotFound"
  | some registry =>
    if registry.dataLen < 72 then .error s!"ValidatorRegistry account too short: {registry.dataLen} bytes (need >= 72)"
    else .ok registry.data.totalActiveStake

def stakeMap (stakes : List (Bytes32 × Nat)) : Table String Nat :=
  stakes.foldl (fun map e => map.insert (walletName e.1) e.2) ∅

/-- One pass of the reconciler: a failed read changes nothing. -/
def reconcileStakes (Γ : Ctx) (s : State) (c : TransactVerificationCoordinator) : TransactVerificationCoordinator :=
  match registryTotalActiveStake s with
  | .ok total => c.syncOnchainStakes (stakeMap (listValidatorStakes Γ s)) total
  | .error _ => c

end Paraloom.OffChain
