import Paraloom.Lib.WeightedChoice
import Paraloom.OffChain.TransactConsensus

/-!
# Selection of a leader

The leader selector of a node draws one of the active validators by weight. The draw comes from the digest of a seed, and the
walk along the cumulative weights visits the validators in the order in which the map of that node iterates, which is a
parameter: any arrangement of the entries.
-/

namespace Paraloom.OffChain

/-- The largest value of a 128-bit register. -/
def u128Max : Nat := 2 ^ 128 - 1

/-- The sum of an iterator of 128-bit numbers, which panics when it does not fit. -/
def sumU128 (weights : List Nat) : Option Nat :=
  weights.foldlM (fun sum weight => if sum + weight ≤ u128Max then some (sum + weight) else none) 0

/-- The stake in proportion to the reputation, in thousandths. An inactive validator weighs nothing. -/
def ValidatorInfo.selectionWeight (v : ValidatorInfo) : Nat :=
  if v.isActive then v.stakeAmount * v.reputation / 1000 else 0

/-- The registered validators. -/
abbrev LeaderSelector : Type := Table NodeId ValidatorInfo

namespace LeaderSelector

def new : LeaderSelector := ∅

def registerValidator (s : LeaderSelector) (nodeId : NodeId) (validator : ValidatorInfo) : LeaderSelector :=
  s.insert nodeId validator

def unregisterValidator (s : LeaderSelector) (nodeId : NodeId) : LeaderSelector := s.erase nodeId

/-- Write the activity flag of an entry that exists. -/
def setActive (s : LeaderSelector) (nodeId : NodeId) (isActive : Bool) : LeaderSelector :=
  match s.lookup nodeId with
  | some v => s.insert nodeId { v with isActive }
  | none => s

def deactivateValidator (s : LeaderSelector) (nodeId : NodeId) : LeaderSelector := s.setActive nodeId false

def activateValidator (s : LeaderSelector) (nodeId : NodeId) : LeaderSelector := s.setActive nodeId true

def updateValidator (s : LeaderSelector) (nodeId : NodeId) (validator : ValidatorInfo) : LeaderSelector :=
  s.insert nodeId validator

def applyOnchainStakes (s : LeaderSelector) (stakes : Table String Nat) : LeaderSelector :=
  s.mapValues (TransactVerificationCoordinator.ValidatorInfo.withStake stakes)

end LeaderSelector

/-- A call that changes a leader selector. -/
inductive LeaderCall where
  | registerValidator (nodeId : NodeId) (validator : ValidatorInfo)
  | unregisterValidator (nodeId : NodeId)
  | deactivateValidator (nodeId : NodeId)
  | activateValidator (nodeId : NodeId)
  | updateValidator (nodeId : NodeId) (validator : ValidatorInfo)
  | applyOnchainStakes (stakes : Table String Nat)

namespace LeaderSelector

def exec (s : LeaderSelector) : LeaderCall → LeaderSelector
  | .registerValidator nodeId validator => s.registerValidator nodeId validator
  | .unregisterValidator nodeId => s.unregisterValidator nodeId
  | .deactivateValidator nodeId => s.deactivateValidator nodeId
  | .activateValidator nodeId => s.activateValidator nodeId
  | .updateValidator nodeId validator => s.updateValidator nodeId validator
  | .applyOnchainStakes stakes => s.applyOnchainStakes stakes

def after (calls : List LeaderCall) : LeaderSelector := calls.foldl exec new

def pairs (s : LeaderSelector) : List (NodeId × ValidatorInfo) := s.entries.map fun e => (e.1, e.2)

/-- The map may iterate its entries in this order. -/
def Visits (s : LeaderSelector) (order : List (NodeId × ValidatorInfo)) : Prop := order.Perm s.pairs

/-- A number below `max` from the first half of the digest of the seed. -/
def deterministicRandom (sha256 : Bytes → Bytes32) (seed : Bytes) (max : Nat) : Nat :=
  LittleEndian.toNat ((sha256 seed).toList.take 16) % max

/-- `select_leader` of a node whose map iterates in the order given. The sums of the loop are parts of the total, which fits, so
only the total can overflow. -/
def selectLeader (sha256 : Bytes → Bytes32) (order : List (NodeId × ValidatorInfo)) (seed : Bytes) :
    Except (Checked.Failure String) NodeId := do
  let activeValidators := order.filter (·.2.isActive)
  Checked.require (activeValidators ≠ []) (.error "No active validators available")
  let totalWeight ← Checked.okOr (sumU128 (activeValidators.map (·.2.selectionWeight))) .panic
  Checked.require (totalWeight ≠ 0) (.error "All validators have zero weight")
  let randomValue := deterministicRandom sha256 seed totalWeight
  let chosen := (WeightedChoice.choose (·.2.selectionWeight) randomValue 0 activeValidators).or
    (order.filter (·.2.isActive)).getLast?
  Checked.okOr (chosen.map Prod.fst) (.error "No active validators")

end LeaderSelector

end Paraloom.OffChain
