import Paraloom.OffChain.Storage

/-!
# The vote tally of one verification round

Votes are kept under the co-sign wallet of the voter. The first vote of a wallet stands: a repetition changes nothing, and a
vote that disagrees is evidence of equivocation and is not installed. The counts look at the wallets of a given set only.
-/

namespace Paraloom.OffChain

/-- `NodeId`: the bytes of a peer id. -/
abbrev NodeId : Type := Bytes

/-- What a validator says about a proof. -/
inductive VerificationVote where
  | valid
  | invalid (reason : String)
  deriving DecidableEq

def VerificationVote.isValid : VerificationVote → Bool
  | .valid => true
  | .invalid _ => false

@[simp] theorem VerificationVote.isValid_iff {vote : VerificationVote} : vote.isValid = true ↔ vote = .valid := by
  cases vote <;> simp [isValid]

/-- The recorded vote of a wallet, with the peer it arrived from and its signature. -/
structure VoteRecord where
  vote : VerificationVote
  nodeId : NodeId
  signature : Bytes

/-- `SlashingEvidence::Equivocation`: two votes of a wallet on one request that disagree. -/
structure Equivocation where
  requestId : String
  walletPubkey : String
  previousVote : VerificationVote
  newVote : VerificationVote
  previousSignature : Bytes
  newSignature : Bytes

/-- The votes on one request, under the wallet of the voter, and the thresholds and the deadline of the round. -/
structure VoteTally where
  requestId : String
  votes : Table String VoteRecord
  startedAt : Nat
  deadline : Nat
  minValidatorsForConsensus : Nat
  totalValidators : Nat

namespace VoteTally

def new (now : Nat) (requestId : String) (minValidatorsForConsensus totalValidators : Nat) : VoteTally where
  requestId
  votes := ∅
  startedAt := now
  deadline := now + 30
  minValidatorsForConsensus
  totalValidators

/-- A first vote is recorded, the same decision again is ignored, and a flip is returned as evidence. -/
def submitVote (tally : VoteTally) (wallet : String) (nodeId : NodeId) (vote : VerificationVote) (signature : Bytes) :
    Option Equivocation × VoteTally :=
  match tally.votes.lookup wallet with
  | some previous =>
    if previous.vote.isValid = vote.isValid then (none, tally)
    else (some {
      requestId := tally.requestId, walletPubkey := wallet, previousVote := previous.vote, newVote := vote
      previousSignature := previous.signature, newSignature := signature }, tally)
  | none => (none, { tally with votes := tally.votes.insert wallet ⟨vote, nodeId, signature⟩ })

/-- Number of recorded votes whose wallet is eligible. -/
def countEligibleVotes (tally : VoteTally) (eligibleWallets : Finset String) : Nat :=
  (tally.votes.keys.filter (· ∈ eligibleWallets)).length

/-- Enough eligible wallets have voted. -/
def hasConsensus (tally : VoteTally) (eligibleWallets : Finset String) : Bool :=
  tally.minValidatorsForConsensus ≤ tally.countEligibleVotes eligibleWallets

/-- The deadline has passed. -/
def isTimedOut (tally : VoteTally) (now : Nat) : Bool := tally.deadline < now

def eligibleVotes (tally : VoteTally) (eligibleWallets : Finset String) : List VerificationVote :=
  (tally.votes.entries.filter (·.1 ∈ eligibleWallets)).map (·.2.vote)

/-- Valid when enough eligible wallets voted valid, invalid when enough voted but not enough of them
valid. -/
def consensusResult (tally : VoteTally) (eligibleWallets : Finset String) : Except String VerificationVote :=
  let eligible := tally.eligibleVotes eligibleWallets
  let excluded := tally.votes.entries.length - eligible.length
  let need := tally.minValidatorsForConsensus
  if eligible.length < need then
    .error s!"Not enough eligible votes: {eligible.length} < {need} (excluded {excluded} not in the staked set)"
  else
    let validCount := (eligible.filter (·.isValid)).length
    let invalidCount := eligible.length - validCount
    if need ≤ validCount then .ok .valid
    else .ok (.invalid s!"Consensus rejected: {validCount} valid, {invalidCount} invalid (need {need})")

end VoteTally

end Paraloom.OffChain
