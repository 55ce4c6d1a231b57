import Paraloom.Lib.Base58
import Paraloom.OffChain.VoteTally

/-!
# The consensus on a unified transact

A node that started the verification of a request collects the votes on it and approves it once enough staked wallets have
voted valid and hold the stake that the program asks for. The approval goes to the submitter once, until the mark is cleared.
The time, and whether the submitter still receives, are arguments.
-/

namespace Paraloom.OffChain

/-- What the consensus calls and does not compute itself: SHA-256, and the signatures of the wallets. -/
structure Crypto where
  sha256 : Bytes → Bytes32
  /-- `Keypair::sign_message`, under the public key of the pair. -/
  signMessage : (wallet : Bytes32) → (message : Bytes) → Bytes
  /-- `Signature::verify` of a signature of 64 bytes. -/
  verify : (wallet : Bytes32) → (signature message : Bytes) → Bool

/-- `as_bytes()` of a string. -/
def utf8 (text : String) : Bytes := text.toByteArray.data.toList

/-- `hex::encode`. -/
def hexEncode (bytes : Bytes) : String :=
  String.ofList (bytes.flatMap fun b => [Nat.digitChar (b.toNat / 16), Nat.digitChar (b.toNat % 16)])

/-- `Pubkey::to_string`. -/
def walletName (wallet : Bytes32) : String := Base58.encode wallet.toList

theorem walletName_inj (h : walletName w = walletName w') : w = w' :=
  Subtype.ext (Base58.encode_inj (by simp) h)

/-! ## Requests and votes -/

/-- A request to verify a unified transact. -/
structure TransactVerificationRequest where
  requestId : String
  recipient : Bytes32
  mint : Option Bytes32
  nullifiers : Bytes32 × Bytes32
  outputCommitments : Bytes32 × Bytes32
  root : Bytes32
  extAmount : Int64
  proof : Bytes
  ciphertexts : String × String
  timestamp : Nat
  deriving DecidableEq

/-- The bytes that the canonical id hashes: the fields that the settlement is bound to. -/
def TransactVerificationRequest.canonicalBytes (r : TransactVerificationRequest) : Bytes :=
  utf8 "paraloom:transact-request:v1" ++ r.root.toList ++ r.recipient.toList ++
    LittleEndian.ofNat 8 r.extAmount.toBitVec.toNat ++ r.nullifiers.1.toList ++ r.nullifiers.2.toList ++
    r.outputCommitments.1.toList ++ r.outputCommitments.2.toList ++ LittleEndian.ofNat 8 r.proof.length ++ r.proof ++
    match r.mint with
    | some mint => utf8 "spl" ++ mint.toList
    | none => []

def TransactVerificationRequest.canonicalId (κ : Crypto) (r : TransactVerificationRequest) : String :=
  "transact-" ++ hexEncode (κ.sha256 r.canonicalBytes).toList

structure TransactVerificationResult where
  requestId : String
  validator : NodeId
  vote : VerificationVote
  timestamp : Nat
  walletPubkey : String
  signature : Bytes

/-- A field of the signed bytes, behind its length. -/
def lengthPrefixed (bytes : Bytes) : Bytes := LittleEndian.ofNat 8 bytes.length ++ bytes

/-- What the signature of a vote covers. -/
def transactVoteSigningBytes (programId clusterTag requestId : String) (validator : NodeId) (vote : VerificationVote)
    (walletPubkey : String) : Bytes :=
  utf8 "paraloom:transact-vote:v1" ++ lengthPrefixed (utf8 programId) ++ lengthPrefixed (utf8 clusterTag) ++
    lengthPrefixed (utf8 requestId) ++ lengthPrefixed validator ++ [if vote.isValid then 1 else 0] ++
    lengthPrefixed (utf8 walletPubkey)

/-- A request that the quorum has approved. -/
structure ApprovedTransact where
  request : TransactVerificationRequest
  deriving DecidableEq

structure TransactConsensus where
  request : TransactVerificationRequest
  tally : VoteTally

/-- `new_with_thresholds`. -/
def TransactConsensus.new (now : Nat) (request : TransactVerificationRequest)
    (minValidatorsForConsensus totalValidators : Nat) : TransactConsensus :=
  ⟨request, .new now request.requestId minValidatorsForConsensus totalValidators⟩

/-! ## The coordinator -/

/-- An entry of the leader selector, under the peer id. -/
structure ValidatorInfo where
  stakeAmount : Nat
  reputation : Nat
  isActive : Bool
  walletPubkey : Option String

/-- The state of the coordinator of a node that settles. -/
structure TransactVerificationCoordinator where
  pending : Table String TransactConsensus
  validators : List NodeId
  leaderSelector : Table NodeId ValidatorInfo
  /-- The evidence that was recorded, with the peer the second vote came from. -/
  slashingTracker : List (NodeId × Equivocation)
  minValidatorsForConsensus : Nat
  totalValidators : Nat
  /-- The coordinator has a sender of approvals. -/
  approvalTx : Bool
  emitted : Finset String
  onchainWallets : Finset String
  onchainStakes : Table String Nat
  onchainRegistryTotal : Nat
  localWallet : Option String
  equivocators : Finset String

namespace TransactVerificationCoordinator

def defaultMinValidatorsForConsensus : Nat := 7

def defaultTotalValidators : Nat := 10

def newWithApprovals : TransactVerificationCoordinator where
  pending := ∅
  validators := []
  leaderSelector := ∅
  slashingTracker := []
  minValidatorsForConsensus := defaultMinValidatorsForConsensus
  totalValidators := defaultTotalValidators
  approvalTx := true
  emitted := ∅
  onchainWallets := ∅
  onchainStakes := ∅
  onchainRegistryTotal := 0
  localWallet := none
  equivocators := ∅

/-- An invalid pair falls back to the defaults. -/
def setConsensusThresholds (c : TransactVerificationCoordinator) (min total : Nat) : TransactVerificationCoordinator :=
  if min = 0 ∨ total = 0 ∨ total < min then
    { c with
      minValidatorsForConsensus := defaultMinValidatorsForConsensus
      totalValidators := defaultTotalValidators }
  else { c with minValidatorsForConsensus := min, totalValidators := total }

/-! ## The stake gate -/

def onchainStake (c : TransactVerificationCoordinator) (wallet : String) : Nat := (c.onchainStakes.lookup wallet).getD 0

/-- The stake that may count: the total of the registry without the stake of the node itself. -/
def eligibleStake (c : TransactVerificationCoordinator) (localWallet : String) : Nat :=
  Checked.satSub c.onchainRegistryTotal (c.onchainStake localWallet)

def countsStake (c : TransactVerificationCoordinator) (localWallet : String) (vote : Sigma fun _ : String => VoteRecord) :
    Bool :=
  vote.1 ≠ localWallet ∧ vote.2.vote.isValid = true ∧ vote.1 ∉ c.equivocators ∧ (c.onchainStakes.lookup vote.1).isSome

def countedStake (c : TransactVerificationCoordinator) (localWallet : String) (tally : VoteTally) : Nat :=
  tally.votes.entries.foldl (fun counted vote =>
    if c.countsStake localWallet vote then Checked.satAdd counted (c.onchainStake vote.1) else counted) 0

def stakeQuorumMet (c : TransactVerificationCoordinator) (tally : VoteTally) : Bool :=
  match c.localWallet with
  | none => true
  | some localWallet =>
    let eligible := c.eligibleStake localWallet
    if eligible = 0 then false
    else
      let threshold := Checked.satMul eligible 2 / 3 + 1
      let counted := c.countedStake localWallet tally
      if eligible < counted then false else threshold ≤ counted

/-- The staked wallets that are not banned. -/
def eligibleWallets (c : TransactVerificationCoordinator) : Finset String := c.onchainWallets \ c.equivocators

/-! ## Connectivity and stakes -/

/-- While the staked wallets are known, only a peer that advertises one of them is admitted.
A known peer is activated again and adopts a new wallet; a new one starts without stake. -/
def registerValidatorWithWallet (c : TransactVerificationCoordinator) (validator : NodeId) (walletPubkey : Option String) :
    TransactVerificationCoordinator :=
  if c.onchainWallets.Nonempty ∧ ¬ ∃ wallet ∈ walletPubkey, wallet ∈ c.onchainWallets then c
  else
    let info : ValidatorInfo := match c.leaderSelector.lookup validator with
      | some existing =>
        { existing with walletPubkey := if walletPubkey.isSome then walletPubkey else existing.walletPubkey, isActive := true }
      | none => ⟨0, 1000, true, walletPubkey⟩
    { c with
      validators := if validator ∈ c.validators then c.validators else c.validators ++ [validator]
      leaderSelector := c.leaderSelector.insert validator info }

/-- The peer leaves the active set, and its entry is kept. -/
def unregisterValidator (c : TransactVerificationCoordinator) (validator : NodeId) : TransactVerificationCoordinator :=
  { c with
    validators := c.validators.filter (· ≠ validator)
    leaderSelector := match c.leaderSelector.lookup validator with
      | some existing => c.leaderSelector.insert validator { existing with isActive := false }
      | none => c.leaderSelector }

/-- `apply_onchain_stakes` on one entry. -/
def ValidatorInfo.withStake (stakes : Table String Nat) (info : ValidatorInfo) : ValidatorInfo :=
  { info with stakeAmount := (info.walletPubkey.bind stakes.lookup).getD 0 }

/-- An empty snapshot does not replace the wallets, the stakes and the total. -/
def syncOnchainStakes (c : TransactVerificationCoordinator) (stakes : Table String Nat) (registryTotalActiveStake : Nat) :
    TransactVerificationCoordinator :=
  let c := if stakes.entries = [] then c else { c with
    onchainWallets := stakes.keys.toFinset
    onchainRegistryTotal := registryTotalActiveStake
    onchainStakes := stakes }
  { c with leaderSelector := c.leaderSelector.mapValues (ValidatorInfo.withStake stakes) }

/-! ## Rounds -/

/-- The request has to carry its canonical id, and a round that is already open is kept. -/
def startVerification (κ : Crypto) (now : Nat) (c : TransactVerificationCoordinator) (request : TransactVerificationRequest) :
    Except String (String × TransactVerificationCoordinator) :=
  if request.requestId ≠ request.canonicalId κ then
    .error s!"request_id {request.requestId} is not the canonical id of its settlement"
  else if c.validators = [] then .error "No validators available"
  else if c.validators.length < c.minValidatorsForConsensus then
    .error s!"Not enough validators: {c.validators.length} < {c.minValidatorsForConsensus}"
  else
    let consensus := TransactConsensus.new now request c.minValidatorsForConsensus c.totalValidators
    let pending := if (c.pending.lookup request.requestId).isSome then c.pending
      else c.pending.insert request.requestId consensus
    .ok (request.requestId, { c with pending })

/-- What a call of `submit_result` ends with: its value, the coordinator, the approval it sent and the set of banned wallets it
wrote to the disk. -/
structure Submitted where
  result : Except String Unit
  coordinator : TransactVerificationCoordinator
  approved : Option ApprovedTransact
  persisted : Option (Finset String)

/-- A vote that is dropped. -/
def dropped (c : TransactVerificationCoordinator) (result : Except String Unit) : Submitted := ⟨result, c, none, none⟩

/-- The vote is installed in the tally, and a wallet that flipped its vote is banned. -/
def recordVote (c : TransactVerificationCoordinator) (consensus : TransactConsensus) (result : TransactVerificationResult) :
    TransactVerificationCoordinator :=
  let voted := consensus.tally.submitVote result.walletPubkey result.validator result.vote result.signature
  let c := { c with pending := c.pending.insert result.requestId { consensus with tally := voted.2 } }
  match voted.1 with
  | some evidence => { c with
      equivocators := insert result.walletPubkey c.equivocators
      slashingTracker := c.slashingTracker ++ [(result.validator, evidence)] }
  | none => c

/-- The tally of a round is approved now: the request was not emitted, and the votes and the stake behind them suffice. -/
def approves (c : TransactVerificationCoordinator) (requestId : String) (tally : VoteTally) : Bool :=
  c.approvalTx && decide (requestId ∉ c.emitted) && tally.hasConsensus c.eligibleWallets && c.stakeQuorumMet tally &&
    match tally.consensusResult c.eligibleWallets with
    | .ok .valid => true
    | _ => false

def submitResult (κ : Crypto) (received : Bool) (c : TransactVerificationCoordinator) (result : TransactVerificationResult) :
    Submitted :=
  match c.pending.lookup result.requestId with
  | none => c.dropped (.error s!"Request not found: {result.requestId}")
  | some consensus =>
    if result.requestId ≠ consensus.request.canonicalId κ then c.dropped (.ok ())
    else if result.walletPubkey = "" ∨ result.signature = [] then c.dropped (.ok ())
    else if c.onchainWallets.Nonempty ∧ result.walletPubkey ∉ c.onchainWallets then c.dropped (.ok ())
    else
      let voted := consensus.tally.submitVote result.walletPubkey result.validator result.vote result.signature
      let c := c.recordVote consensus result
      let persisted := if voted.1.isSome then some c.equivocators else none
      -- the mark is set only when the submitter takes the approval
      if c.approves result.requestId voted.2 ∧ received then
        ⟨.ok (), { c with emitted := insert result.requestId c.emitted }, some ⟨consensus.request⟩, persisted⟩
      else ⟨.ok (), c, none, persisted⟩

/-- A valid result has to wait for the stake behind it. -/
def checkConsensus (c : TransactVerificationCoordinator) (now : Nat) (requestId : String) :
    Except String (Option VerificationVote) :=
  match c.pending.lookup requestId with
  | none => .error s!"Request not found: {requestId}"
  | some consensus =>
    if consensus.tally.isTimedOut now then .error "Verification timed out"
    else if consensus.tally.hasConsensus c.eligibleWallets then
      match consensus.tally.consensusResult c.eligibleWallets with
      | .error e => .error e
      | .ok .valid => if c.stakeQuorumMet consensus.tally then .ok (some .valid) else .ok none
      | .ok (.invalid reason) => .ok (some (.invalid reason))
    else .ok none

def clearEmitted (c : TransactVerificationCoordinator) (requestId : String) : TransactVerificationCoordinator :=
  { c with emitted := c.emitted.erase requestId }

/-- The rounds whose deadline has passed. -/
def timedOut (c : TransactVerificationCoordinator) (now : Nat) : List String :=
  (c.pending.entries.filter fun e => e.2.tally.isTimedOut now).map (·.1)

/-- The rounds that timed out are removed with their marks. -/
def cleanupTimeouts (c : TransactVerificationCoordinator) (now : Nat) : TransactVerificationCoordinator :=
  { c with
    pending := (c.timedOut now).foldl (fun pending id => pending.erase id) c.pending
    emitted := c.emitted \ (c.timedOut now).toFinset }

end TransactVerificationCoordinator

end Paraloom.OffChain
