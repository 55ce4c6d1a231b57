import Paraloom.OffChain.TransactConsensus

/-!
# The node around the consensus

The node signs its own votes, checks the signature of the votes it receives, hands both to the coordinator, and keeps the
banned wallets in a file that a restart reads back. Everything else in memory is gone after a restart.
-/

namespace Paraloom.OffChain

structure NodeSettings where
  programId : String
  clusterTag : String
  nodeId : NodeId
  /-- The public key of the co-sign keypair. -/
  cosignKeypair : Option Bytes32
  /-- `consensus_min_validators` and `consensus_total_validators`. -/
  consensusThresholds : Option (Nat × Nat)

/-- A node: its coordinator, and what `equivocators.json` reads as. -/
structure Node where
  coordinator : TransactVerificationCoordinator
  equivocatorsFile : Option (Finset String)

/-- How a write of a file ends: with the new content, with the old one, or with a file that cannot be read. -/
inductive FileWrite where
  | done
  | refused
  | torn

/-- A signature has 64 bytes. -/
def signatureIsValid (κ : Crypto) (wallet : Bytes32) (signature message : Bytes) : Bool :=
  signature.length = 64 && κ.verify wallet signature message

namespace NodeSettings

def voteBytes (σ : NodeSettings) (requestId : String) (validator : NodeId) (vote : VerificationVote) (wallet : String) : Bytes :=
  transactVoteSigningBytes σ.programId σ.clusterTag requestId validator vote wallet

/-- A node without a keypair does not vote. -/
def signedVote (κ : Crypto) (σ : NodeSettings) (now : Nat) (requestId : String) (vote : VerificationVote) :
    Option TransactVerificationResult :=
  σ.cosignKeypair.map fun wallet => {
    requestId, vote
    validator := σ.nodeId
    timestamp := now
    walletPubkey := walletName wallet
    signature := κ.signMessage wallet (σ.voteBytes requestId σ.nodeId vote (walletName wallet)) }

def verifyVoteSignature (κ : Crypto) (σ : NodeSettings) (result : TransactVerificationResult) : Bool :=
  match Base58.decode 32 result.walletPubkey with
  | none => false
  | some wallet => signatureIsValid κ wallet result.signature
      (σ.voteBytes result.requestId result.validator result.vote result.walletPubkey)

def coordinator (σ : NodeSettings) (equivocators : Finset String) : TransactVerificationCoordinator :=
  let c := { TransactVerificationCoordinator.newWithApprovals with
    localWallet := σ.cosignKeypair.map walletName
    equivocators }
  match σ.consensusThresholds with
  | some (min, total) => c.setConsensusThresholds min total
  | none => c

end NodeSettings

/-- What happens at the node, one call at a time, and the signatures that the holders of the keys make elsewhere. -/
inductive NodeEvent where
  | startVerification (now : Nat) (request : TransactVerificationRequest)
  | voteMessage (received : Bool) (written : FileWrite) (source : NodeId) (result : TransactVerificationResult)
  | selfVote (received : Bool) (written : FileWrite) (now : Nat) (requestId : String) (vote : VerificationVote)
  | syncOnchainStakes (stakes : Table String Nat) (registryTotalActiveStake : Nat)
  | registerValidator (validator : NodeId) (walletPubkey : Option String)
  | unregisterValidator (validator : NodeId)
  | cleanupTimeouts (now : Nat)
  | clearEmitted (requestId : String)
  | restart
  | signs (wallet : Bytes32) (message : Bytes)

namespace Node

/-- `Node::new`: the banned wallets come from the file, none if it cannot be read. -/
def new (σ : NodeSettings) (equivocatorsFile : Option (Finset String)) : Node :=
  ⟨σ.coordinator (equivocatorsFile.getD ∅), equivocatorsFile⟩

/-- A write of the banned wallets. -/
def persist (n : Node) (written : FileWrite) (equivocators : Finset String) : Node :=
  match written with
  | .done => { n with equivocatorsFile := some equivocators }
  | .refused => n
  | .torn => { n with equivocatorsFile := none }

/-- A vote goes to the coordinator, and a new ban to the disk. -/
def submit (κ : Crypto) (n : Node) (received : Bool) (written : FileWrite) (result : TransactVerificationResult) :
    Node × Option ApprovedTransact :=
  let submitted := n.coordinator.submitResult κ received result
  let n := { n with coordinator := submitted.coordinator }
  match submitted.persisted with
  | some equivocators => (n.persist written equivocators, submitted.approved)
  | none => (n, submitted.approved)

/-- One call, with the approval it emits. -/
def handle (κ : Crypto) (σ : NodeSettings) (n : Node) : NodeEvent → Node × Option ApprovedTransact
  | .startVerification now request =>
    match n.coordinator.startVerification κ now request with
    | .ok (_, coordinator) => ({ n with coordinator }, none)
    | .error _ => (n, none)
  | .voteMessage received written source result =>
    -- the vote has to come from the peer it names, with a signature of the wallet it names
    if result.validator ≠ source then (n, none)
    else if σ.verifyVoteSignature κ result = false then (n, none)
    else n.submit κ received written result
  | .selfVote received written now requestId vote =>
    match σ.signedVote κ now requestId vote with
    | some result => n.submit κ received written result
    | none => (n, none)
  | .syncOnchainStakes stakes total => ({ n with coordinator := n.coordinator.syncOnchainStakes stakes total }, none)
  | .registerValidator validator wallet =>
    ({ n with coordinator := n.coordinator.registerValidatorWithWallet validator wallet }, none)
  | .unregisterValidator validator => ({ n with coordinator := n.coordinator.unregisterValidator validator }, none)
  | .cleanupTimeouts now => ({ n with coordinator := n.coordinator.cleanupTimeouts now }, none)
  | .clearEmitted requestId => ({ n with coordinator := n.coordinator.clearEmitted requestId }, none)
  | .restart => (new σ n.equivocatorsFile, none)
  | .signs _ _ => (n, none)

/-- The node after a sequence of calls. -/
def run (κ : Crypto) (σ : NodeSettings) (n : Node) (events : List NodeEvent) : Node :=
  events.foldl (fun n e => (n.handle κ σ e).1) n

@[simp] theorem run_nil (κ : Crypto) (σ : NodeSettings) (n : Node) : n.run κ σ [] = n := rfl

@[simp] theorem run_snoc (κ : Crypto) (σ : NodeSettings) (n : Node) (events : List NodeEvent) (e : NodeEvent) :
    n.run κ σ (events ++ [e]) = ((n.run κ σ events).handle κ σ e).1 := by
  simp [run]

theorem run_append (κ : Crypto) (σ : NodeSettings) (n : Node) (xs ys : List NodeEvent) :
    n.run κ σ (xs ++ ys) = (n.run κ σ xs).run κ σ ys :=
  List.foldl_append

end Node

end Paraloom.OffChain
