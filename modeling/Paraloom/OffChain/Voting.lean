import Paraloom.OffChain.ProofVerifier

/-!
# How a node votes

A node votes on a request that a peer sends and on one that it starts itself. The key for the proof is read from a file when a
check first comes to it, and kept in memory from the first read that succeeds. The requests that were found valid are kept in a
map of bounded size. A restart forgets both.
-/

namespace Paraloom.OffChain

/-- Every peer, until there is a snapshot. -/
def TransactVerificationCoordinator.sourceIsOnchainValidator (c : TransactVerificationCoordinator) (nodeId : NodeId) : Bool :=
  c.onchainWallets = ∅ || (c.validatorWallet nodeId).any (· ∈ c.onchainWallets)

def ProofSystem.withKey (S : ProofSystem) (key : Except String S.VerifyingKey) : ProofSystem :=
  { S with getTransactVerifyingKey := key }

/-- What a node votes with. It has a coordinator and a pool if it runs the bridge. -/
structure Voter (S : ProofSystem) where
  transactCoordinator : Option Node
  shieldedPool : Bool
  /-- `TRANSACT_VERIFYING_KEY`. -/
  transactVerifyingKey : Option S.VerifyingKey
  verifiedTransacts : Table String TransactVerificationRequest

/-- What happens at a node. A call goes with the order in which the map iterates, the time, and what a read of the key file
gives at that time. -/
inductive VoterEvent (S : ProofSystem) where
  | request (ι : KeyOrder) (now : Nat) (read : Except String S.VerifyingKey) (source : NodeId)
      (request : TransactVerificationRequest)
  | initiate (ι : KeyOrder) (now : Nat) (read : Except String S.VerifyingKey) (received : Bool) (written : FileWrite)
      (request : TransactVerificationRequest)
  /-- The coordinator has changed: by votes of peers, a snapshot or a sweep. -/
  | coordinated (n : Node)
  | restart

namespace Voter

variable {S : ProofSystem} (κ : Crypto) (σ : NodeSettings) (poseidon : List Fr → Fr) (runsBridge : Bool)

def new (equivocatorsFile : Option (Finset String)) : Voter S where
  transactCoordinator := if runsBridge then some (.new σ equivocatorsFile) else none
  shieldedPool := runsBridge
  transactVerifyingKey := none
  verifiedTransacts := ∅

def getTransactVerifyingKey (v : Voter S) (read : Except String S.VerifyingKey) : Except String S.VerifyingKey :=
  match v.transactVerifyingKey with
  | some key => .ok key
  | none => read

/-- `verify_transact_proof`. The key is kept once a check has come to it. -/
def verify (v : Voter S) (read : Except String S.VerifyingKey) (request : TransactVerificationRequest) : Bool × Voter S :=
  let keyed := S.withKey (v.getTransactVerifyingKey read)
  let transactVerifyingKey : Option S.VerifyingKey :=
    match request.equation keyed κ poseidon with
    | .ok (key, _) => some key
    | .error _ => v.transactVerifyingKey
  (verifyTransactProof none keyed κ poseidon request, { v with transactVerifyingKey })

def remember (ι : KeyOrder) (v : Voter S) (request : TransactVerificationRequest) : Voter S :=
  { v with verifiedTransacts := cacheVerified ι v.verifiedTransacts request.requestId request }

/-- The message `TransactVerificationRequest`, with the vote that is signed. -/
def handleRequest (v : Voter S) (ι : KeyOrder) (now : Nat) (read : Except String S.VerifyingKey) (source : NodeId)
    (request : TransactVerificationRequest) : Voter S × Option TransactVerificationResult :=
  if request.requestId ≠ request.canonicalId κ then (v, none)
  else if (v.transactCoordinator.any (·.coordinator.sourceIsOnchainValidator source)) = false then (v, none)
  else
    let (vote, v) : VerificationVote × Voter S :=
      if request.requestId ∈ v.verifiedTransacts then (.valid, v)
      else if v.shieldedPool then
        let (valid, v) := v.verify κ poseidon read request
        (if valid then .valid else .invalid "Proof verification failed", v)
      else (.invalid "Privacy pool not available", v)
    (if vote.isValid then v.remember ι request else v, σ.signedVote κ now request.requestId vote)

/-- The node signs its own vote and hands it to its coordinator. -/
def selfVote (v : Voter S) (n : Node) (now : Nat) (received : Bool) (written : FileWrite) (requestId : String)
    (vote : VerificationVote) : Voter S × Option TransactVerificationResult :=
  match σ.signedVote κ now requestId vote with
  | some result => ({ v with transactCoordinator := some (n.submit κ received written result).1 }, some result)
  | none => ({ v with transactCoordinator := some n }, none)

/-- With the vote that is signed. -/
def initiateTransactVerification (v : Voter S) (ι : KeyOrder) (now : Nat) (read : Except String S.VerifyingKey)
    (received : Bool) (written : FileWrite) (request : TransactVerificationRequest) :
    Voter S × Option TransactVerificationResult :=
  match v.transactCoordinator with
  | none => (v, none)
  | some n =>
    let coordinator := n.coordinator.registerValidatorWithWallet σ.nodeId (σ.cosignKeypair.map walletName)
    match coordinator.startVerification κ now request with
    | .error _ => ({ v with transactCoordinator := some { n with coordinator } }, none)
    | .ok (requestId, coordinator) =>
      let (valid, v) := v.verify κ poseidon read request
      let v := if valid then v.remember ι request else v
      let vote := if valid then .valid else .invalid "self-verify: proof verification failed"
      v.selfVote κ σ { n with coordinator } now received written requestId vote

def handle (v : Voter S) : VoterEvent S → Voter S × Option TransactVerificationResult
  | .request ι now read source request => v.handleRequest κ σ poseidon ι now read source request
  | .initiate ι now read received written request =>
    v.initiateTransactVerification κ σ poseidon ι now read received written request
  | .coordinated n => ({ v with transactCoordinator := v.transactCoordinator.map fun _ => n }, none)
  | .restart => (new σ runsBridge (v.transactCoordinator.bind (·.equivocatorsFile)), none)

def run (v : Voter S) (events : List (VoterEvent S)) : Voter S :=
  events.foldl (fun v e => (v.handle κ σ poseidon runsBridge e).1) v

/-- The votes that are signed. -/
def signed (v : Voter S) : List (VoterEvent S) → List TransactVerificationResult
  | [] => []
  | e :: events => (v.handle κ σ poseidon runsBridge e).2.toList ++ signed (v.handle κ σ poseidon runsBridge e).1 events

end Voter

end Paraloom.OffChain
