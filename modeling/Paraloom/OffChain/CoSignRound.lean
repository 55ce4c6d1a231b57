import Paraloom.OffChain.CoSign
import Paraloom.OffChain.Node

/-!
# The co-sign round of the leader

The node that settles an approved request asks the voters of the round for their signatures over the settlement message, under
the wallet that each of them advertises, and puts the signatures together to a transaction.
-/

namespace Paraloom.OffChain

/-! ## Proofs on the wire -/

/-- The proof systems of a settlement proof. -/
inductive ProofSuite where
  | groth16Bn254TransactV3
  deriving DecidableEq

def groth16Bn254CompressedLen : Nat := 128

def ProofSuite.bodyLen : ProofSuite → Nat
  | .groth16Bn254TransactV3 => groth16Bn254CompressedLen

def ProofSuite.fromTag (tag : UInt8) : Except String ProofSuite :=
  if tag = 1 then .ok .groth16Bn254TransactV3 else .error s!"unknown proof suite tag {tag}"

def splitTaggedProof : Bytes → Except String (ProofSuite × Bytes)
  | [] => .error "empty proof blob"
  | tag :: body =>
    match ProofSuite.fromTag tag with
    | .error e => .error e
    | .ok suite =>
      if body.length ≠ suite.bodyLen then
        .error s!"proof suite Groth16Bn254TransactV3 expects a {suite.bodyLen}-byte body, got {body.length}"
      else .ok (suite, body)

/-! ## Who is asked -/

/-- `VoteTally::valid_voters`: the peers that the valid votes of eligible wallets arrived from. -/
def VoteTally.validVoters (tally : VoteTally) (eligibleWallets : Finset String) : List NodeId :=
  (tally.votes.entries.filter fun e => e.2.vote.isValid = true ∧ e.1 ∈ eligibleWallets).map (·.2.nodeId)

namespace TransactVerificationCoordinator

/-- The wallet that a peer advertises. -/
def validatorWallet (c : TransactVerificationCoordinator) (nodeId : NodeId) : Option String :=
  (c.leaderSelector.lookup nodeId).bind (·.walletPubkey)

/-- None if the round is not open. -/
def validVoters (c : TransactVerificationCoordinator) (requestId : String) : List NodeId :=
  match c.pending.lookup requestId with
  | some consensus => consensus.tally.validVoters c.eligibleWallets
  | none => []

/-- The voters other than the node itself, with the wallets they advertise, as far as these can be read. -/
def cosignPeers (c : TransactVerificationCoordinator) (selfId : NodeId) (requestId : String) : List (Bytes32 × NodeId) :=
  (c.validVoters requestId).filterMap fun voter =>
    if voter = selfId then none
    else ((c.validatorWallet voter).bind (Base58.decode 32)).map fun wallet => (wallet, voter)

end TransactVerificationCoordinator

/-! ## Signatures -/

/-- A transaction: the signatures, in the order of the signers of the message. -/
structure Transaction where
  signatures : List Bytes
  message : SettlementMessage

/-- The loop of `gather_signatures` over the peers. The answers are counted, since a peer may be asked more than once. -/
def gatherLoop (κ : Crypto) (messageBytes : Bytes) (expected : List Bytes32) (threshold : Nat)
    (answer : Nat → NodeId → Option (Bytes32 × Bytes)) :
    Nat → List (Bytes32 × NodeId) → Table Bytes32 Bytes → Table Bytes32 Bytes
  | _, [], collected => collected
  | i, (_, peer) :: peers, collected =>
    if threshold ≤ collected.entries.length then collected
    else match answer i peer with
      | none => gatherLoop κ messageBytes expected threshold answer (i + 1) peers collected
      | some (wallet, sig) =>
        if wallet ∉ expected ∨ wallet ∈ collected ∨ signatureIsValid κ wallet sig messageBytes = false then
          gatherLoop κ messageBytes expected threshold answer (i + 1) peers collected
        else gatherLoop κ messageBytes expected threshold answer (i + 1) peers (collected.insert wallet sig)

/-- What one answer adds to the signatures. -/
def keepAnswer (κ : Crypto) (messageBytes : Bytes) (expected : List Bytes32) (collected : Table Bytes32 Bytes) :
    Option (Bytes32 × Bytes) → Table Bytes32 Bytes
  | none => collected
  | some (wallet, sig) =>
    if wallet ∉ expected ∨ wallet ∈ collected ∨ signatureIsValid κ wallet sig messageBytes = false then collected
    else collected.insert wallet sig

def gatherSignatures (κ : Crypto) (δ : SolanaSdk) (message : SettlementMessage) (own : Bytes32 × Bytes)
    (peers : List (Bytes32 × NodeId)) (threshold : Nat) (answer : Nat → NodeId → Option (Bytes32 × Bytes)) :
    Except NodeError (Table Bytes32 Bytes) :=
  let messageBytes := δ.serializeMessage message
  if signatureIsValid κ own.1 own.2 messageBytes = false then
    .error (.serialization "leader's own co-sign signature does not verify")
  else
    let collected := gatherLoop κ messageBytes (peers.map Prod.fst) threshold answer 0 peers
      ((∅ : Table Bytes32 Bytes).insert own.1 own.2)
    if collected.entries.length < threshold then
      .error (.serialization s!"co-sign quorum not reached: {collected.entries.length} of {threshold} signatures")
    else .ok collected

/-- The signatures of the signers of a message, in their order. -/
def orderedSignatures (signatures : Table Bytes32 Bytes) : List Bytes32 → Except NodeError (List Bytes)
  | [] => .ok []
  | key :: keys =>
    match signatures.lookup key with
    | none => .error (.serialization s!"missing co-signature for required signer {walletName key}")
    | some sig =>
      if sig.length ≠ 64 then .error (.serialization s!"malformed signature for {walletName key}")
      else match orderedSignatures signatures keys with
        | .error e => .error e
        | .ok sigs => .ok (sig :: sigs)

/-- Every signer has to have a signature, and all of them have to verify. -/
def assembleTransaction (κ : Crypto) (δ : SolanaSdk) (message : SettlementMessage) (signatures : Table Bytes32 Bytes) :
    Except NodeError Transaction :=
  match orderedSignatures signatures message.signers with
  | .error e => .error e
  | .ok ordered =>
    if (message.signers.zip ordered).all fun e => κ.verify e.1 e.2 (δ.serializeMessage message) then .ok ⟨ordered, message⟩
    else .error (.serialization "assembled transaction failed to verify: signature verification failed")

/-! ## The round -/

/-- What a peer answers to a request over the network, at each time it is asked. -/
abbrev CoSignNetwork : Type := Nat → NodeId → CoSignRequest → Option CoSignResponse

def CoSignResponse.parse (response : CoSignResponse) : Option (Bytes32 × Bytes) :=
  match response.signature, Base58.decode 32 response.walletPubkey with
  | some sig, some wallet => some (wallet, sig)
  | _, _ => none

def runCosignRound (κ : Crypto) (δ : SolanaSdk) (leader programId bridgeVault blockhash : Bytes32) (requestId : String)
    (kind : SettlementKind) (params : SettlementParams) (quorumWallets : List Bytes32) (peers : List (Bytes32 × NodeId))
    (threshold : Nat) (send : CoSignNetwork) : Except NodeError Transaction :=
  let payload : CoSignPayload := {
    programId, authority := leader, bridgeVault, blockhash, quorumValidators := quorumWallets, params }
  match buildSettlementMessage δ payload with
  | .error e => .error e
  | .ok message =>
    let ownSig := κ.signMessage leader (δ.serializeMessage message)
    let request : CoSignRequest := ⟨requestId, kind, δ.serializePayload payload⟩
    match gatherSignatures κ δ message (leader, ownSig) peers threshold
        fun i peer => (send i peer request).bind CoSignResponse.parse with
    | .error e => .error e
    | .ok collected => assembleTransaction κ δ message collected

def TransactVerificationRequest.params (request : TransactVerificationRequest) (proof : Bytes) : SettlementParams :=
  match request.mint with
  | some mint => .transactSpl request.recipient mint request.nullifiers request.outputCommitments request.root
      request.extAmount proof
  | none => .transact request.recipient request.nullifiers request.outputCommitments request.root request.extAmount proof

/-- The conversion of the compressed proof to the form the program reads is that of the proof
system. -/
def cosignSettlementTransactTx (κ : Crypto) (δ : SolanaSdk) (compressedProofToOnchainBytes : Bytes → Except String Bytes)
    (σ : NodeSettings) (c : TransactVerificationCoordinator) (approved : ApprovedTransact) (blockhash : Bytes32)
    (send : CoSignNetwork) : Except String Transaction :=
  match σ.cosignKeypair with
  | none => .error "no settlement keypair configured"
  | some leader =>
    let request := approved.request
    match Base58.decode 32 σ.programId with
    | none => .error "invalid program id"
    | some programId =>
      let vault := deriveBridgeVault δ programId
      let peers := c.cosignPeers σ.nodeId request.requestId
      let quorumWallets := leader :: peers.map Prod.fst
      match splitTaggedProof request.proof with
      | .error e => .error s!"transact proof envelope: {e}"
      | .ok (.groth16Bn254TransactV3, body) =>
        match compressedProofToOnchainBytes body with
        | .error e => .error s!"transact proof: {e}"
        | .ok proof =>
          match runCosignRound κ δ leader programId vault blockhash request.requestId .transact (request.params proof)
              quorumWallets peers quorumWallets.length send with
          | .error _ => .error "co-signing round failed"
          | .ok tx => .ok tx

end Paraloom.OffChain
