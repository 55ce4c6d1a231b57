import Paraloom.Circuit
import Paraloom.OffChain.CoSignRound

/-!
# The node's proof check

A node checks the proof of a request before it votes. The public inputs are derived from the request the way the program
derives them from the arguments of the settlement: every word is lifted to the field, the signed amount becomes a field
element, and recipient and amount are bound by their hash.
-/

namespace Paraloom.OffChain

/-- The library of the proof system. -/
structure ProofSystem where
  Proof : Type
  VerifyingKey : Type
  /-- `Proof::deserialize_compressed`. -/
  deserializeCompressed : Bytes → Except String Proof
  /-- `get_transact_verifying_key`, which depends on a file. -/
  getTransactVerifyingKey : Except String VerifyingKey
  /-- `Groth16ProofSystem::verify`. -/
  verify : VerifyingKey → List Fr → Proof → Except String Bool

inductive VerificationResult where
  | valid
  | invalid (reason : String)
  deriving DecidableEq

def isCanonicalLe (b : Bytes32) : Bool := toBytesLe (fromLeBytesModOrder b) = b

/-- `poseidon_circom::mint_to_asset`: Poseidon of the two halves of the mint. -/
def PoseidonCircom.mintToAsset (poseidon : List Fr → Fr) (mint : Bytes32) : Bytes32 :=
  let lo : Fr := LittleEndian.toNat (mint.val.take 16)
  let hi : Fr := LittleEndian.toNat (mint.val.drop 16)
  toBytesLe (v3MerklePair poseidon lo hi)

namespace ProofVerifier

section

variable (sha256 : Bytes → Bytes32) (root recipient : Bytes32) (extAmount : Int64) (assetId : Bytes32)
  (nullifiers outputCommitments : Bytes32 × Bytes32)

def publicInputs : List Fr :=
  let extDataHash := sha256 (recipient.toList ++ LittleEndian.ofNat 8 extAmount.toUInt64.toNat)
  let magnitude : Fr := extAmount.toInt.natAbs
  let publicAmount := if extAmount < 0 then -magnitude else magnitude
  [fromLeBytesModOrder root, publicAmount, fromLeBytesModOrder extDataHash, fromLeBytesModOrder assetId,
    fromLeBytesModOrder nullifiers.1, fromLeBytesModOrder nullifiers.2, fromLeBytesModOrder outputCommitments.1,
    fromLeBytesModOrder outputCommitments.2]

/-- `verify_transact_parts` up to the check of the equation: the reason for which the check is not reached, or what is
checked. -/
def transactEquation (S : ProofSystem) (zkProof : Bytes) : Except String (S.VerifyingKey × List Fr × S.Proof) :=
  if 0 < extAmount then .error "positive ext_amount: deposits go through deposit_note"
  else if isCanonicalLe root = false then .error "non-canonical root encoding"
  else if isCanonicalLe nullifiers.1 = false then .error "non-canonical nullifier encoding"
  else if isCanonicalLe nullifiers.2 = false then .error "non-canonical nullifier encoding"
  else if isCanonicalLe outputCommitments.1 = false then .error "non-canonical output commitment encoding"
  else if isCanonicalLe outputCommitments.2 = false then .error "non-canonical output commitment encoding"
  else
    match splitTaggedProof zkProof with
    | .error e => .error s!"Invalid proof envelope: {e}"
    | .ok (.groth16Bn254TransactV3, body) =>
      match S.deserializeCompressed body with
      | .error e => .error s!"Invalid proof format: {e}"
      | .ok proof =>
        match S.getTransactVerifyingKey with
        | .error e => .error s!"transact verifying key unavailable: {e}"
        | .ok verifyingKey =>
          .ok (verifyingKey, publicInputs sha256 root recipient extAmount assetId nullifiers outputCommitments, proof)

def verifyTransactParts (S : ProofSystem) (zkProof : Bytes) : VerificationResult :=
  match transactEquation sha256 root recipient extAmount assetId nullifiers outputCommitments S zkProof with
  | .error reason => .invalid reason
  | .ok (verifyingKey, inputs, proof) =>
    match S.verify verifyingKey inputs proof with
    | .ok true => .valid
    | .ok false => .invalid "transact zkSNARK proof verification failed"
    | .error e => .invalid s!"Verification error: {e}"

end

end ProofVerifier

namespace TransactVerificationRequest

/-- The asset that the proof of a request is about: that of the mint, or that of native SOL. -/
def assetId (poseidon : List Fr → Fr) (request : TransactVerificationRequest) : Bytes32 :=
  (request.mint.map (PoseidonCircom.mintToAsset poseidon)).getD zero32

/-- What the check of a request comes down to. -/
def equation (S : ProofSystem) (κ : Crypto) (poseidon : List Fr → Fr) (request : TransactVerificationRequest) :
    Except String (S.VerifyingKey × List Fr × S.Proof) :=
  ProofVerifier.transactEquation κ.sha256 request.root request.recipient request.extAmount (request.assetId poseidon)
    request.nullifiers request.outputCommitments S request.proof

end TransactVerificationRequest

/-- The override is for tests and absent in production. -/
def verifyTransactProof (override : Option (TransactVerificationRequest → Bool)) (S : ProofSystem) (κ : Crypto)
    (poseidon : List Fr → Fr) (request : TransactVerificationRequest) : Bool :=
  match override with
  | some verifier => verifier request
  | none => ProofVerifier.verifyTransactParts κ.sha256 request.root request.recipient request.extAmount
      (request.assetId poseidon) request.nullifiers request.outputCommitments S request.proof = .valid

end Paraloom.OffChain
