import Paraloom.OffChain.ComputeConsensus
import Paraloom.OffChain.TransactConsensus

/-!
# Private compute jobs

The result of a private job carries a commitment to the output, a point of the curve, and a proof about a Poseidon hash. The
proof is checked against public inputs that the verifier rebuilds from the result, and the validators' results are checked for
agreement.
-/

namespace Paraloom.OffChain

/-! ## Commitments -/

/-- Over the sponge `poseidon_hash_fields`. -/
def poseidonCommit (poseidonHashFields : List Fr → Fr) (value randomness recipient assetId : Fr) : Fr :=
  poseidonHashFields [1, value, randomness, recipient, assetId]

def poseidonNullifier (poseidonHashFields : List Fr → Fr) (commitment secret : Fr) : Fr :=
  poseidonHashFields [((2 : Nat) : Fr), commitment, secret]

/-- The generators of the Pedersen commitments, and the compressed encoding of a point of the curve. -/
structure Pedersen (G1 : Type) where
  g : G1
  h : G1
  serializeCompressed : G1 → Bytes32

def Pedersen.commit {G1 : Type} [AddCommGroup G1] [Module Fr G1] (P : Pedersen G1) (value : UInt64) (randomness : Bytes32) :
    Bytes32 :=
  let valueScalar : Fr := value.toNat
  let randomnessScalar := fromLeBytesModOrder randomness
  P.serializeCompressed (valueScalar • P.g + randomnessScalar • P.h)

/-! ## The circuit -/

def maxDataSize : Nat := 1024

structure ComputeCircuit where
  codeHash : Option Bytes32
  inputCommitment : Option Fr
  outputCommitment : Option Fr
  inputNullifier : Option Fr
  inputData : Option Bytes
  inputRandomness : Option Bytes32
  outputData : Option Bytes
  outputRandomness : Option Bytes32
  ownerAddress : Option Bytes32
  spendingKey : Option Bytes32

namespace ComputeCircuit

/-- The public inputs in the order in which they are allocated. -/
structure PublicInputs where
  codeHash : Fr
  inputCommitment : Fr
  outputCommitment : Fr
  inputNullifier : Fr

/-- The private wires. -/
structure Wires where
  inputHash : Fr
  outputHash : Fr
  inputRandomness : Fr
  outputRandomness : Fr
  ownerAddress : Fr
  spendingKey : Fr

section Hashes

variable (sha256 : Bytes → Bytes32) (poseidonHashFields : List Fr → Fr)

def hashDataToField (data : Bytes) : Fr := fromLeBytesModOrder (sha256 data)

def computeCommitment (dataHash : Fr) (randomness owner : Bytes32) : Fr :=
  poseidonCommit poseidonHashFields dataHash (fromLeBytesModOrder randomness) (fromLeBytesModOrder owner) 0

def computeNullifier (commitment : Fr) (spendingKey : Bytes32) : Fr :=
  poseidonNullifier poseidonHashFields commitment (fromLeBytesModOrder spendingKey)

/-- Asserts that the data are not too large. -/
def withWitness (codeHash : Bytes32) (inputCommitment outputCommitment inputNullifier : Fr) (inputData : Bytes)
    (inputRandomness : Bytes32) (outputData : Bytes) (outputRandomness ownerAddress spendingKey : Bytes32) :
    Except (Checked.Failure String) ComputeCircuit :=
  if maxDataSize < inputData.length then .error .panic
  else if maxDataSize < outputData.length then .error .panic
  else .ok ⟨some codeHash, some inputCommitment, some outputCommitment, some inputNullifier, some inputData,
    some inputRandomness, some outputData, some outputRandomness, some ownerAddress, some spendingKey⟩

/-- The public inputs that `generate_constraints` allocates, which fails where an assignment is missing. -/
def publicInputs (c : ComputeCircuit) : Option PublicInputs := do
  let inputCommitment ← c.inputCommitment
  let outputCommitment ← c.outputCommitment
  let inputNullifier ← c.inputNullifier
  return ⟨(c.codeHash.map fromLeBytesModOrder).getD 0, inputCommitment, outputCommitment, inputNullifier⟩

/-- The wires that `generate_constraints` assigns. -/
def wires (c : ComputeCircuit) : Wires where
  inputHash := hashDataToField sha256 (c.inputData.getD [])
  outputHash := hashDataToField sha256 (c.outputData.getD [])
  inputRandomness := fromLeBytesModOrder (c.inputRandomness.getD zero32)
  outputRandomness := fromLeBytesModOrder (c.outputRandomness.getD zero32)
  ownerAddress := fromLeBytesModOrder (c.ownerAddress.getD zero32)
  spendingKey := fromLeBytesModOrder (c.spendingKey.getD zero32)

/-- The constraints. The code hash is allocated and not constrained, and neither are the data behind the hashes. -/
structure Satisfied (pub : PublicInputs) (w : Wires) : Prop where
  inputCommitment : poseidonCommit poseidonHashFields w.inputHash w.inputRandomness w.ownerAddress 0 = pub.inputCommitment
  outputCommitment : poseidonCommit poseidonHashFields w.outputHash w.outputRandomness w.ownerAddress 0 = pub.outputCommitment
  inputNullifier : poseidonNullifier poseidonHashFields pub.inputCommitment w.spendingKey = pub.inputNullifier

end Hashes

/-- The public inputs as the proof system takes them. -/
def PublicInputs.toList (pub : PublicInputs) : List Fr :=
  [pub.codeHash, pub.inputCommitment, pub.outputCommitment, pub.inputNullifier]

end ComputeCircuit

/-- The library of the proof system, and the keys on the disk. -/
structure ComputeProofSystem where
  ProvingKey : Type
  VerifyingKey : Type
  Proof : Type
  /-- What the prover draws. -/
  Rng : Type
  computeKeysExist : Bool
  loadProvingKey : Except String ProvingKey
  loadVerifyingKey : Except String VerifyingKey
  prove : ProvingKey → ComputeCircuit → Rng → Except String Proof
  verify : VerifyingKey → List Fr → Proof → Except String Bool
  serializeCompressed : Proof → Except String Bytes
  deserializeCompressed : Bytes → Except String Proof

/-- What private jobs call and do not compute themselves. -/
structure ComputeEnv (G1 : Type) where
  sha256 : Bytes → Bytes32
  poseidonHashFields : List Fr → Fr
  pedersen : Pedersen G1
  /-- `note_crypto::seal` and its encoding. -/
  sealBytes : (address : Bytes32) → (data : Bytes) → Bytes
  proofs : ComputeProofSystem

/-! ## Results -/

structure PrivateJobResult where
  jobId : JobId
  outputCommitment : Bytes32
  outputHash : UInt64
  encryptedOutput : Bytes
  executionProof : Bytes
  executionTimeMs : UInt64
  memoryUsedBytes : UInt64
  instructionsExecuted : UInt64
  completedAt : UInt64

namespace ComputeEnv

open ComputeCircuit

variable {G1 : Type} (E : ComputeEnv G1)

/-- `PrivateComputeJob::hash_data`: the first eight bytes of the digest. -/
def hashData (data : Bytes) : UInt64 := UInt64.ofNat (LittleEndian.toNat ((E.sha256 data).toList.take 8))

def dummyInputCommitment : Fr :=
  computeCommitment E.poseidonHashFields (hashDataToField E.sha256 [0]) zero32 zero32

def dummyInputNullifier : Fr := computeNullifier E.poseidonHashFields E.dummyInputCommitment zero32

/-- The circuit that `generate_execution_proof` proves. -/
def executionCircuit (outputData : Bytes) (randomness : Bytes32) : Except (Checked.Failure String) ComputeCircuit :=
  let outputCommitment := computeCommitment E.poseidonHashFields (hashDataToField E.sha256 outputData) randomness zero32
  withWitness zero32 E.dummyInputCommitment outputCommitment E.dummyInputNullifier [0] zero32 outputData randomness zero32 zero32

/-- A message in front of an error of the library. -/
def mapError {α : Type} (message : String) : Except String α → Except (Checked.Failure String) α
  | .ok a => .ok a
  | .error e => .error (.error (message ++ e))

def generateExecutionProof (jobId : JobId) (outputData : Bytes) (outputHash : UInt64) (randomness : Bytes32) (rng : E.proofs.Rng) :
    Except (Checked.Failure String) Bytes :=
  if E.proofs.computeKeysExist then do
    let provingKey ← mapError "" E.proofs.loadProvingKey
    let circuit ← E.executionCircuit outputData randomness
    let proof ← mapError "Proof generation failed: " (E.proofs.prove provingKey circuit rng)
    mapError "Proof serialization failed: " (E.proofs.serializeCompressed proof)
  else
    .ok (E.sha256 (utf8 jobId ++ outputData ++ LittleEndian.ofNat 8 outputHash.toNat ++ randomness.toList)).toList

/-- The public inputs that `verify_execution_proof` rebuilds. -/
def rebuiltInputs (result : PrivateJobResult) : PublicInputs where
  codeHash := fromLeBytesModOrder zero32
  inputCommitment := E.dummyInputCommitment
  outputCommitment := fromLeBytesModOrder result.outputCommitment
  inputNullifier := E.dummyInputNullifier

def verifyExecutionProof (result : PrivateJobResult) : Except (Checked.Failure String) Bool :=
  if E.proofs.computeKeysExist then do
    let verifyingKey ← mapError "" E.proofs.loadVerifyingKey
    let proof ← mapError "Proof deserialization failed: " (E.proofs.deserializeCompressed result.executionProof)
    mapError "Proof verification failed: " (E.proofs.verify verifyingKey (E.rebuiltInputs result).toList proof)
  else
    .error (.error "compute verifying key unavailable: refusing to verify execution proof (fail-closed)")

/-- With what it draws and the time. -/
def fromJobResult [AddCommGroup G1] [Module Fr G1] (jobId : JobId) (result : JobResult) (ownerAddress randomness : Bytes32)
    (rng : E.proofs.Rng) (now : UInt64) : Except (Checked.Failure String) PrivateJobResult := do
  let outputData ← Checked.okOr result.outputData (.error "No output data in result")
  let dataHash := E.hashData outputData
  let outputCommitment := E.pedersen.commit dataHash randomness
  let encryptedOutput := E.sealBytes ownerAddress outputData
  let executionProof ← E.generateExecutionProof result.jobId outputData dataHash randomness rng
  return ⟨jobId, outputCommitment, dataHash, encryptedOutput, executionProof, result.executionTimeMs, result.memoryUsedBytes,
    result.instructionsExecuted, now⟩

/-! ## The coordinator of private jobs -/

end ComputeEnv

end Paraloom.OffChain
