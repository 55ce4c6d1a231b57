import Paraloom.OffChain.Membership
import Paraloom.OffChain.ProofVerifier

/-!
# The withdraw leg of the relayer

The relayer proves the withdrawal of a whole native note to a fresh address: the note and a worthless dummy are spent, and two
worthless notes are created. It checks its own proof the way a node does before it sends the withdrawal to the ingress.
-/

namespace Paraloom.OffChain

/-- The errors of `prove_withdraw_to_fresh`, which shares their type with `read_membership`. -/
inductive ProveError where
  | prove (message : String)
  /-- The text shows the verdict. -/
  | selfVerify (verdict : VerificationResult)

/-- The tagged proof of a withdrawal and its public parts. -/
structure WithdrawToFresh where
  proof : Bytes
  nullifiers : Bytes32 × Bytes32
  outputCommitments : Bytes32 × Bytes32
  root : Bytes32
  extAmount : Int64

/-- The values that a prover gives to `TransactCircuitV3`, all of them present. -/
structure TransactCircuit where
  root : Bytes32
  publicAmount : Bytes32
  extDataHash : Bytes32
  assetId : Bytes32
  inputNullifiers : Bytes32 × Bytes32
  outputCommitments : Bytes32 × Bytes32
  inAmounts : UInt64 × UInt64
  inPrivkeys : Bytes32 × Bytes32
  inBlindings : Bytes32 × Bytes32
  inLeafIndices : Nat × Nat
  inPaths : List Bytes32 × List Bytes32
  outAmounts : UInt64 × UInt64
  outPubkeys : Bytes32 × Bytes32
  outBlindings : Bytes32 × Bytes32

/-- The prover of a proof system, under a proving key and its randomness. -/
structure Prover (S : ProofSystem) where
  /-- `Groth16ProofSystem::prove`. -/
  prove : TransactCircuit → Except String S.Proof
  /-- `serialize_compressed`. -/
  serializeCompressed : S.Proof → Except String Bytes

/-- The four values of `rand_fr`: key and blinding of the dummy, and the blindings of the outputs. -/
structure WithdrawRandomness where
  dsk : Fr
  dbl : Fr
  ob0 : Fr
  ob1 : Fr

def ProofSuite.tag : ProofSuite → UInt8
  | .groth16Bn254TransactV3 => 1

def tagProof (suite : ProofSuite) (body : Bytes) : Bytes := suite.tag :: body

/-- `-(amount as i64)`: the cast wraps, and the negation of the smallest value panics. -/
def negatedAmount (amount : UInt64) : Option Int64 :=
  let signed := amount.toInt64
  if signed = Int64.minValue then none else some (-signed)

section

variable (sha256 : Bytes → Bytes32) (poseidon : List Fr → Fr) (random : WithdrawRandomness) (sk blinding notePubkey : Fr)
  (amount : UInt64) (membership : Membership) (recipient : Bytes32)

/-- The circuit of a withdrawal with its external amount. -/
def withdrawCircuit (extAmount : Int64) : TransactCircuit :=
  let root := fromLeBytesModOrder membership.root
  let leafIndex : Fr := membership.leafIndex
  let commitment := v3Commit poseidon amount.toNat notePubkey blinding 0
  let nf0 := v3Nullifier poseidon commitment leafIndex (v3Signature poseidon sk commitment leafIndex)
  let dc := v3Commit poseidon 0 (v3Pubkey poseidon random.dsk) random.dbl 0
  let nf1 := v3Nullifier poseidon dc 0 (v3Signature poseidon random.dsk dc 0)
  let oc0 := v3Commit poseidon 0 notePubkey random.ob0 0
  let oc1 := v3Commit poseidon 0 notePubkey random.ob1 0
  let publicAmount : Fr := -(amount.toNat : Fr)
  { root := toBytesLe root
    publicAmount := toBytesLe publicAmount
    extDataHash := sha256 (recipient.toList ++ LittleEndian.ofNat 8 extAmount.toUInt64.toNat)
    assetId := zero32
    inputNullifiers := (toBytesLe nf0, toBytesLe nf1)
    outputCommitments := (toBytesLe oc0, toBytesLe oc1)
    inAmounts := (amount, 0)
    inPrivkeys := (toBytesLe sk, toBytesLe random.dsk)
    inBlindings := (toBytesLe blinding, toBytesLe random.dbl)
    inLeafIndices := (membership.leafIndex, 0)
    inPaths := (membership.path, membership.path)
    outAmounts := (0, 0)
    outPubkeys := (toBytesLe notePubkey, toBytesLe notePubkey)
    outBlindings := (toBytesLe random.ob0, toBytesLe random.ob1) }

def proveWithdrawToFresh (S : ProofSystem) (prover : Prover S) : Except (Checked.Failure ProveError) WithdrawToFresh := do
  let extAmount ← Checked.okOr (negatedAmount amount) .panic
  let circuit := withdrawCircuit sha256 poseidon random sk blinding notePubkey amount membership recipient extAmount
  let proof ← (prover.prove circuit).mapError fun e => .error (.prove e)
  let body ← (prover.serializeCompressed proof).mapError fun e => .error (.prove e)
  let tagged := tagProof .groth16Bn254TransactV3 body
  let verdict := ProofVerifier.verifyTransactParts sha256 membership.root recipient extAmount zero32 circuit.inputNullifiers
    circuit.outputCommitments S tagged
  Checked.require (verdict = .valid) (.error (.selfVerify verdict))
  return {
    proof := tagged, nullifiers := circuit.inputNullifiers, outputCommitments := circuit.outputCommitments
    root := membership.root, extAmount }

end

end Paraloom.OffChain
