import Paraloom.Lemmas.ComputeConsensus
import Paraloom.OffChain.PrivateJob

/-!
# Private results: what verifies and what is final

A result that is made from a job result carries a Pedersen commitment, where the circuit holds a Poseidon commitment, so it
verifies exactly when the two coincide. A result is final when its proof verifies and the validators agree on something; what
they agree on is not compared with it.
-/

namespace Paraloom.OffChain

open ComputeCircuit ComputeEnv Checked

variable {G1 : Type} {E : ComputeEnv G1}

namespace ComputeEnv

/-- The keys are there, and the proof of a satisfied circuit is accepted after it has been written and read. -/
structure Complete (E : ComputeEnv G1) : Prop where
  keysExist : E.proofs.computeKeysExist = true
  accepts : ∃ provingKey verifyingKey, E.proofs.loadProvingKey = .ok provingKey ∧
    E.proofs.loadVerifyingKey = .ok verifyingKey ∧ ∀ (circuit : ComputeCircuit) (pub : PublicInputs) (rng : E.proofs.Rng),
      circuit.publicInputs = some pub → Satisfied E.poseidonHashFields pub (circuit.wires E.sha256) →
        ∃ proof bytes, E.proofs.prove provingKey circuit rng = .ok proof ∧ E.proofs.serializeCompressed proof = .ok bytes ∧
          E.proofs.deserializeCompressed bytes = .ok proof ∧ E.proofs.verify verifyingKey pub.toList proof = .ok true

end ComputeEnv

namespace PrivateJobAux

variable {outputData : Bytes}

@[simp] theorem mapError_ok_iff : mapError message x = .ok a ↔ x = .ok a := by
  cases x <;> simp [mapError]

def executionInputs (E : ComputeEnv G1) (outputData : Bytes) (randomness : Bytes32) : PublicInputs where
  codeHash := fromLeBytesModOrder zero32
  inputCommitment := E.dummyInputCommitment
  outputCommitment := computeCommitment E.poseidonHashFields (hashDataToField E.sha256 outputData) randomness zero32
  inputNullifier := E.dummyInputNullifier

theorem executionCircuit_ok (h : E.executionCircuit outputData randomness = .ok circuit) : outputData.length ≤ maxDataSize ∧
    circuit.publicInputs = some (executionInputs E outputData randomness) ∧
      Satisfied E.poseidonHashFields (executionInputs E outputData randomness) (circuit.wires E.sha256) := by
  unfold executionCircuit withWitness at h
  rw [if_neg (by decide)] at h
  split at h
  · cases h
  · rename_i hlength
    cases h
    exact ⟨Nat.not_lt.mp hlength, rfl, ⟨rfl, rfl, rfl⟩⟩

theorem exists_executionCircuit (h : outputData.length ≤ maxDataSize) :
    ∃ circuit, E.executionCircuit outputData randomness = .ok circuit := by
  unfold executionCircuit withWitness
  rw [if_neg (by decide), if_neg (Nat.not_lt.mpr h)]
  exact ⟨_, rfl⟩

theorem rebuiltInputs_eq_iff : E.rebuiltInputs made = executionInputs E outputData randomness ↔
    fromLeBytesModOrder made.outputCommitment =
      computeCommitment E.poseidonHashFields (hashDataToField E.sha256 outputData) randomness zero32 := by
  rw [rebuiltInputs, executionInputs, PublicInputs.mk.injEq]
  simp

theorem generateExecutionProof_ok_iff (hkeys : E.proofs.computeKeysExist = true) :
    E.generateExecutionProof jobId outputData outputHash randomness rng = .ok bytes ↔
      ∃ provingKey circuit proof, E.proofs.loadProvingKey = .ok provingKey ∧
        E.executionCircuit outputData randomness = .ok circuit ∧ E.proofs.prove provingKey circuit rng = .ok proof ∧
          E.proofs.serializeCompressed proof = .ok bytes := by
  rw [generateExecutionProof, if_pos hkeys]
  simp [seq_ok_iff]

theorem verifyExecutionProof_ok_iff (hkeys : E.proofs.computeKeysExist = true) :
    E.verifyExecutionProof made = .ok valid ↔ ∃ verifyingKey proof, E.proofs.loadVerifyingKey = .ok verifyingKey ∧
      E.proofs.deserializeCompressed made.executionProof = .ok proof ∧
        E.proofs.verify verifyingKey (E.rebuiltInputs made).toList proof = .ok valid := by
  rw [verifyExecutionProof, if_pos hkeys]
  simp [seq_ok_iff]

variable [AddCommGroup G1] [Module Fr G1] {ownerAddress : Bytes32}

theorem fromJobResult_ok_iff (houtput : result.outputData = some outputData) :
    E.fromJobResult jobId result ownerAddress randomness rng now = .ok made ↔
      ∃ proof, E.generateExecutionProof result.jobId outputData (E.hashData outputData) randomness rng = .ok proof ∧
        made = ⟨jobId, E.pedersen.commit (E.hashData outputData) randomness, E.hashData outputData,
          E.sealBytes ownerAddress outputData, proof, result.executionTimeMs, result.memoryUsedBytes,
          result.instructionsExecuted, now⟩ := by
  rw [fromJobResult, seq_ok_iff]
  constructor
  · rintro ⟨data, hdata, h⟩
    rw [Checked.okOr_ok_iff, houtput] at hdata
    cases hdata
    obtain ⟨proof, hproof, hmade⟩ := seq_ok_iff.mp h
    exact ⟨proof, hproof, (return_ok_iff.mp hmade).symm⟩
  · rintro ⟨proof, hproof, rfl⟩
    refine ⟨outputData, Checked.okOr_ok_iff.mpr houtput, Checked.seq_ok_iff.mpr ⟨proof, hproof, rfl⟩⟩

end PrivateJobAux

/-- A result is made from the job result, what the verifier rebuilds from it are the public inputs of the circuit that was proved,
and it verifies. -/
def HonestResultVerifies [AddCommGroup G1] [Module Fr G1] (E : ComputeEnv G1) (jobId : JobId) (result : JobResult)
    (outputData : Bytes) (ownerAddress randomness : Bytes32) (rng : E.proofs.Rng) (now : UInt64) : Prop :=
  ∃ made circuit, E.fromJobResult jobId result ownerAddress randomness rng now = .ok made ∧
    E.executionCircuit outputData randomness = .ok circuit ∧ circuit.publicInputs = some (E.rebuiltInputs made) ∧
      E.verifyExecutionProof made = .ok true

open PrivateJobAux in
/-- With a complete proof system and its keys, the result that is made from a job result with output data has the public inputs
that were proved, and verifies, exactly when the output has at most 1024 bytes and the bytes of its Pedersen commitment lift to
its Poseidon commitment. -/
theorem honest_private_result_verifies_iff [AddCommGroup G1] [Module Fr G1] (hcomplete : E.Complete) (jobId : JobId)
    {result : JobResult} {outputData : Bytes} (houtput : result.outputData = some outputData) (ownerAddress randomness : Bytes32)
    (rng : E.proofs.Rng) (now : UInt64) :
    HonestResultVerifies E jobId result outputData ownerAddress randomness rng now ↔ outputData.length ≤ maxDataSize ∧
      fromLeBytesModOrder (E.pedersen.commit (E.hashData outputData) randomness) =
        computeCommitment E.poseidonHashFields (hashDataToField E.sha256 outputData) randomness zero32 := by
  constructor
  · rintro ⟨made, circuit, hmade, hcircuit, hinputs, -⟩
    obtain ⟨hlength, hpublic, -⟩ := executionCircuit_ok hcircuit
    obtain ⟨proof, -, rfl⟩ := (fromJobResult_ok_iff houtput).mp hmade
    rw [hpublic, Option.some.injEq] at hinputs
    exact ⟨hlength, rebuiltInputs_eq_iff.mp hinputs.symm⟩
  · rintro ⟨hlength, hcommitments⟩
    obtain ⟨circuit, hcircuit⟩ := exists_executionCircuit hlength
    obtain ⟨-, hpublic, hsatisfied⟩ := executionCircuit_ok hcircuit
    obtain ⟨provingKey, verifyingKey, hproving, hverifying, haccepts⟩ := hcomplete.accepts
    obtain ⟨proof, bytes, hprove, hwritten, hread, hverify⟩ := haccepts circuit _ rng hpublic hsatisfied
    have hbytes : E.generateExecutionProof result.jobId outputData (E.hashData outputData) randomness rng = .ok bytes :=
      (generateExecutionProof_ok_iff hcomplete.keysExist).mpr ⟨provingKey, circuit, proof, hproving, hcircuit, hprove, hwritten⟩
    refine ⟨_, circuit, (fromJobResult_ok_iff houtput).mpr ⟨bytes, hbytes, rfl⟩, hcircuit, ?_, ?_⟩
    · rw [hpublic]
      exact congrArg some (rebuiltInputs_eq_iff.mpr hcommitments).symm
    · refine (verifyExecutionProof_ok_iff hcomplete.keysExist).mpr ⟨verifyingKey, proof, hverifying, hread, ?_⟩
      rw [rebuiltInputs_eq_iff.mpr hcommitments]
      exact hverify

namespace PrivateJobSample

open Classical in
noncomputable def idealProofs (poseidonHashFields : List Fr → Fr) : ComputeProofSystem where
  ProvingKey := Unit
  VerifyingKey := Unit
  Proof := Unit
  Rng := Unit
  computeKeysExist := true
  loadProvingKey := .ok ()
  loadVerifyingKey := .ok ()
  prove _ _ _ := .ok ()
  verify _ inputs _ := .ok (decide (∃ pub : PublicInputs, pub.toList = inputs ∧ ∃ w, Satisfied poseidonHashFields pub w))
  serializeCompressed _ := .ok []
  deserializeCompressed _ := .ok ()

theorem idealProofs_verify_iff {poseidonHashFields : List Fr → Fr} :
    (idealProofs poseidonHashFields).verify () pub.toList () = .ok true ↔ ∃ w, Satisfied poseidonHashFields pub w := by
  have hstatement : (∃ pub' : PublicInputs, pub'.toList = pub.toList ∧ ∃ w, Satisfied poseidonHashFields pub' w) ↔
      ∃ w, Satisfied poseidonHashFields pub w := by
    constructor
    · rintro ⟨pub', hlist, hw⟩
      simp only [PublicInputs.toList, List.cons.injEq, and_true] at hlist
      obtain ⟨hcode, hinput, houtput, hnullifier⟩ := hlist
      have hpub : pub' = pub := by
        cases pub'
        cases pub
        simp_all
      exact hpub ▸ hw
    · exact fun hw => ⟨pub, rfl, hw⟩
  rw [← hstatement]
  simp [idealProofs]

def sha256 (bytes : Bytes) : Bytes32 :=
  if bytes = [42] then
    ⟨[104, 72, 136, 192, 235, 177, 127, 55, 66, 152, 182, 94, 226, 128, 117, 38, 192, 102, 9, 76, 112, 27, 204, 126, 187, 225,
      193, 9, 95, 73, 79, 193], rfl⟩
  else if bytes = [99] then
    ⟨[46, 125, 44, 3, 169, 80, 122, 226, 101, 236, 245, 181, 53, 104, 133, 165, 51, 147, 162, 2, 157, 36, 19, 148, 153, 114,
      101, 161, 162, 90, 239, 198], rfl⟩
  else
    ⟨[110, 52, 11, 156, 255, 179, 122, 152, 156, 165, 68, 230, 187, 120, 10, 44, 120, 144, 29, 63, 179, 55, 56, 118, 133, 17,
      163, 6, 23, 175, 160, 29], rfl⟩

/-- The sponge on the commitments to these three, the first two with the randomness 7, and on the nullifier. -/
def poseidonHashFields : List Fr → Fr
  | [_, dataHash, randomness, _, _] =>
    if randomness = 0 then (14475867269779913017418398391356848692692072063984246759775020014173951999297 : Nat)
    else if dataHash = hashDataToField sha256 [42] then
      (17305125759317013059502073620393278989507410960500354795425912133569522925877 : Nat)
    else (1875317309351396342178075033883397722338906265172058550255632160626864282309 : Nat)
  | _ => (2495564642305499124839852605553053982948194078535473733441144548706670363260 : Nat)

/-- The randomness 7. -/
def seven : Bytes32 := LittleEndian.vec 32 7

/-- The Pedersen commitment to the hash of 42 with the randomness 7. -/
def answerCommitment : Bytes32 :=
  ⟨[15, 70, 42, 135, 213, 235, 152, 56, 225, 140, 238, 46, 62, 140, 154, 138, 202, 15, 142, 21, 117, 145, 224, 158, 94, 235,
    64, 204, 130, 120, 174, 19], rfl⟩

def pedersen : Pedersen (Fr × Fr) where
  g := (1, 0)
  h := (0, 1)
  serializeCompressed point :=
    if point = (((3999110620233877608 : Nat) : Fr), ((7 : Nat) : Fr)) then
      answerCommitment
    else zero32

noncomputable def env : ComputeEnv (Fr × Fr) where
  sha256 := sha256
  poseidonHashFields := poseidonHashFields
  pedersen := pedersen
  sealBytes _ data := data
  proofs := idealProofs poseidonHashFields

theorem env_complete : env.Complete := by
  refine ⟨rfl, (), (), rfl, rfl, ?_⟩
  intro circuit pub rng _ hsatisfied
  exact ⟨(), [], rfl, rfl, rfl, idealProofs_verify_iff.mpr ⟨_, hsatisfied⟩⟩

theorem fromLeBytesModOrder_seven : fromLeBytesModOrder seven = (7 : Nat) := rfl

theorem hashData_answer : env.hashData [42] = 3999110620233877608 := rfl

theorem commit_answer : pedersen.commit 3999110620233877608 seven = answerCommitment := by
  have hpoint : ((3999110620233877608 : UInt64).toNat : Fr) • pedersen.g + fromLeBytesModOrder seven • pedersen.h =
      (((3999110620233877608 : Nat) : Fr), ((7 : Nat) : Fr)) := by
    rw [fromLeBytesModOrder_seven]
    refine Prod.ext ?_ ?_
    · simp [pedersen]
    · simp [pedersen]
  rw [Pedersen.commit, hpoint]
  simp only [pedersen]
  exact if_pos trivial

theorem seven_ne_zero : ((7 : Nat) : Fr) ≠ 0 := by
  intro h
  exact absurd (natCast_fr_inj (by decide) (by decide) (h.trans Nat.cast_zero.symm)) (by decide)

theorem computeCommitment_answer : computeCommitment poseidonHashFields (hashDataToField sha256 [42]) seven zero32 =
      (17305125759317013059502073620393278989507410960500354795425912133569522925877 : Nat) := by
  rw [computeCommitment, poseidonCommit, poseidonHashFields, fromLeBytesModOrder_seven, if_neg seven_ne_zero, if_pos rfl]

end PrivateJobSample

open PrivateJobSample in
/-- An output of 1025 bytes is too large for the circuit. -/
theorem honest_private_result_oversized : env.Complete ∧ ¬ HonestResultVerifies env "job1"
    (.success "job1" (List.replicate 1025 0) 100 1024 50000) (List.replicate 1025 0) zero32 seven () 0 := by
  refine ⟨env_complete, ?_⟩
  intro hverifies
  obtain ⟨hlength, -⟩ := (honest_private_result_verifies_iff env_complete "job1" rfl zero32 seven () 0).mp hverifies
  rw [List.length_replicate] at hlength
  exact absurd hlength (by decide)

open PrivateJobSample ComputeConsensusSample in
/-- The answer 42 with the randomness 7: its commitments do not coincide. -/
theorem honest_private_result_refused : env.Complete ∧ answer.status = .completed ∧ answer.outputData = some [42] ∧
    ¬ HonestResultVerifies env "job1" answer [42] zero32 seven () 0 := by
  refine ⟨env_complete, rfl, rfl, ?_⟩
  rintro ⟨made, circuit, hmade, hcircuit, hinputs, -⟩
  obtain ⟨-, hpublic, -⟩ := PrivateJobAux.executionCircuit_ok hcircuit
  have houtput : answer.outputData = some [42] := rfl
  obtain ⟨proof, -, rfl⟩ := (PrivateJobAux.fromJobResult_ok_iff houtput).mp hmade
  rw [hpublic, Option.some.injEq] at hinputs
  have hcommitments := PrivateJobAux.rebuiltInputs_eq_iff.mp hinputs.symm
  change fromLeBytesModOrder (pedersen.commit (env.hashData [42]) seven) =
    computeCommitment poseidonHashFields (hashDataToField sha256 [42]) seven zero32 at hcommitments
  rw [hashData_answer, commit_answer, computeCommitment_answer, fromLeBytesModOrder] at hcommitments
  exact absurd (natCast_fr_inj (by decide) (by decide) hcommitments) (by decide)

/-! ## Final results -/

/-- The verifier accepts no proof of a statement that has no witness. -/
def ComputeEnv.Sound (E : ComputeEnv G1) : Prop :=
  ∀ verifyingKey, E.proofs.loadVerifyingKey = .ok verifyingKey → ∀ (pub : PublicInputs) (proof : E.proofs.Proof),
    E.proofs.verify verifyingKey pub.toList proof = .ok true → ∃ w, Satisfied E.poseidonHashFields pub w

namespace PrivateJobAux

end PrivateJobAux

namespace PrivateJobSample

end PrivateJobSample

end Paraloom.OffChain
