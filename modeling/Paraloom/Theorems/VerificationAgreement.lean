import Paraloom.Lemmas.Poseidon
import Paraloom.OffChain.SettlementContext
import Paraloom.Theorems.CoSignSet

/-!
# The proof checks of the node and of the program

A request that a quorum approves is settled with the same words, recipient, amount and mint. The node and the program check
the same encodings and verify against the same eight field elements, which they derive on different paths.
-/

namespace Paraloom

theorem publicAmountBytes_injective : Function.Injective publicAmountBytes := by
  intro x y h
  have hcast : ((x.toInt : Int) : Fr) = ((y.toInt : Int) : Fr) := by
    rw [← fromLeBytesModOrder_publicAmountBytes, h, fromLeBytesModOrder_publicAmountBytes]
  have hdvd : (frModulus : Int) ∣ y.toInt - x.toInt := (ZMod.intCast_eq_intCast_iff_dvd_sub _ _ _).mp hcast
  have hx := x.toInt_lt
  have hx' := x.le_toInt
  have hy := y.toInt_lt
  have hy' := y.le_toInt
  have hzero : y.toInt - x.toInt = 0 := by
    refine Int.eq_zero_of_abs_lt_dvd hdvd ?_
    have hfield : (2 : Int) ^ 64 < frModulus := by decide
    rw [abs_lt]
    constructor <;> omega
  exact Int64.toInt_inj.mp (by omega)

namespace OffChain

namespace TransactVerificationRequest

/-- No deposit, and every word is the canonical encoding of a field element. -/
def WellEncoded (request : TransactVerificationRequest) : Prop :=
  request.extAmount ≤ 0 ∧ Canonical request.root ∧ Canonical request.nullifiers.1 ∧ Canonical request.nullifiers.2 ∧
    Canonical request.outputCommitments.1 ∧ Canonical request.outputCommitments.2

/-- The proof decodes, and there is a key to verify it with. -/
def Decodable (S : ProofSystem) (request : TransactVerificationRequest) : Prop :=
  ∃ body proof key, splitTaggedProof request.proof = .ok (.groth16Bn254TransactV3, body) ∧
    S.deserializeCompressed body = .ok proof ∧ S.getTransactVerifyingKey = .ok key

end TransactVerificationRequest

/-- The settlement of a request on chain: `transact`, or `transact_spl` for a mint. -/
def settleOnChain (Γ : Ctx) (clock : Clock) (s : State) (authority : Signer) (recipient : Pubkey) (mint : Option Pubkey)
    (feeTokenAccount : Pubkey) (quorum : List AccountMeta) (args : TransactArgs) : Result State :=
  match mint with
  | none => transact Γ clock s authority recipient quorum args
  | some mint => transactSpl Γ clock s authority mint recipient feeTokenAccount quorum args

def assetOnChain (Γ : Ctx) : Option Pubkey → Result Bytes32
  | none => pure Paraloom.nativeSolAsset
  | some mint => mintToAsset Γ mint

namespace VerificationAux

variable {κ : Crypto} {request : TransactVerificationRequest}

theorem isCanonicalLe_eq_false_iff : isCanonicalLe b = false ↔ ¬Canonical b := by
  simp [isCanonicalLe, Canonical]

/-- What is checked, and when the check is reached. -/
theorem equation_ok_iff : request.equation S κ poseidon = .ok (key, inputs, proof) ↔
      request.WellEncoded ∧
      (∃ body, splitTaggedProof request.proof = .ok (.groth16Bn254TransactV3, body) ∧
        S.deserializeCompressed body = .ok proof) ∧ S.getTransactVerifyingKey = .ok key ∧
      inputs = ProofVerifier.publicInputs κ.sha256 request.root request.recipient request.extAmount
        (request.assetId poseidon) request.nullifiers request.outputCommitments := by
  simp only [TransactVerificationRequest.equation, ProofVerifier.transactEquation, isCanonicalLe_eq_false_iff,
    TransactVerificationRequest.WellEncoded]
  by_cases hext : 0 < request.extAmount
  · have hnot : ¬request.extAmount ≤ 0 := Int64.not_le.mpr hext
    simp [hext, hnot]
  by_cases hroot : Canonical request.root
  swap; · simp [hext, hroot]
  by_cases hn0 : Canonical request.nullifiers.1
  swap; · simp [hext, hroot, hn0]
  by_cases hn1 : Canonical request.nullifiers.2
  swap; · simp [hext, hroot, hn0, hn1]
  by_cases ho0 : Canonical request.outputCommitments.1
  swap; · simp [hext, hroot, hn0, hn1, ho0]
  by_cases ho1 : Canonical request.outputCommitments.2
  swap; · simp [hext, hroot, hn0, hn1, ho0, ho1]
  have hnonpos : request.extAmount ≤ 0 := Int64.not_lt.mp hext
  simp only [hext, hroot, hn0, hn1, ho0, ho1, hnonpos, not_true_eq_false, if_false, true_and]
  cases hsplit : splitTaggedProof request.proof with
  | error e => simp
  | ok tagged =>
    obtain ⟨⟨⟩, body⟩ := tagged
    cases hbody : S.deserializeCompressed body with
    | error e => simp [hbody]
    | ok proof' =>
      cases hkey : S.getTransactVerifyingKey with
      | error e => simp [hbody]
      | ok key' =>
        simp only [Except.ok.injEq, Prod.mk.injEq, true_and, exists_eq_left', hbody]
        tauto

/-- A proof that the node accepts. -/
theorem verifyTransactProof_iff : verifyTransactProof none S κ poseidon request = true ↔
    ∃ key inputs decoded, request.equation S κ poseidon = .ok (key, inputs, decoded) ∧
      S.verify key inputs decoded = .ok true := by
  rw [verifyTransactProof, ProofVerifier.verifyTransactParts, ← TransactVerificationRequest.equation]
  cases request.equation S κ poseidon with
  | error e => simp
  | ok checked =>
    obtain ⟨key, inputs, decoded⟩ := checked
    cases hverify : S.verify key inputs decoded with
    | error e => simp_all
    | ok accepted => cases accepted <;> simp_all

/-- The checks that `transact` and `transact_spl` make on their arguments. -/
theorem checkTransactArgs_iff : checkTransactArgs bridge tree (request.args proof) = .ok () ↔
      request.WellEncoded ∧ bridge.paused = false ∧ proof ≠ [] ∧ proof.length ≤ maxProofLen ∧
        request.nullifiers.1 ≠ request.nullifiers.2 ∧ tree.isKnownRoot request.root = true := by
  have hext : request.extAmount.toInt ≤ 0 ↔ request.extAmount ≤ 0 := by
    rw [Int64.le_iff_toInt_le]
    rfl
  simp only [checkTransactArgs, Checked.seq_ok_iff, require_ok_iff, requireCanonicalField_ok_iff,
    requireCanonicalNullifier_ok_iff, exists_const]
  simp only [TransactVerificationRequest.args, TransactVerificationRequest.WellEncoded, hext]
  tauto

theorem publicInputs_eq (hposeidon : Γ.PoseidonAgrees poseidon) (hsha : Γ.sha256 = κ.sha256)
    (hrecipient : Γ.toBytes recipient = request.recipient) (hmint : mint.map Γ.toBytes = request.mint) :
    ∃ asset, assetOnChain Γ mint = .ok asset ∧
      ProofVerifier.publicInputs κ.sha256 request.root request.recipient request.extAmount (request.assetId poseidon)
        request.nullifiers request.outputCommitments = ((request.args proof).publicInputs Γ recipient asset).toList := by
  have hasset : assetOnChain Γ mint = .ok (request.assetId poseidon) := by
    cases mint with
    | none =>
      rw [TransactVerificationRequest.assetId, ← hmint]
      rfl
    | some mint =>
      rw [TransactVerificationRequest.assetId, ← hmint]
      exact hposeidon.mintToAsset mint
  refine ⟨_, hasset, ?_⟩
  have hamount : (if request.extAmount < 0 then -(request.extAmount.toInt.natAbs : Fr) else request.extAmount.toInt.natAbs) =
      fromLeBytesModOrder (publicAmountBytes request.extAmount) := by
    rw [publicAmountBytes, fromLeBytesModOrder_toBytesLe]
  have hhash : κ.sha256 (request.recipient.toList ++ LittleEndian.ofNat 8 request.extAmount.toUInt64.toNat) =
      transactExtDataHash Γ recipient request.extAmount := by
    rw [transactExtDataHash, hsha, hrecipient]
    rfl
  simp only [ProofVerifier.publicInputs, hamount, hhash]
  rfl

/-- A settlement that succeeds has passed the checks on its arguments and its proof. -/
theorem settleOnChain_ok (h : settleOnChain Γ clock s authority recipient mint feeTokenAccount quorum args = .ok s') :
    (∃ bridge tree, checkTransactArgs bridge tree args = .ok ()) ∧
      ∃ asset, assetOnChain Γ mint = .ok asset ∧
        verifyTransact Γ (args.publicInputs Γ recipient asset) args.proof = true := by
  have hsettle : ∃ st, settle Γ clock s authority recipient (assetOnChain Γ mint) quorum args = .ok st := by
    cases mint with
    | none =>
      simp only [settleOnChain, transact, Checked.seq_ok_iff] at h
      obtain ⟨_, -, st, hst, -⟩ := h
      exact ⟨st, hst⟩
    | some mint =>
      simp only [settleOnChain, transactSpl, Checked.seq_ok_iff] at h
      obtain ⟨_, -, _, -, _, -, _, -, st, hst, -⟩ := h
      exact ⟨st, hst⟩
  obtain ⟨st, hst⟩ := hsettle
  simp only [settle, Checked.seq_ok_iff, require_ok_iff] at hst
  obtain ⟨bridge, -, tree, -, _, -, _, -, _, -, _, -, _, -, _, hcheck, asset, hasset, _, -, _, -, _, hproof, -⟩ := hst
  exact ⟨⟨_, _, hcheck⟩, asset, hasset, hproof⟩

end VerificationAux

open VerificationAux

/-- The node reaches the check of the equation for the requests that are well encoded and decode, the program makes the same
checks on the words, and both verify against the same public inputs. The public amount is canonical and determines the signed
amount. -/
theorem verification_agrees (Γ : Ctx) (S : ProofSystem) (κ : Crypto) (poseidon : List Fr → Fr)
    (request : TransactVerificationRequest) (proof : Bytes) (recipient : Pubkey) (mint : Option Pubkey)
    (hposeidon : Γ.PoseidonAgrees poseidon) (hsha : Γ.sha256 = κ.sha256)
    (hrecipient : Γ.toBytes recipient = request.recipient) (hmint : mint.map Γ.toBytes = request.mint) :
    ((∃ checked, request.equation S κ poseidon = .ok checked) ↔ request.WellEncoded ∧ request.Decodable S) ∧
    (verifyTransactProof none S κ poseidon request = true ↔
      ∃ key inputs decoded, request.equation S κ poseidon = .ok (key, inputs, decoded) ∧
        S.verify key inputs decoded = .ok true) ∧
    (∀ bridge tree, checkTransactArgs bridge tree (request.args proof) = .ok () ↔
      request.WellEncoded ∧ bridge.paused = false ∧ proof ≠ [] ∧ proof.length ≤ maxProofLen ∧
        request.nullifiers.1 ≠ request.nullifiers.2 ∧ tree.isKnownRoot request.root = true) ∧
    (∃ asset, assetOnChain Γ mint = .ok asset ∧
      (∀ key inputs decoded, request.equation S κ poseidon = .ok (key, inputs, decoded) →
        inputs = ((request.args proof).publicInputs Γ recipient asset).toList) ∧
      ∀ clock s s' authority feeTokenAccount quorum,
        settleOnChain Γ clock s authority recipient mint feeTokenAccount quorum (request.args proof) = .ok s' →
          request.WellEncoded ∧ verifyTransact Γ ((request.args proof).publicInputs Γ recipient asset) proof = true) ∧
    (∀ x, Canonical (publicAmountBytes x)) ∧ Function.Injective publicAmountBytes := by
  refine ⟨?_, verifyTransactProof_iff, fun bridge tree => checkTransactArgs_iff, ?_,
    fun x => canonical_toBytesLe _, publicAmountBytes_injective⟩
  · constructor
    · rintro ⟨⟨key, inputs, decoded⟩, h⟩
      obtain ⟨hencoded, ⟨body, hsplit, hdecoded⟩, hkey, -⟩ := equation_ok_iff.mp h
      exact ⟨hencoded, body, decoded, key, hsplit, hdecoded, hkey⟩
    · rintro ⟨hencoded, body, decoded, key, hsplit, hdecoded, hkey⟩
      exact ⟨(key, _, decoded), equation_ok_iff.mpr ⟨hencoded, ⟨body, hsplit, hdecoded⟩, hkey, rfl⟩⟩
  · obtain ⟨asset, hasset, hinputs⟩ := publicInputs_eq hposeidon hsha hrecipient hmint
    refine ⟨asset, hasset, ?_, ?_⟩
    · intro key inputs decoded h
      obtain ⟨-, -, -, rfl⟩ := equation_ok_iff.mp h
      exact hinputs
    · intro clock s s' authority feeTokenAccount quorum h
      obtain ⟨⟨bridge, tree, hcheck⟩, asset', hasset', hproof⟩ := settleOnChain_ok h
      obtain rfl := Except.ok.inj (hasset.symm.trans hasset')
      exact ⟨(checkTransactArgs_iff.mp hcheck).1, hproof⟩

namespace AgreementSample

/-- A withdrawal in a token, with a proof that decodes. -/
def request : TransactVerificationRequest :=
  { ApprovalSample.request with mint := some (.replicate 32 7), proof := 1 :: SettleSample.proofBody }

def half : Fr := ((9341084582143408800955381380479911687 : Nat) : Fr)

def poseidon (xs : List Fr) : Fr :=
  if xs = [half, half] then
    ((18170815242592274127280272172694308926234723737717530673081927977129086548445 : Nat) : Fr)
  else 0

def sha256 (bytes : Bytes) : Bytes32 :=
  if bytes = .replicate 32 2 ++ LittleEndian.ofNat 8 (-1000000000 : Int64).toUInt64.toNat then
    LittleEndian.vec 32 0xfe57d2871326308563616e35566d109892cc3b6204ff531a3e5ee846d7853e3a
  else zero32

def crypto : Crypto := { SettleSample.crypto with sha256 }

/-- The syscall reduces nothing: it hashes canonical words. -/
def ctx : Ctx := { Sample.ctx with
  sha256
  solPoseidon xs := if xs.all (Canonical ·) then some (toBytesLe (poseidon (xs.map fromLeBytesModOrder))) else none }

/-- A library that decodes the points of the sample, for which the equation does not hold. -/
def proofSystem : ProofSystem where
  Proof := Bytes
  VerifyingKey := Unit
  deserializeCompressed body :=
    if body = SettleSample.proofBody then .ok body else .error "the input buffer contained invalid data"
  getTransactVerifyingKey := .ok ()
  verify _ _ _ := .ok false

theorem poseidonAgrees : ctx.PoseidonAgrees poseidon := Ctx.poseidonAgrees_of_canonical rfl

theorem wellEncoded : request.WellEncoded := by
  refine ⟨?_, ?_, ?_, ?_, ?_, ?_⟩ <;> decide +kernel

theorem decodable : request.Decodable proofSystem :=
  ⟨SettleSample.proofBody, SettleSample.proofBody, (), by decide +kernel, by simp [proofSystem], rfl⟩

end AgreementSample

open AgreementSample

/-- A withdrawal in a token reaches the check with the inputs of the program, and fails it. -/
theorem verification_agrees_token : (∃ asset, mintToAsset AgreementSample.ctx (.key (.replicate 32 7)) = .ok asset ∧
      ∃ inputs decoded, AgreementSample.request.equation AgreementSample.proofSystem AgreementSample.crypto
          AgreementSample.poseidon = .ok ((), inputs, decoded) ∧
        inputs = ((AgreementSample.request.args (.replicate 256 0)).publicInputs AgreementSample.ctx
          (.key (.replicate 32 2)) asset).toList) ∧
    verifyTransactProof none AgreementSample.proofSystem AgreementSample.crypto AgreementSample.poseidon
      AgreementSample.request = false := by
  obtain ⟨hreached, hanswer, -, ⟨asset, hasset, hinputs, -⟩, -⟩ := verification_agrees ctx
    proofSystem crypto poseidon request (.replicate 256 0)
    (.key (.replicate 32 2)) (some (.key (.replicate 32 7))) poseidonAgrees rfl rfl rfl
  obtain ⟨⟨⟨⟩, inputs, decoded⟩, hchecked⟩ := hreached.mpr ⟨wellEncoded, decodable⟩
  refine ⟨⟨asset, hasset, inputs, decoded, hchecked, hinputs _ _ _ hchecked⟩, ?_⟩
  rw [Bool.eq_false_iff, Ne, hanswer]
  rintro ⟨key, inputs, decoded, -, hverify⟩
  cases hverify

end OffChain

end Paraloom
