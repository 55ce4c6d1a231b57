import Paraloom.OffChain.WithdrawToFresh
import Paraloom.Theorems.RelayedFunds
import Paraloom.Theorems.Withdrawable

/-!
# The amounts of the relayer are those of the program

The relayer proves a withdrawal for a signed amount that it computes from the unsigned one, and later trades what it expects to
have arrived. Both agree with what the program does with the amount; amounts that do not fit the sign fail in the relayer's own
check of its proof.
-/

namespace Paraloom.OffChain

open Checked WithdrawableAux

namespace RelayerAmountsAux

theorem toInt_toInt64 (amount : UInt64) :
    amount.toInt64.toInt = if 2 * amount.toNat < 2 ^ 64 then (amount.toNat : Int) else amount.toNat - 2 ^ 64 := by
  rw [← Int64.toInt_toBitVec, UInt64.toBitVec_toInt64, BitVec.toInt_eq_toNat_cond]
  rfl

/-- The negated amount is the negative of the amount unless it is positive, as it is when the cast has wrapped. -/
theorem toInt_negatedAmount (h : negatedAmount amount = some ext) (hpos : ¬0 < ext) : ext.toInt = -(amount.toNat : Int) := by
  unfold negatedAmount at h
  dsimp only at h
  split at h
  · cases h
  · rename_i hmin
    obtain rfl := Option.some.inj h
    have hcast := toInt_toInt64 amount
    have hlt := amount.toNat_lt
    rw [← Int64.toInt_inj, Int64.toInt_minValue] at hmin
    have hneg : (-amount.toInt64).toInt = -amount.toInt64.toInt := by
      rw [Int64.toInt_neg]
      apply Int.bmod_eq_of_le <;> omega
    rw [Int64.lt_iff_toInt_lt, hneg, Int64.toInt_zero] at hpos
    rw [hneg]
    omega

/-- A proof that passes the relayer's own check has an amount that is not positive. -/
theorem not_pos_of_valid
    (h : ProofVerifier.verifyTransactParts sha256 root recipient ext assetId nullifiers outputCommitments S proof = .valid) :
    ¬0 < ext := by
  intro hpos
  simp [ProofVerifier.verifyTransactParts, ProofVerifier.transactEquation, hpos] at h

/-- The program's encoding of a negative amount is that of the negated magnitude. -/
theorem publicAmountBytes_of_neg {amount : UInt64} (h : ext.toInt = -(amount.toNat : Int)) :
    publicAmountBytes ext = toBytesLe (-(amount.toNat : Fr)) := by
  have habs : ext.toInt.natAbs = amount.toNat := by omega
  unfold publicAmountBytes
  dsimp only
  rw [habs]
  by_cases hzero : amount.toNat = 0
  · have hnonneg : ¬ext < 0 := by
      rw [Int64.lt_iff_toInt_lt, Int64.toInt_zero]
      omega
    rw [if_neg hnonneg, hzero, Nat.cast_zero, neg_zero]
  · have hneg : ext < 0 := by
      rw [Int64.lt_iff_toInt_lt, Int64.toInt_zero]
      omega
    rw [if_pos hneg]

/-- What a successful proof of a withdrawal is: a proof of the circuit that passes the node's check. -/
theorem proveWithdrawToFresh_ok
    (h : proveWithdrawToFresh sha256 poseidon random sk blinding notePubkey amount membership recipient S prover = .ok w) :
    negatedAmount amount = some w.extAmount ∧ ¬0 < w.extAmount ∧ ∃ proof body,
      prover.prove (withdrawCircuit sha256 poseidon random sk blinding notePubkey amount membership recipient w.extAmount) =
        .ok proof ∧
      prover.serializeCompressed proof = .ok body ∧ w.proof = tagProof .groth16Bn254TransactV3 body := by
  simp only [proveWithdrawToFresh, Checked.seq_ok_iff, Checked.okOr_ok_iff, Checked.mapError_ok_iff, Checked.require_ok_iff,
    Checked.return_ok_iff, exists_const] at h
  obtain ⟨ext, hext, proof, hproof, body, hbody, hvalid, rfl⟩ := h
  exact ⟨hext, not_pos_of_valid hvalid, proof, body, hproof, hbody, rfl⟩

theorem swapAmount_of_mem {relayer : PrivateSwapRelayer} (hnative : request.assetIn = nativeSolAsset)
    (h : .swap assetIn assetOut swapAmount ∈ (relayer.withdrawThenSwap request ephemeral).trace) :
    ¬request.FeeOverflows ∧ 0 < swapAmount.toNat ∧
      swapAmount.toNat + relayer.nativeSwapOverheadLamports.toNat =
        request.amountIn.toNat - request.amountIn.toNat * withdrawalFeeBps / 10000 := by
  simp only [PrivateSwapRelayer.withdrawThenSwap, Traced.mem_trace_bind, Traced.trace_check, Traced.trace_perform,
    Traced.trace_lift, Traced.result_lift, Traced.trace_pure, List.mem_singleton, List.not_mem_nil, false_or, reduceCtorEq,
    RelayerAction.swap.injEq, or_false, and_false, exists_false] at h
  obtain ⟨_, -, _, -, _, -, _, hamount, -, -, rfl⟩ := h
  obtain ⟨withdrawn, hwithdrawn, hamount⟩ := seq_ok_iff.mp hamount
  obtain ⟨tradable, htradable, hamount⟩ := seq_ok_iff.mp hamount
  obtain rfl := Except.ok.inj hamount
  obtain ⟨-, hfits, rfl⟩ := RelayerAux.withdrawn_ok_iff.mp hwithdrawn
  rw [PrivateSwapRequest.tradable, if_pos hnative, Checked.okOr_ok_iff, Option.filter_eq_some_iff,
    checkedSub_some_iff, decide_eq_true_eq] at htradable
  obtain ⟨⟨hle, rfl⟩, hpos⟩ := htradable
  have hlt := request.amountIn.toNat_lt
  rw [UInt64.toNat_ofNat_of_lt' (by simp only [UInt64.size]; omega)]
  exact ⟨hfits, hpos, by omega⟩

theorem fee_fits_of_transact (h : transact Γ clock s authority recipient quorum args = .ok s')
    (hneg : args.extAmount.toInt < 0) :
    args.extAmount.toInt.natAbs * Paraloom.withdrawalFeeBps ≤ u64Max := by
  simp only [transact, seq_ok_iff] at h
  obtain ⟨_, -, st, -, paid, hpaid, -⟩ := h
  rw [payNative, if_pos hneg] at hpaid
  obtain ⟨fee, hfee, -⟩ := seq_ok_iff.mp hpaid
  obtain ⟨scaled, hscaled, -⟩ := seq_ok_iff.mp hfee
  exact (checkedMul_some_iff.mp (okOr_ok_iff.mp hscaled)).1

/-- What a settled withdrawal of an amount moves: the payout leaves the vault, and an address other than the authority, which pays
for the nullifier accounts, receives it. -/
theorem balances_of_transact (h : transact Γ clock s authority (.key fresh) quorum args = .ok s') :
    s'.balance .bridgeVault + nativePayout args.extAmount = s.balance .bridgeVault ∧
      (fresh ≠ authority → s'.balance (.key fresh) = s.balance (.key fresh) + nativePayout args.extAmount) := by
  obtain ⟨-, st, lamports, hst, hpay, _, rfl⟩ := transact_ok h
  obtain ⟨_, _, lamports0, hpay0, hpay1⟩ := hst.lamports
  refine ⟨?_, fun hne => ?_⟩
  · rw [State.balance, hpay.balance_source (by simp), hpay1.balance_of_ne (by simp) (by simp),
      hpay0.balance_of_ne (by simp) (by simp), State.balance]
  · rw [State.balance, hpay.balance_target (by simp), hpay1.balance_of_ne (by simpa using hne) (by simp),
      hpay0.balance_of_ne (by simpa using hne) (by simp), State.balance]

end RelayerAmountsAux

open RelayerAmountsAux in
/-- A withdrawal that the relayer proves has the negative of its amount as the external amount, and its public amount is the
program's encoding of that. When the relayer comes to swap a native input, a settlement with that amount has paid the fresh
address what is swapped and the overhead. Where the relayer's fee overflows, no such settlement succeeds. -/
theorem relayer_amounts_agree (amount : UInt64) :
    (∀ (sha256 : Bytes → Bytes32) (poseidon : List Fr → Fr) (random : WithdrawRandomness) (sk blinding notePubkey : Fr)
        (membership : Membership) (recipient : Bytes32) (S : ProofSystem) (prover : Prover S) (w : WithdrawToFresh),
      proveWithdrawToFresh sha256 poseidon random sk blinding notePubkey amount membership recipient S prover = .ok w →
      w.extAmount.toInt = -(amount.toNat : Int) ∧ ∃ circuit proof body,
        circuit = withdrawCircuit sha256 poseidon random sk blinding notePubkey amount membership recipient w.extAmount ∧
        prover.prove circuit = .ok proof ∧ prover.serializeCompressed proof = .ok body ∧
        w.proof = tagProof .groth16Bn254TransactV3 body ∧ circuit.publicAmount = publicAmountBytes w.extAmount) ∧
    (∀ (relayer : PrivateSwapRelayer) (request : PrivateSwapRequest) (ephemeral : Keypair) (assetOut : AssetId)
        (swapAmount : UInt64), request.amountIn = amount → request.assetIn = nativeSolAsset →
      .swap nativeSolAsset assetOut swapAmount ∈ (relayer.withdrawThenSwap request ephemeral).trace →
      0 < swapAmount ∧ ∀ (Γ : Ctx) (clock : Clock) (s s' : State) (authority : Signer) (quorum : List AccountMeta)
          (args : TransactArgs), args.extAmount.toInt = -(amount.toNat : Int) →
        transact Γ clock s authority (.key ephemeral.pubkey) quorum args = .ok s' →
        s'.balance .bridgeVault + (swapAmount.toNat + relayer.nativeSwapOverheadLamports.toNat) = s.balance .bridgeVault ∧
        (ephemeral.pubkey ≠ authority → s'.balance (.key ephemeral.pubkey) =
          s.balance (.key ephemeral.pubkey) + (swapAmount.toNat + relayer.nativeSwapOverheadLamports.toNat))) ∧
    (Checked.checkedMul amount.toNat withdrawalFeeBps = none →
      ∀ (Γ : Ctx) (clock : Clock) (s : State) (authority : Signer) (recipient : Pubkey) (quorum : List AccountMeta)
          (args : TransactArgs), args.extAmount.toInt = -(amount.toNat : Int) →
        ∀ s', transact Γ clock s authority recipient quorum args ≠ .ok s') := by
  refine ⟨?_, ?_, ?_⟩
  · intro sha256 poseidon random sk blinding notePubkey membership recipient S prover w hok
    obtain ⟨hext, hpos, proof, body, hproof, hbody, htagged⟩ := proveWithdrawToFresh_ok hok
    have hamount := toInt_negatedAmount hext hpos
    exact ⟨hamount, _, proof, body, rfl, hproof, hbody, htagged, (publicAmountBytes_of_neg hamount).symm⟩
  · rintro relayer request ephemeral assetOut swapAmount rfl hnative hswap
    obtain ⟨-, hpos, hsum⟩ := swapAmount_of_mem hnative hswap
    refine ⟨UInt64.lt_iff_toNat_lt.mpr hpos, fun Γ clock s s' authority quorum args hext htransact => ?_⟩
    have hpayout : nativePayout args.extAmount = swapAmount.toNat + relayer.nativeSwapOverheadLamports.toNat := by
      have habs : args.extAmount.toInt.natAbs = request.amountIn.toNat := by omega
      rw [hsum, nativePayout, nativeFee, habs]
      rfl
    exact hpayout ▸ balances_of_transact htransact
  · intro hoverflow Γ clock s authority recipient quorum args hext s' htransact
    have habs : args.extAmount.toInt.natAbs = amount.toNat := by omega
    have hbig : u64Max < amount.toNat * withdrawalFeeBps := by
      rw [checkedMul] at hoverflow
      split at hoverflow
      · cases hoverflow
      · omega
    have hneg : args.extAmount.toInt < 0 := by
      simp only [withdrawalFeeBps] at hbig
      omega
    have hfits := fee_fits_of_transact htransact hneg
    rw [habs] at hfits
    exact absurd hbig (Nat.not_lt.mpr hfits)

namespace WithdrawSample

def proofSystem : ProofSystem where
  Proof := Unit
  VerifyingKey := Unit
  deserializeCompressed _ := .ok ()
  getTransactVerifyingKey := .ok ()
  verify _ _ _ := .ok true

def prover : Prover proofSystem := ⟨fun _ => .ok (), fun _ => .ok (.replicate 128 0)⟩

def fresh : Keypair := ⟨LittleEndian.vec 32 11, Sample.depositor⟩

/-- A withdrawal of 0.05 SOL to the fresh address. -/
def proved : Except (Checked.Failure ProveError) WithdrawToFresh :=
  proveWithdrawToFresh (fun _ => zero32) (fun _ => 0) ⟨0, 0, 0, 0⟩ 0 0 0 50000000 ⟨0, zero32, []⟩ fresh.pubkey proofSystem prover

def request : PrivateSwapRequest := { RelayerSample.request nativeSolAsset with amountIn := 50000000 }

def settled (s : State) : Option State :=
  (transact Sample.ctx ⟨17, 0⟩ s Sample.operator (.key fresh.pubkey) cosigners
    (withdrawing (-50000000))).toOption

end WithdrawSample

open WithdrawSample in
/-- Half of a deposit of 0.1 SOL: the proof is made, the settlement pays the fresh address the 49,874,000 lamports that are swapped
and 1,000 of overhead. An amount whose fee overflows is not settled. -/
theorem relayer_amounts_agree_half : (∃ w, proved = .ok w ∧ w.extAmount.toInt = -50000000) ∧
    (∃ s s', Execution Sample.ctx Sample.genesis WithdrawableAux.smallNote s ∧ settled s = some s' ∧
      .swap nativeSolAsset nativeSolAsset 49874000 ∈ ((RelayerSample.relayer 1000).withdrawThenSwap request fresh).trace ∧
      s'.balance .bridgeVault + (49874000 + 1000) = s.balance .bridgeVault) ∧
    ∀ s s', transact Sample.ctx ⟨17, 0⟩ s Sample.operator (.key fresh.pubkey) WithdrawableAux.cosigners
      (WithdrawableAux.withdrawing (-737869762948382065)) ≠ .ok s' := by
  refine ⟨?_, ?_, fun s s' => ?_⟩
  · have hproved : proved.toOption.isSome = true := by decide +kernel
    obtain ⟨w, hw⟩ := Option.isSome_iff_exists.mp hproved
    have hok := toOption_eq_some_iff.mp hw
    exact ⟨w, hok, ((relayer_amounts_agree 50000000).1 _ _ _ _ _ _ _ _ _ _ w hok).1⟩
  · have hsucceeds : succeedsWith Sample.ctx Sample.genesis smallNote (fun s => (settled s).isSome) = true := by
      decide +kernel
    have hswap : RelayerAction.swap nativeSolAsset nativeSolAsset 49874000 ∈
        ((RelayerSample.relayer 1000).withdrawThenSwap request fresh).trace := by decide +kernel
    obtain ⟨s, hrun, hcheck⟩ := exists_execution hsucceeds
    obtain ⟨s', hs'⟩ := Option.isSome_iff_exists.mp hcheck
    obtain ⟨-, hpays⟩ := (relayer_amounts_agree 50000000).2.1 (RelayerSample.relayer 1000) request fresh nativeSolAsset 49874000
      rfl rfl hswap
    exact ⟨s, s', hrun, hs', hswap, (hpays _ _ s s' _ _ _ (by decide) (toOption_eq_some_iff.mp hs')).1⟩
  · exact (relayer_amounts_agree 737869762948382065).2.2 (by decide) _ _ s _ _ _ _ (by decide) s'

end Paraloom.OffChain
