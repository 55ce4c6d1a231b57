import Paraloom.OffChain.CoSign

/-!
# What a co-signature says

A signature of a co-signer stands for one payload that passed every check against one verified request; everything else a
request can lead to is a response without a signature and unchanged counters.
-/

namespace Paraloom.OffChain

open List

structure CoSigns (δ : SolanaSdk) (cosignKeypair : Option Bytes32) (expectedProgramId : Bytes32)
    (verifiedTransacts : Table String TransactVerificationRequest) (cosignCounts : Table String Nat) (request : CoSignRequest)
    (wallet : Bytes32) (payload : CoSignPayload) (req : TransactVerificationRequest) : Prop where
  keypair : cosignKeypair = some wallet
  decoded : CoSignPayload.fromBytes δ request.message = .ok payload
  program : payload.programId = expectedProgramId
  cached : verifiedTransacts.lookup request.requestId = some req
  approved : req.approves payload.params = true
  quorum : payload.quorumValidators.length ≤ maxQuorumCosigners
  budget : ∀ key ∈ payload.capNullifiers, cosignCount cosignCounts key < maxCosignsPerSettlement

section

variable {κ : Crypto} {δ : SolanaSdk} {ι : KeyOrder} {cosignKeypair : Option Bytes32} {expectedProgramId : Bytes32}
  {verifiedTransacts : Table String TransactVerificationRequest} {cosignCounts : Table String Nat} {request : CoSignRequest}

/-- What the response is when all checks pass. -/
theorem CoSigns.cosignSettlement_eq
    (h : CoSigns δ cosignKeypair expectedProgramId verifiedTransacts cosignCounts request wallet payload req) :
    cosignSettlement κ δ ι cosignKeypair expectedProgramId verifiedTransacts cosignCounts request =
      (⟨request.requestId, walletName wallet, some (κ.signMessage wallet (δ.serializeMessage (payload.message δ)))⟩,
        payload.capNullifiers.foldl (countCosign ι) cosignCounts) := by
  have hbudget : (payload.capNullifiers.any fun key =>
      decide (maxCosignsPerSettlement ≤ cosignCount cosignCounts key)) = false := by
    rw [any_eq_false]
    intro key hkey
    simpa using h.budget key hkey
  simp [cosignSettlement, h.keypair, h.decoded, h.program, h.cached, h.approved, buildSettlementMessage,
    Nat.not_lt.mpr h.quorum, hbudget]

variable (κ δ ι cosignKeypair expectedProgramId verifiedTransacts cosignCounts request)

/-- A response has no signature and changes nothing, or all checks passed. -/
theorem cosignSettlement_cases : cosignSettlement κ δ ι cosignKeypair expectedProgramId verifiedTransacts cosignCounts request =
        (request.declined, cosignCounts) ∨
      ∃ wallet payload req,
        CoSigns δ cosignKeypair expectedProgramId verifiedTransacts cosignCounts request wallet payload req := by
  unfold cosignSettlement
  split
  · exact .inl rfl
  · exact .inl rfl
  · rename_i wallet payload hdecoded
    unfold buildSettlementMessage
    by_cases hquorum : maxQuorumCosigners < payload.quorumValidators.length
    · simp [hquorum]
    · simp only [hquorum, if_false]
      split_ifs with hprogram happroved hbudget
      · exact .inl rfl
      · exact .inl rfl
      · exact .inl rfl
      · obtain ⟨req, hcached, hreq⟩ := (Option.any_eq_true _ _).mp (Bool.not_eq_false _ ▸ happroved)
        refine .inr ⟨wallet, payload, req, rfl, hdecoded, of_not_not hprogram, hcached, hreq, Nat.not_lt.mp hquorum, ?_⟩
        intro key hkey
        rw [Bool.not_eq_true, any_eq_false] at hbudget
        simpa using hbudget key hkey

end

/-! ## Keys of the counters -/

theorem digitChar_inj (ha : a < 16) (hb : b < 16) (h : a.digitChar = b.digitChar) : a = b := by
  interval_cases a <;> interval_cases b <;> first | rfl | exact absurd h (by decide)

theorem hexEncode_injective : Function.Injective hexEncode := by
  intro a b h
  have hchars := String.ofList_injective h
  clear h
  induction a generalizing b with
  | nil =>
    cases b with
    | nil => rfl
    | cons y b => simp at hchars
  | cons x a ih =>
    cases b with
    | nil => simp at hchars
    | cons y b =>
      simp only [flatMap_cons, cons_append, nil_append, cons.injEq] at hchars
      obtain ⟨hhigh, hlow, hrest⟩ := hchars
      have hx := x.toNat_lt
      have hy := y.toNat_lt
      have hdiv := digitChar_inj (by omega) (by omega) hhigh
      have hmod := digitChar_inj (by omega) (by omega) hlow
      rw [UInt8.toNat_inj.mp (by omega : x.toNat = y.toNat), ih hrest]

theorem length_hexEncode (bytes : Bytes) : (hexEncode bytes).toList.length = 2 * bytes.length := by
  simp only [hexEncode, String.toList_ofList]
  induction bytes with
  | nil => rfl
  | cons b bytes ih =>
    simp only [flatMap_cons, length_append, length_cons, length_nil] at ih ⊢
    omega

/-- Different nullifiers and different authorities are counted apart. -/
theorem capKey_inj :
    capKey nullifier authority = capKey nullifier' authority' ↔ nullifier = nullifier' ∧ authority = authority' := by
  constructor
  · intro h
    have hchars := congrArg String.toList h
    simp only [capKey, toString, String.toList_append, append_assoc] at hchars
    obtain ⟨hnullifier, hrest⟩ := append_inj hchars (by simp [length_hexEncode])
    obtain ⟨-, hauthority⟩ := append_inj hrest rfl
    exact ⟨List.Vector.toList_injective (hexEncode_injective (String.toList_inj.mp hnullifier)),
      List.Vector.toList_injective (hexEncode_injective (String.toList_inj.mp hauthority))⟩
  · rintro ⟨rfl, rfl⟩
    rfl

/-! ## Messages -/

theorem CoSignPayload.carried_message (δ : SolanaSdk) (payload : CoSignPayload) : (payload.message δ).carried =
      [(setComputeUnitLimit transactComputeUnitLimit).content, (payload.instruction δ).content] :=
  @Sdk.carried_newWithBlockhash Bytes32 Bytes32 pubkeyOrder _ _ _

theorem signers_appendQuorumAccounts {programId : Bytes32} :
    ((appendQuorumAccounts δ programId quorumValidators accounts).filter (·.isSigner)).map (·.pubkey) =
      (accounts.filter (·.isSigner)).map (·.pubkey) ++ quorumValidators := by
  have hquorum : ((quorumValidators.flatMap fun v => [Sdk.AccountMeta.readonly v true,
      .readonly (deriveValidatorAccount δ programId v) false]).filter (·.isSigner)).map (·.pubkey) = quorumValidators := by
    induction quorumValidators with
    | nil => rfl
    | cons v quorumValidators ih => rw [flatMap_cons, filter_append, map_append, ih]; rfl
  rw [appendQuorumAccounts, filter_append, map_append, hquorum]

theorem CoSignPayload.instruction_signers (δ : SolanaSdk) (payload : CoSignPayload) :
    ((payload.instruction δ).accounts.filter (·.isSigner)).map (·.pubkey) = payload.authority :: payload.quorumValidators := by
  obtain ⟨programId, authority, bridgeVault, blockhash, quorumValidators, params⟩ := payload
  cases params with
  | transact recipient nullifiers outputCommitments root extAmount proof =>
    simp only [CoSignPayload.instruction, createTransactInstruction, signers_appendQuorumAccounts]
    rfl
  | transactSpl recipientTokenAccount mint nullifiers outputCommitments root extAmount proof =>
    simp only [CoSignPayload.instruction, createTransactSplInstruction, signers_appendQuorumAccounts]
    rfl

theorem CoSignPayload.mem_signers (δ : SolanaSdk) (payload : CoSignPayload) (k : Bytes32) :
    k ∈ (payload.message δ).signers ↔ k = payload.authority ∨ k ∈ payload.quorumValidators := by
  rw [CoSignPayload.message, @Sdk.mem_signers Bytes32 Bytes32 pubkeyOrder]
  have hinstruction : (∃ a ∈ (payload.instruction δ).accounts, a.isSigner = true ∧ a.pubkey = k) ↔
      k = payload.authority ∨ k ∈ payload.quorumValidators := by
    rw [← mem_cons, ← payload.instruction_signers δ]
    simp [and_assoc]
  simp only [mem_cons, not_mem_nil, or_false, exists_eq_or_imp, exists_eq_left, hinstruction]
  simp [setComputeUnitLimit]

theorem CoSignPayload.nodup_signers (δ : SolanaSdk) (payload : CoSignPayload) : (payload.message δ).signers.Nodup :=
  @Sdk.nodup_signers Bytes32 Bytes32 pubkeyOrder _ _ _

end Paraloom.OffChain
