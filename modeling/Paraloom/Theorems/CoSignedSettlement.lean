import Paraloom.Lemmas.CoSign
import Paraloom.Theorems.ApprovalSoundness

/-!
# A validator co-signs what it verified

Whatever bytes a request carries, the message that is signed holds the raised compute budget and one instruction of the
configured program. It settles the verified request of that id, except that a request in a token can be settled as a native
one: the native branch does not look at the mint of the request.
-/

namespace Paraloom.OffChain

open LittleEndian

def TransactVerificationRequest.settlement (δ : SolanaSdk) (programId authority bridgeVault : Bytes32) (proof : Bytes)
    (quorumValidators : List Bytes32) (req : TransactVerificationRequest) : Sdk.Instruction Bytes32 :=
  match req.mint with
  | none => createTransactInstruction δ programId authority bridgeVault req.recipient req.nullifiers req.outputCommitments
      req.root req.extAmount proof quorumValidators
  | some mint => createTransactSplInstruction δ programId authority mint req.recipient
      (deriveAssociatedTokenAddress δ authority mint splTokenProgramId) splTokenProgramId req.nullifiers req.outputCommitments
      req.root req.extAmount proof quorumValidators

/-- A message carries the compute budget and the settlement of a request by a program, and nothing else. -/
def SettlementMessage.Settles (δ : SolanaSdk) (programId : Bytes32) (req : TransactVerificationRequest)
    (message : SettlementMessage) : Prop :=
  ∃ authority bridgeVault proof quorumValidators, message.carried = [(setComputeUnitLimit transactComputeUnitLimit).content,
      (req.settlement δ programId authority bridgeVault proof quorumValidators).content]

/-- The parameters are those of the settlement in lamports. -/
def SettlementParams.IsNative : SettlementParams → Prop
  | .transact .. => True
  | .transactSpl .. => False

namespace CoSignedAux

variable {δ : SolanaSdk} {payload : CoSignPayload} {req : TransactVerificationRequest}

/-- Parameters that match a request, and are native only if the request is, give the settlement of the request. -/
theorem instruction_eq (happroved : req.approves payload.params = true) (hnative : payload.params.IsNative → req.mint = none) :
    payload.instruction δ =
      req.settlement δ payload.programId payload.authority payload.bridgeVault payload.params.proof payload.quorumValidators := by
  obtain ⟨programId, authority, bridgeVault, blockhash, quorumValidators, params⟩ := payload
  cases params with
  | transact recipient nullifiers outputCommitments root extAmount proof =>
    have hmint : req.mint = none := hnative trivial
    simp only [TransactVerificationRequest.approves, Bool.and_eq_true, decide_eq_true_eq] at happroved
    obtain ⟨⟨⟨⟨rfl, rfl⟩, rfl⟩, rfl⟩, rfl⟩ := happroved
    simp only [CoSignPayload.instruction, TransactVerificationRequest.settlement, hmint, SettlementParams.proof]
  | transactSpl recipientTokenAccount mint nullifiers outputCommitments root extAmount proof =>
    simp only [TransactVerificationRequest.approves, Bool.and_eq_true, decide_eq_true_eq] at happroved
    obtain ⟨⟨⟨⟨⟨rfl, hmint⟩, rfl⟩, rfl⟩, rfl⟩, rfl⟩ := happroved
    simp only [CoSignPayload.instruction, TransactVerificationRequest.settlement, hmint, SettlementParams.proof]

/-- The instruction of native parameters does not settle a request in a token: its first bytes are those of `transact`. -/
theorem content_ne {programId authority bridgeVault mint : Bytes32} (hnative : payload.params.IsNative)
    (hmint : req.mint = some mint) :
    (payload.instruction δ).content ≠ (req.settlement δ programId authority bridgeVault proof quorumValidators).content := by
  intro heq
  have hdata : (payload.instruction δ).data =
      (req.settlement δ programId authority bridgeVault proof quorumValidators).data := congrArg (·.2.2) heq
  obtain ⟨_, _, _, _, _, params⟩ := payload
  cases params with
  | transact recipient nullifiers outputCommitments root extAmount proof =>
    simp [CoSignPayload.instruction, TransactVerificationRequest.settlement, hmint, createTransactInstruction,
      createTransactSplInstruction, transactDiscriminator, transactSplDiscriminator] at hdata
  | transactSpl recipientTokenAccount mint nullifiers outputCommitments root extAmount proof => exact hnative.elim

theorem settles_iff (happroved : req.approves payload.params = true) :
    (payload.message δ).Settles δ payload.programId req ↔ (payload.params.IsNative → req.mint = none) := by
  unfold SettlementMessage.Settles
  rw [payload.carried_message]
  constructor
  · rintro ⟨authority, bridgeVault, proof, quorumValidators, hcarried⟩ hnative
    cases hmint : req.mint with
    | none => rfl
    | some mint =>
      simp only [List.cons.injEq, and_true, true_and] at hcarried
      exact absurd hcarried (content_ne hnative hmint)
  · intro hnative
    refine ⟨payload.authority, payload.bridgeVault, payload.params.proof, payload.quorumValidators, ?_⟩
    rw [instruction_eq happroved hnative]

end CoSignedAux

/-- If a co-signer returns a signature, it covers the message of the payload in the request, and the message settles the cached
request of that id by the configured program if and only if the payload is not a native settlement of a request in a token. -/
theorem cosigned_message_settles_iff (κ : Crypto) (δ : SolanaSdk) (ι : KeyOrder) (cosignKeypair : Option Bytes32)
    (expectedProgramId : Bytes32) (verifiedTransacts : Table String TransactVerificationRequest)
    (cosignCounts : Table String Nat) (request : CoSignRequest) (signature : Bytes)
    (hsigned : (cosignSettlement κ δ ι cosignKeypair expectedProgramId verifiedTransacts cosignCounts request).1.signature =
      some signature) :
    ∃ wallet payload req, cosignKeypair = some wallet ∧ CoSignPayload.fromBytes δ request.message = .ok payload ∧
      verifiedTransacts.lookup request.requestId = some req ∧
      signature = κ.signMessage wallet (δ.serializeMessage (payload.message δ)) ∧
      ((payload.message δ).Settles δ expectedProgramId req ↔ (payload.params.IsNative → req.mint = none)) := by
  rcases cosignSettlement_cases κ δ ι cosignKeypair expectedProgramId verifiedTransacts cosignCounts request with
    hdeclined | ⟨wallet, payload, req, h⟩
  · rw [hdeclined] at hsigned
    simp [CoSignRequest.declined] at hsigned
  · rw [h.cosignSettlement_eq] at hsigned
    refine ⟨wallet, payload, req, h.keypair, h.decoded, h.cached, (Option.some.inj hsigned).symm, ?_⟩
    rw [← h.program]
    exact CoSignedAux.settles_iff h.approved

namespace CoSignSample

open ApprovalSample (operator cosigner request)

def programId : Bytes32 := LittleEndian.vec 32 0xc40658dae337844cf2f4c7d9a9ff812c5dbad8ced59fee141e3d69cb87511972

def addresses : List (List Bytes × Bytes32) := [
  ([utf8 "bridge_vault"], LittleEndian.vec 32 0xa0fc726d09c8036e088e9ff624e47a0a0cae4fb1b688f9eb6de2b7c42afb9bc5),
  ([utf8 "bridge_state"], LittleEndian.vec 32 0x15cbd2b202be74e91e6947454dc8b422105459aadb3ea0aac965b65c0d5f8877),
  ([utf8 "merkle_tree"], LittleEndian.vec 32 0x920838d253a0e46228803b4d2841d9a042d25b3325eb5c96d62015b03bf783b7),
  ([utf8 "validator_registry"], LittleEndian.vec 32 0x6a698d16ed70b0438e2d7135ae68468fbc72928cfd4f91af9f3da310d45c1572),
  ([utf8 "nullifier", request.nullifiers.1.toList],
    LittleEndian.vec 32 0xce550e5f9230250c8f809ef3414f801041a68e680e240c5774ec963b7cb8d65),
  ([utf8 "nullifier", request.nullifiers.2.toList],
    LittleEndian.vec 32 0xd84b0220b6568d3d662c58a1b059c8cfcda555e441822d719284313a310f4e31),
  ([utf8 "validator", operator.toList], LittleEndian.vec 32 0x6b0d55d8985d1b20da0c3a7cd060f6f1c186b3653bb3528ef9d2c6f679e66384),
  ([utf8 "validator", cosigner.toList], LittleEndian.vec 32 0x2408fbef7127cbbd5beb0aa51618acd444d2422c5394daaa194852585b108a0e)]

def shortLength (n : Nat) : Bytes := if n < 128 then [.ofNat n] else [.ofNat (n % 128 + 128), .ofNat (n / 128)]

def serializeMessage (m : SettlementMessage) : Bytes :=
  [.ofNat m.numRequiredSignatures, .ofNat m.numReadonlySignedAccounts, .ofNat m.numReadonlyUnsignedAccounts] ++
    shortLength m.accountKeys.length ++ m.accountKeys.flatMap List.Vector.toList ++ m.recentBlockhash.toList ++
    shortLength m.instructions.length ++ m.instructions.flatMap fun ix =>
      .ofNat ix.programIdIndex :: (shortLength ix.accounts.length ++ ix.accounts.map UInt8.ofNat ++
        shortLength ix.data.length ++ ix.data)

def serializeParams : SettlementParams → Bytes
  | .transact recipient nullifiers outputCommitments root extAmount proof =>
    LittleEndian.ofNat 4 0 ++ recipient.toList ++ nullifiers.1.toList ++ nullifiers.2.toList ++ outputCommitments.1.toList ++
      outputCommitments.2.toList ++ root.toList ++ LittleEndian.ofNat 8 extAmount.toBitVec.toNat ++
      LittleEndian.ofNat 8 proof.length ++ proof
  | .transactSpl recipientTokenAccount mint nullifiers outputCommitments root extAmount proof =>
    LittleEndian.ofNat 4 1 ++ recipientTokenAccount.toList ++ mint.toList ++ nullifiers.1.toList ++ nullifiers.2.toList ++
      outputCommitments.1.toList ++ outputCommitments.2.toList ++ root.toList ++
      LittleEndian.ofNat 8 extAmount.toBitVec.toNat ++ LittleEndian.ofNat 8 proof.length ++ proof

def serializePayload (payload : CoSignPayload) : Bytes :=
  payload.programId.toList ++ payload.authority.toList ++ payload.bridgeVault.toList ++ payload.blockhash.toList ++
    LittleEndian.ofNat 8 payload.quorumValidators.length ++ payload.quorumValidators.flatMap List.Vector.toList ++
    serializeParams payload.params

def payload : CoSignPayload where
  programId
  authority := operator
  bridgeVault := LittleEndian.vec 32 0xa0fc726d09c8036e088e9ff624e47a0a0cae4fb1b688f9eb6de2b7c42afb9bc5
  blockhash := .replicate 32 9
  quorumValidators := [operator, cosigner]
  params := .transact request.recipient request.nullifiers request.outputCommitments request.root request.extAmount
    (.replicate 256 0)

/-- The encodings, and the decoding of the payload of the sample. -/
def sdk : SolanaSdk where
  findProgramAddress seeds program :=
    if program = programId then ((addresses.find? fun e => e.1 = seeds).map Prod.snd).getD zero32 else zero32
  serializeMessage
  serializePayload
  deserializePayload bytes := if bytes = serializePayload payload then .ok payload else .error "unexpected end of file"

def signature : Bytes := LittleEndian.ofNat 64
  0x20c3536ce8508b3d674bea2eef269df880add3f5bceabfbd136215048feac1bfc452ebab7381be2207ee1287c0c9a0671fba2b55ec3997b19c6e0c64fada841

def crypto : Crypto where
  sha256 := ApprovalSample.crypto.sha256
  signMessage wallet bytes := if wallet = cosigner ∧ bytes = serializeMessage (payload.message sdk) then signature else []
  verify wallet sig bytes := wallet = cosigner ∧ sig = signature ∧ bytes = serializeMessage (payload.message sdk)

/-- Maps that iterate in the order of their entries. -/
def firstKey : KeyOrder where
  next := List.head?
  next_mem := List.mem_of_mem_head?
  next_isSome {keys} h := by cases keys <;> simp_all

def tokenRequest : TransactVerificationRequest := { request with
  requestId := "transact-943ed7b00d3a103aaa95a2d53ad84ec35622c6d233be54bcf5c1c2442d09cd14"
  mint := some (.replicate 32 7) }

def answer (verified : TransactVerificationRequest) : CoSignResponse :=
  (cosignSettlement crypto sdk firstKey (some cosigner) programId
    ((∅ : Table String TransactVerificationRequest).insert verified.requestId verified) ∅
    ⟨verified.requestId, .transact, serializePayload payload⟩).1

end CoSignSample

open CoSignSample

/-- The signature under the native request covers its settlement. -/
theorem cosigned_message_settles_native : (CoSignSample.answer ApprovalSample.request).signature = some CoSignSample.signature ∧
      (CoSignSample.payload.message CoSignSample.sdk).Settles CoSignSample.sdk CoSignSample.programId
        ApprovalSample.request := by
  have hsigned : (answer ApprovalSample.request).signature = some signature := by
    decide +kernel
  have hproof : ¬ maxProofBytes < payload.params.proof.length := by decide +kernel
  have hdecoded : CoSignPayload.fromBytes sdk (serializePayload payload) = .ok payload := by
    simp [CoSignPayload.fromBytes, sdk, hproof]
  refine ⟨hsigned, ?_⟩
  unfold answer at hsigned
  obtain ⟨wallet, payload, req, -, hpayload, hcached, -, hsettles⟩ := cosigned_message_settles_iff _ _ _ _ _ _ _ _ _ hsigned
  rw [hdecoded] at hpayload
  rw [AList.lookup_insert] at hcached
  obtain rfl := Except.ok.inj hpayload
  obtain rfl := Option.some.inj hcached
  exact hsettles.mpr fun _ => rfl

/-- Under the id of the request in a token, which it verified, the cosigner signs a settlement in lamports. -/
theorem token_request_cosigned_natively :
    (CoSignSample.answer CoSignSample.tokenRequest).signature = some CoSignSample.signature ∧
      CoSignSample.signature = CoSignSample.crypto.signMessage ApprovalSample.cosigner
        (CoSignSample.sdk.serializeMessage (CoSignSample.payload.message CoSignSample.sdk)) ∧
      ¬ (CoSignSample.payload.message CoSignSample.sdk).Settles CoSignSample.sdk CoSignSample.programId
        CoSignSample.tokenRequest := by
  refine ⟨by decide +kernel, by decide +kernel, fun hsettles => ?_⟩
  have happroved : tokenRequest.approves payload.params = true := by decide +kernel
  have hmint := (CoSignedAux.settles_iff happroved).mp hsettles trivial
  simp [tokenRequest] at hmint

end Paraloom.OffChain
