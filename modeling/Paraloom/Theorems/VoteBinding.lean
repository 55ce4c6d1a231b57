import Paraloom.Theorems.CoSignedSettlement

/-!
# What the signature of a vote covers

The signed bytes of a vote, over the canonical id of a request, determine everything the vote is about: where it counts, who cast
it, and every field of the request that a settlement reads. They are never the bytes of a settlement message.
-/

namespace Paraloom.OffChain

open List List.Vector LittleEndian

/-- What goes into the signed bytes of a vote. The byte strings are no longer than a length in eight bytes can say, as every
byte string in memory is. -/
structure VoteInput where
  programId : String
  clusterTag : String
  request : TransactVerificationRequest
  validator : NodeId
  vote : VerificationVote
  walletPubkey : String
  programId_fits : (utf8 programId).length < 2 ^ 64
  clusterTag_fits : (utf8 clusterTag).length < 2 ^ 64
  proof_fits : request.proof.length < 2 ^ 64
  validator_fits : validator.length < 2 ^ 64
  walletPubkey_fits : (utf8 walletPubkey).length < 2 ^ 64

def VoteInput.signingBytes (κ : Crypto) (v : VoteInput) : Bytes :=
  transactVoteSigningBytes v.programId v.clusterTag (v.request.canonicalId κ) v.validator v.vote v.walletPubkey

/-- `Message::serialize` of a settlement message. -/
def SettlementMessage.serialize (message : SettlementMessage) : Option Bytes :=
  Sdk.Message.serialize List.Vector.toList List.Vector.toList message

/-- Two requests that settle the same: they agree in everything but the caller's id, the ciphertexts and the timestamp. -/
structure TransactVerificationRequest.SameSettlement (r r' : TransactVerificationRequest) : Prop where
  root : r.root = r'.root
  recipient : r.recipient = r'.recipient
  extAmount : r.extAmount = r'.extAmount
  nullifiers : r.nullifiers = r'.nullifiers
  outputCommitments : r.outputCommitments = r'.outputCommitments
  proof : r.proof = r'.proof
  mint : r.mint = r'.mint

namespace VoteBindingAux

theorem utf8_injective : Function.Injective utf8 := by
  intro s t h
  rw [← String.toByteArray_inj]
  exact ByteArray.ext (Array.toList_inj.mp h)

theorem vector_append_inj {v v' : List.Vector UInt8 n} (h : v.toList ++ rest = v'.toList ++ rest') : v = v' ∧ rest = rest' := by
  obtain ⟨hv, hrest⟩ := append_inj h (by rw [toList_length, toList_length])
  exact ⟨toList_injective hv, hrest⟩

theorem lengthPrefixed_append_inj (ha : a.length < 2 ^ 64) (hb : b.length < 2 ^ 64)
    (h : lengthPrefixed a ++ rest = lengthPrefixed b ++ rest') : a = b ∧ rest = rest' := by
  rw [lengthPrefixed, lengthPrefixed, append_assoc, append_assoc] at h
  exact length_append_inj ha hb h

theorem int64_append_inj {x y : Int64} (h : ofNat 8 x.toBitVec.toNat ++ rest = ofNat 8 y.toBitVec.toNat ++ rest') :
    x = y ∧ rest = rest' := by
  obtain ⟨hint, hrest⟩ := append_inj h (by rw [ofNat_length, ofNat_length])
  have hnat := ofNat_inj x.toBitVec.isLt y.toBitVec.isLt hint
  exact ⟨Int64.toBitVec_inj.mp (BitVec.eq_of_toNat_eq hnat), hrest⟩

theorem sameSettlement_of_canonicalBytes {r r' : TransactVerificationRequest} (hfits : r.proof.length < 2 ^ 64)
    (hfits' : r'.proof.length < 2 ^ 64) (h : r.canonicalBytes = r'.canonicalBytes) : r.SameSettlement r' := by
  simp only [TransactVerificationRequest.canonicalBytes, append_assoc, append_cancel_left_eq] at h
  obtain ⟨hroot, h⟩ := vector_append_inj h
  obtain ⟨hrecipient, h⟩ := vector_append_inj h
  obtain ⟨hamount, h⟩ := int64_append_inj h
  obtain ⟨hfirst, h⟩ := vector_append_inj h
  obtain ⟨hsecond, h⟩ := vector_append_inj h
  obtain ⟨hfirstOut, h⟩ := vector_append_inj h
  obtain ⟨hsecondOut, h⟩ := vector_append_inj h
  obtain ⟨hproof, hmint⟩ := length_append_inj hfits hfits' h
  refine ⟨hroot, hrecipient, hamount, Prod.ext hfirst hsecond, Prod.ext hfirstOut hsecondOut, hproof, ?_⟩
  -- a mint is never the empty rest of a native request
  have htag : ∀ mint : Bytes32, utf8 "spl" ++ mint.toList ≠ [] := by
    intro mint hnil
    exact absurd (append_eq_nil_iff.mp hnil).1 (by decide)
  rcases hm : r.mint with _ | mint <;> rcases hm' : r'.mint with _ | mint' <;> simp only [hm, hm'] at hmint
  · rfl
  · exact absurd hmint.symm (htag mint')
  · exact absurd hmint (htag mint)
  · rw [toList_injective (append_cancel_left hmint)]

theorem canonicalId_inj {r r' : TransactVerificationRequest} (h : r.canonicalId κ = r'.canonicalId κ) :
    κ.sha256 r.canonicalBytes = κ.sha256 r'.canonicalBytes := by
  have hchars := congrArg String.toList h
  simp only [TransactVerificationRequest.canonicalId, String.toList_append, append_cancel_left_eq] at hchars
  exact toList_injective (hexEncode_injective (String.toList_inj.mp hchars))

theorem utf8ByteSize_ofList_le (chars : List Char) : (String.ofList chars).utf8ByteSize ≤ 4 * chars.length := by
  induction chars with
  | nil => simp
  | cons c chars ih =>
    have hc := c.utf8Size_le_four
    simp only [String.ofList_cons, String.utf8ByteSize_append, String.utf8ByteSize_singleton, length_cons]
    omega

theorem canonicalId_fits (r : TransactVerificationRequest) : (utf8 (r.canonicalId κ)).length < 2 ^ 64 := by
  have hsize : (utf8 (r.canonicalId κ)).length = (r.canonicalId κ).utf8ByteSize := by simp [utf8]
  have hhex := utf8ByteSize_ofList_le (hexEncode (κ.sha256 r.canonicalBytes).toList).toList
  have htag : "transact-".utf8ByteSize = 9 := by decide
  rw [String.ofList_toList, length_hexEncode, toList_length] at hhex
  rw [hsize, TransactVerificationRequest.canonicalId, String.utf8ByteSize_append]
  omega

theorem isValid_of_bit {vote vote' : VerificationVote}
    (h : (if vote.isValid then 1 else 0 : UInt8) = if vote'.isValid then 1 else 0) : vote.isValid = vote'.isValid := by
  cases hv : vote.isValid <;> cases hv' : vote'.isValid <;> simp [hv, hv'] at h ⊢

theorem signingBytes_inj {a b : VoteInput} (h : a.signingBytes κ = b.signingBytes κ) :
    a.programId = b.programId ∧ a.clusterTag = b.clusterTag ∧ a.request.canonicalId κ = b.request.canonicalId κ ∧
      a.validator = b.validator ∧ a.vote.isValid = b.vote.isValid ∧ a.walletPubkey = b.walletPubkey := by
  simp only [VoteInput.signingBytes, transactVoteSigningBytes, append_assoc, append_cancel_left_eq] at h
  obtain ⟨hprogram, h⟩ := lengthPrefixed_append_inj a.programId_fits b.programId_fits h
  obtain ⟨hcluster, h⟩ := lengthPrefixed_append_inj a.clusterTag_fits b.clusterTag_fits h
  obtain ⟨hrequest, h⟩ := lengthPrefixed_append_inj (canonicalId_fits _) (canonicalId_fits _) h
  obtain ⟨hvalidator, h⟩ := lengthPrefixed_append_inj a.validator_fits b.validator_fits h
  rw [singleton_append, singleton_append] at h
  obtain ⟨hbit, h⟩ := cons.inj h
  rw [← append_nil (lengthPrefixed _), ← append_nil (lengthPrefixed (utf8 b.walletPubkey))] at h
  obtain ⟨hwallet, -⟩ := lengthPrefixed_append_inj a.walletPubkey_fits b.walletPubkey_fits h
  exact ⟨utf8_injective hprogram, utf8_injective hcluster, utf8_injective hrequest, hvalidator, isValid_of_bit hbit,
    utf8_injective hwallet⟩

theorem numRequiredSignatures_le (h : buildSettlementMessage δ payload = .ok message) :
    message.numRequiredSignatures ≤ maxQuorumCosigners + 1 := by
  unfold buildSettlementMessage at h
  split at h
  · cases h
  · rename_i hquorum
    obtain rfl := Except.ok.inj h
    have hsub : (payload.message δ).signers ⊆ payload.authority :: payload.quorumValidators := by
      intro k hk
      exact mem_cons.mpr ((payload.mem_signers δ k).mp hk)
    have hlength := (subperm_of_subset (payload.nodup_signers δ) hsub).length_le
    have hcount : (payload.message δ).signers.length = (payload.message δ).numRequiredSignatures :=
      @Sdk.length_signers Bytes32 Bytes32 pubkeyOrder _ _ _
    rw [length_cons] at hlength
    omega

theorem head?_signingBytes (v : VoteInput) : (v.signingBytes κ).head? = some 112 := by
  simp only [VoteInput.signingBytes, transactVoteSigningBytes, append_assoc]
  rw [head?_append_of_ne_nil _ (by decide)]
  decide

end VoteBindingAux

open VoteBindingAux in
/-- Votes with the same signed bytes agree in everything but the reason, unless two requests collide in their hash; and the signed
bytes of a vote are not the bytes of a settlement message: these start with the number of signers, which is smaller than the first
letter of the domain tag. -/
theorem vote_bytes_bind_vote (κ : Crypto) (a : VoteInput) : (∀ b : VoteInput,
      (κ.sha256 a.request.canonicalBytes = κ.sha256 b.request.canonicalBytes →
        a.request.canonicalBytes = b.request.canonicalBytes) →
      a.signingBytes κ = b.signingBytes κ →
      a.programId = b.programId ∧ a.clusterTag = b.clusterTag ∧ a.validator = b.validator ∧
        a.vote.isValid = b.vote.isValid ∧ a.walletPubkey = b.walletPubkey ∧ a.request.SameSettlement b.request) ∧
    ∀ δ payload message bytes, buildSettlementMessage δ payload = .ok message →
      SettlementMessage.serialize message = some bytes → a.signingBytes κ ≠ bytes := by
  constructor
  · intro b hsha h
    obtain ⟨hprogram, hcluster, hid, hvalidator, hvote, hwallet⟩ := signingBytes_inj h
    exact ⟨hprogram, hcluster, hvalidator, hvote, hwallet,
      sameSettlement_of_canonicalBytes a.proof_fits b.proof_fits (hsha (canonicalId_inj hid))⟩
  · rintro δ payload message bytes hbuild hbytes rfl
    have hhead := (head?_signingBytes a).symm.trans (Sdk.Message.head?_serialize hbytes)
    have hfirst := congrArg UInt8.toNat (Option.some.inj hhead)
    have hsigners := numRequiredSignatures_le hbuild
    rw [UInt8.toNat_ofNat'] at hfirst
    have htag : (112 : UInt8).toNat = 112 := rfl
    simp only [maxQuorumCosigners] at hsigners
    omega

namespace VoteSample

open ApprovalSample (settings operator request)

theorem programId_fits : (utf8 settings.programId).length < 2 ^ 64 := by decide +kernel

theorem clusterTag_fits : (utf8 settings.clusterTag).length < 2 ^ 64 := by decide +kernel

theorem proof_fits : request.proof.length < 2 ^ 64 := by decide +kernel

theorem validator_fits : settings.nodeId.length < 2 ^ 64 := by decide +kernel

theorem walletPubkey_fits : (utf8 (walletName operator)).length < 2 ^ 64 := by decide +kernel

def vote (timestamp : Nat) : VoteInput where
  programId := settings.programId
  clusterTag := settings.clusterTag
  request := { request with timestamp }
  validator := settings.nodeId
  vote := .valid
  walletPubkey := walletName operator
  programId_fits := programId_fits
  clusterTag_fits := clusterTag_fits
  proof_fits := proof_fits
  validator_fits := validator_fits
  walletPubkey_fits := walletPubkey_fits

end VoteSample

/-- The same request at two times: one vote covers both, as they settle the same. It does not cover the settlement message. -/
theorem vote_bytes_bind_resent : (VoteSample.vote 1).request.SameSettlement (VoteSample.vote 2).request ∧
      ∃ bytes, SettlementMessage.serialize (CoSignSample.payload.message CoSignSample.sdk) = some bytes ∧
        (VoteSample.vote 1).signingBytes ApprovalSample.crypto ≠ bytes := by
  have hserialized : (SettlementMessage.serialize (CoSignSample.payload.message CoSignSample.sdk)).isSome = true := by
    decide +kernel
  obtain ⟨bytes, hbytes⟩ := Option.isSome_iff_exists.mp hserialized
  obtain ⟨hbind, hdomain⟩ := vote_bytes_bind_vote ApprovalSample.crypto (VoteSample.vote 1)
  exact ⟨(hbind (VoteSample.vote 2) (fun _ => rfl) rfl).2.2.2.2.2, bytes, hbytes,
    hdomain CoSignSample.sdk CoSignSample.payload _ bytes rfl hbytes⟩

end Paraloom.OffChain
