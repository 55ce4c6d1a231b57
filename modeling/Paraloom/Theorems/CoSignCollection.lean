import Paraloom.Theorems.CoSignSet

/-!
# The co-sign round collects every honest answer

The leader asks the peers one after the other and keeps the first valid signature of each expected wallet, whichever peer it came
from. The round succeeds exactly when every wallet of the quorum has answered through some peer.
-/

namespace Paraloom.OffChain

open List

/-- The loop of `gather_signatures` with the peers that it asks. -/
def gatherTraced (κ : Crypto) (messageBytes : Bytes) (expected : List Bytes32) (threshold : Nat)
    (answer : Nat → NodeId → Option (Bytes32 × Bytes)) :
    Nat → List (Bytes32 × NodeId) → Table Bytes32 Bytes → Table Bytes32 Bytes × List (Bytes32 × NodeId)
  | _, [], collected => (collected, [])
  | i, peer :: peers, collected =>
    if threshold ≤ collected.entries.length then (collected, [])
    else
      let rest := gatherTraced κ messageBytes expected threshold answer (i + 1) peers
        (keepAnswer κ messageBytes expected collected (answer i peer.2))
      (rest.1, peer :: rest.2)

/-- `run_cosign_round` with the peers that it asks. -/
def runCosignRoundTraced (κ : Crypto) (δ : SolanaSdk) (leader programId bridgeVault blockhash : Bytes32) (requestId : String)
    (kind : SettlementKind) (params : SettlementParams) (quorumWallets : List Bytes32) (peers : List (Bytes32 × NodeId))
    (threshold : Nat) (send : CoSignNetwork) : Except NodeError Transaction × List (Bytes32 × NodeId) :=
  let payload : CoSignPayload := {
    programId, authority := leader, bridgeVault, blockhash, quorumValidators := quorumWallets, params }
  match buildSettlementMessage δ payload with
  | .error e => (.error e, [])
  | .ok message =>
    let messageBytes := δ.serializeMessage message
    let ownSig := κ.signMessage leader messageBytes
    let request : CoSignRequest := ⟨requestId, kind, δ.serializePayload payload⟩
    if signatureIsValid κ leader ownSig messageBytes = false then
      (.error (.serialization "leader's own co-sign signature does not verify"), [])
    else
      let gathered := gatherTraced κ messageBytes (peers.map Prod.fst) threshold
        (fun i peer => (send i peer request).bind CoSignResponse.parse) 0 peers ((∅ : Table Bytes32 Bytes).insert leader ownSig)
      (if gathered.1.entries.length < threshold then
          .error (.serialization s!"co-sign quorum not reached: {gathered.1.entries.length} of {threshold} signatures")
        else assembleTransaction κ δ message gathered.1,
        gathered.2)

namespace CoSignCollectionAux

variable {κ : Crypto} {bytes : Bytes} {expected : List Bytes32} {threshold : Nat}
  {answer : Nat → NodeId → Option (Bytes32 × Bytes)}

theorem gatherLoop_cons (h : ¬threshold ≤ collected.entries.length) :
    gatherLoop κ bytes expected threshold answer i (peer :: peers) collected =
      gatherLoop κ bytes expected threshold answer (i + 1) peers (keepAnswer κ bytes expected collected (answer i peer.2)) := by
  rw [gatherLoop, if_neg h]
  rcases answer i peer.2 with _ | ⟨wallet, sig⟩
  · rfl
  · simp only [keepAnswer]
    split <;> rfl

theorem gatherTraced_fst : (gatherTraced κ bytes expected threshold answer i peers collected).1 =
      gatherLoop κ bytes expected threshold answer i peers collected := by
  induction peers generalizing i collected with
  | nil => rfl
  | cons peer peers ih =>
    by_cases hfull : threshold ≤ collected.entries.length
    · rw [gatherTraced, gatherLoop, if_pos hfull, if_pos hfull]
    · rw [gatherTraced, if_neg hfull, gatherLoop_cons hfull, ← ih]

/-- It asks the first peers of the list, each once. -/
theorem gatherTraced_snd_isPrefix : (gatherTraced κ bytes expected threshold answer i peers collected).2 <+: peers := by
  induction peers generalizing i collected with
  | nil => exact prefix_refl []
  | cons peer peers ih =>
    rw [gatherTraced]
    split
    · exact nil_prefix
    · exact (prefix_cons_inj peer).mpr ih

/-- A valid signature of an expected wallet came with some answer, counted from `i`. -/
def Answered (κ : Crypto) (bytes : Bytes) (answer : Nat → NodeId → Option (Bytes32 × Bytes)) (i : Nat)
    (peers : List (Bytes32 × NodeId)) (wallet : Bytes32) (sig : Bytes) : Prop :=
  ∃ j peer, peers[j]? = some peer ∧ answer (i + j) peer.2 = some (wallet, sig) ∧
    signatureIsValid κ wallet sig bytes = true

theorem answered_nil : ¬Answered κ bytes answer i [] wallet sig := by
  rintro ⟨j, peer, hpeer, -⟩
  simp at hpeer

theorem answered_cons : Answered κ bytes answer i (peer :: peers) wallet sig ↔
      (answer i peer.2 = some (wallet, sig) ∧ signatureIsValid κ wallet sig bytes = true) ∨
        Answered κ bytes answer (i + 1) peers wallet sig := by
  constructor
  · rintro ⟨j, q, hq, hanswer, hvalid⟩
    cases j with
    | zero =>
      obtain rfl := Option.some.inj hq
      exact .inl ⟨hanswer, hvalid⟩
    | succ j => exact .inr ⟨j, q, hq, by rwa [Nat.add_assoc, Nat.add_comm 1], hvalid⟩
  · rintro (⟨hanswer, hvalid⟩ | ⟨j, q, hq, hanswer, hvalid⟩)
    · exact ⟨0, peer, rfl, hanswer, hvalid⟩
    · exact ⟨j + 1, q, hq, by rwa [Nat.add_assoc, Nat.add_comm 1] at hanswer, hvalid⟩

/-- What the loop ends with: what it had, and signatures from the answers; and it ends with enough of them, or with one for every
expected wallet that has answered. -/
structure Gathered (κ : Crypto) (bytes : Bytes) (expected : List Bytes32) (threshold : Nat)
    (answer : Nat → NodeId → Option (Bytes32 × Bytes)) (i : Nat) (peers : List (Bytes32 × NodeId))
    (collected result : Table Bytes32 Bytes) : Prop where
  kept : ∀ wallet ∈ collected, wallet ∈ result
  source : ∀ wallet sig, result.lookup wallet = some sig →
    collected.lookup wallet = some sig ∨ wallet ∈ expected ∧ Answered κ bytes answer i peers wallet sig
  complete : threshold ≤ result.entries.length ∨
    ∀ wallet ∈ expected, ∀ sig, Answered κ bytes answer i peers wallet sig → wallet ∈ result

theorem mem_keepAnswer (h : wallet ∈ collected) : wallet ∈ keepAnswer κ bytes expected collected given := by
  rcases given with _ | ⟨w, sig⟩
  · exact h
  · rw [keepAnswer]
    split
    · exact h
    · exact (AList.mem_insert _).mpr (.inr h)

theorem lookup_keepAnswer (h : (keepAnswer κ bytes expected collected given).lookup wallet = some sig) :
    collected.lookup wallet = some sig ∨
      wallet ∈ expected ∧ given = some (wallet, sig) ∧ signatureIsValid κ wallet sig bytes = true := by
  rcases given with _ | ⟨w, s⟩
  · exact .inl h
  · rw [keepAnswer] at h
    split at h
    · exact .inl h
    · rename_i hkept
      rw [Table.lookup_insert_eq_some] at h
      rcases h with ⟨rfl, rfl⟩ | ⟨-, hold⟩
      · simp only [not_or, not_not, Bool.not_eq_false] at hkept
        exact .inr ⟨hkept.1, rfl, hkept.2.2⟩
      · exact .inl hold

theorem mem_keepAnswer_of_valid (hexpected : wallet ∈ expected) (hvalid : signatureIsValid κ wallet sig bytes = true) :
    wallet ∈ keepAnswer κ bytes expected collected (some (wallet, sig)) := by
  by_cases hmem : wallet ∈ collected
  · exact mem_keepAnswer hmem
  · simp [keepAnswer, hexpected, hmem, hvalid]

theorem gatherLoop_gathered : Gathered κ bytes expected threshold answer i peers collected
      (gatherLoop κ bytes expected threshold answer i peers collected) := by
  induction peers generalizing i collected with
  | nil => exact ⟨fun _ h => h, fun _ _ h => .inl h, .inr fun _ _ _ h => absurd h answered_nil⟩
  | cons peer peers ih =>
    by_cases hfull : threshold ≤ collected.entries.length
    · rw [gatherLoop, if_pos hfull]
      exact ⟨fun _ h => h, fun _ _ h => .inl h, .inl hfull⟩
    · rw [gatherLoop_cons hfull]
      have hrest : Gathered κ bytes expected threshold answer (i + 1) peers
          (keepAnswer κ bytes expected collected (answer i peer.2)) _ := ih
      refine ⟨fun wallet h => hrest.kept wallet (mem_keepAnswer h), fun wallet sig h => ?_, ?_⟩
      · rcases hrest.source wallet sig h with hkept | ⟨hexpected, hlater⟩
        · rcases lookup_keepAnswer hkept with hold | ⟨hexpected, hnow, hvalid⟩
          · exact .inl hold
          · exact .inr ⟨hexpected, answered_cons.mpr (.inl ⟨hnow, hvalid⟩)⟩
        · exact .inr ⟨hexpected, answered_cons.mpr (.inr hlater)⟩
      · refine hrest.complete.imp_right fun hcomplete wallet hexpected sig hanswered => ?_
        rcases answered_cons.mp hanswered with ⟨hnow, hvalid⟩ | hlater
        · exact hrest.kept wallet (hnow ▸ mem_keepAnswer_of_valid hexpected hvalid)
        · exact hcomplete wallet hexpected sig hlater

section Own

variable (h : Gathered κ bytes expected threshold answer i peers ((∅ : Table Bytes32 Bytes).insert leader own) result)
  (hown : signatureIsValid κ leader own bytes = true)
include h hown

/-- Signatures held by a loop that starts with the leader's own are of the quorum, and valid. -/
theorem Gathered.valid (hsig : result.lookup wallet = some sig) :
    wallet ∈ leader :: expected ∧ signatureIsValid κ wallet sig bytes = true := by
  rcases h.source wallet sig hsig with hstart | ⟨hexpected, j, peer, -, -, hvalid⟩
  · rw [Table.lookup_insert_eq_some] at hstart
    rcases hstart with ⟨rfl, rfl⟩ | ⟨-, hempty⟩
    · exact ⟨mem_cons_self, hown⟩
    · simp at hempty
  · exact ⟨mem_cons_of_mem _ hexpected, hvalid⟩

theorem Gathered.mem_of_full
    (hfull : (leader :: expected).length ≤ result.entries.length) (hwallet : wallet ∈ leader :: expected) : wallet ∈ result := by
  have hsub : result.keys ⊆ leader :: expected := by
    intro w hw
    obtain ⟨sig, hsig⟩ := Option.isSome_iff_exists.mp (AList.lookup_isSome.mpr hw)
    exact (h.valid hown hsig).1
  have hlen : (leader :: expected).length ≤ result.keys.length := by
    simpa [AList.keys, keys] using hfull
  have hperm := (subperm_of_subset result.keys_nodup hsub).perm_of_length_le hlen
  exact hperm.mem_iff.mpr hwallet

end Own

theorem Gathered.full_iff (h : Gathered κ bytes expected (leader :: expected).length answer i peers
      ((∅ : Table Bytes32 Bytes).insert leader own) result) (hown : signatureIsValid κ leader own bytes = true)
    (hnodup : (leader :: expected).Nodup) :
    (leader :: expected).length ≤ result.entries.length ↔
      ∀ wallet ∈ expected, ∃ sig, Answered κ bytes answer i peers wallet sig := by
  constructor
  · intro hfull wallet hwallet
    have hmem := h.mem_of_full hown hfull (mem_cons_of_mem _ hwallet)
    obtain ⟨sig, hsig⟩ := Option.isSome_iff_exists.mp (AList.lookup_isSome.mpr hmem)
    rcases h.source wallet sig hsig with hstart | ⟨-, hanswered⟩
    · rw [Table.lookup_insert_eq_some] at hstart
      rcases hstart with ⟨rfl, -⟩ | ⟨-, hempty⟩
      · exact absurd hwallet (nodup_cons.mp hnodup).1
      · simp at hempty
    · exact ⟨sig, hanswered⟩
  · intro hanswers
    rcases h.complete with hfull | hcomplete
    · exact hfull
    · -- the loop ran to its end, so everything that was answered is held
      have hsub : leader :: expected ⊆ result.keys := by
        intro wallet hwallet
        rcases mem_cons.mp hwallet with rfl | hexpected
        · exact h.kept wallet ((AList.mem_insert _).mpr (.inl rfl))
        · obtain ⟨sig, hanswered⟩ := hanswers wallet hexpected
          exact hcomplete wallet hexpected sig hanswered
      simpa [AList.keys, keys] using (subperm_of_subset hnodup hsub).length_le

theorem orderedSignatures_ok (h : ∀ w ∈ signers, ∃ sig, result.lookup w = some sig ∧
      signatureIsValid κ w sig bytes = true) :
    ∃ sigs, orderedSignatures result signers = .ok sigs ∧
      List.Forall₂ (fun w sig => signatureIsValid κ w sig bytes = true) signers sigs := by
  induction signers with
  | nil => exact ⟨[], rfl, .nil⟩
  | cons w signers ih =>
    obtain ⟨sig, hsig, hvalid⟩ := h w mem_cons_self
    obtain ⟨sigs, hsigs, hforall⟩ := ih fun w' hw' => h w' (mem_cons_of_mem _ hw')
    have hlength : sig.length = 64 := by simpa [signatureIsValid] using (Bool.and_eq_true_iff.mp hvalid).1
    exact ⟨sig :: sigs, by simp [orderedSignatures, hsig, hlength, hsigs], .cons hvalid hforall⟩

theorem verify_all (h : List.Forall₂ (fun w sig => signatureIsValid κ w sig bytes = true) signers sigs) :
    ((signers.zip sigs).all fun e => κ.verify e.1 e.2 bytes) = true := by
  induction h with
  | nil => rfl
  | cons hvalid _ ih => simp [(Bool.and_eq_true_iff.mp hvalid).2, ih]

/-- What the round answers is an answer that parses. -/
theorem parse_eq_some_iff {response : CoSignResponse} : response.parse = some (wallet, sig) ↔
      response.signature = some sig ∧ Base58.decode 32 response.walletPubkey = some wallet := by
  unfold CoSignResponse.parse
  cases response.signature <;> cases Base58.decode 32 response.walletPubkey <;> simp [and_comm]

section Round

variable {programId bridgeVault blockhash : Bytes32}

theorem runCosignRoundTraced_fst :
    (runCosignRoundTraced κ δ leader programId bridgeVault blockhash requestId kind params quorumWallets peers threshold
      send).1 = runCosignRound κ δ leader programId bridgeVault blockhash requestId kind params quorumWallets peers threshold
        send := by
  unfold runCosignRoundTraced runCosignRound
  dsimp only
  cases buildSettlementMessage δ ⟨programId, leader, bridgeVault, blockhash, quorumWallets, params⟩ with
  | error e => rfl
  | ok message =>
    simp only [gatherSignatures, gatherTraced_fst]
    split
    · rfl
    · simp only
      split <;> rfl

theorem runCosignRoundTraced_snd_isPrefix :
    (runCosignRoundTraced κ δ leader programId bridgeVault blockhash requestId kind params quorumWallets peers threshold
      send).2 <+: peers := by
  unfold runCosignRoundTraced
  dsimp only
  cases buildSettlementMessage δ ⟨programId, leader, bridgeVault, blockhash, quorumWallets, params⟩ with
  | error e => exact nil_prefix
  | ok message =>
    simp only
    split
    · exact nil_prefix
    · exact gatherTraced_snd_isPrefix

theorem signers_quorum (hbuild : buildSettlementMessage δ
      ⟨programId, leader, bridgeVault, blockhash, quorumWallets, params⟩ = .ok message) (hleader : leader ∈ quorumWallets)
    (hnodup : quorumWallets.Nodup) : message.signers.Perm quorumWallets := by
  unfold buildSettlementMessage at hbuild
  split at hbuild
  · cases hbuild
  · cases hbuild
    refine (perm_ext_iff_of_nodup (CoSignPayload.nodup_signers δ _) hnodup).mpr fun k => ?_
    rw [CoSignPayload.mem_signers δ]
    exact or_iff_right_of_imp fun h => h ▸ hleader

theorem assemble_of_full (hsigners : message.signers.Perm (leader :: expected))
    (h : Gathered κ (δ.serializeMessage message) expected threshold answer i peers ((∅ : Table Bytes32 Bytes).insert leader own)
      result) (hown : signatureIsValid κ leader own (δ.serializeMessage message) = true)
    (hfull : (leader :: expected).length ≤ result.entries.length) :
    ∃ sigs, assembleTransaction κ δ message result = .ok ⟨sigs, message⟩ ∧
      List.Forall₂ (fun w sig => signatureIsValid κ w sig (δ.serializeMessage message) = true) message.signers sigs := by
  have hheld : ∀ w ∈ message.signers, ∃ sig, result.lookup w = some sig ∧
      signatureIsValid κ w sig (δ.serializeMessage message) = true := by
    intro w hw
    have hmem := h.mem_of_full hown hfull (hsigners.mem_iff.mp hw)
    obtain ⟨sig, hsig⟩ := Option.isSome_iff_exists.mp (AList.lookup_isSome.mpr hmem)
    exact ⟨sig, hsig, (h.valid hown hsig).2⟩
  obtain ⟨sigs, hsigs, hvalid⟩ := orderedSignatures_ok hheld
  exact ⟨sigs, by simp only [assembleTransaction, hsigs, verify_all hvalid, if_true], hvalid⟩

/-- A round over a message that can be built: it succeeds exactly when all have answered, with the signatures in order. -/
theorem round_of_message
    (hpayload : payload = ⟨programId, leader, bridgeVault, blockhash, leader :: peers.map Prod.fst, params⟩)
    (hbuild : buildSettlementMessage δ payload = .ok message) (hdistinct : (leader :: peers.map Prod.fst).Nodup)
    (hown : signatureIsValid κ leader (κ.signMessage leader (δ.serializeMessage message)) (δ.serializeMessage message) = true) :
    (∀ tx, runCosignRound κ δ leader programId bridgeVault blockhash requestId kind params (leader :: peers.map Prod.fst) peers
        (leader :: peers.map Prod.fst).length send = .ok tx →
      tx.message = message ∧ List.Forall₂ (fun w sig => signatureIsValid κ w sig (δ.serializeMessage message) = true)
        message.signers tx.signatures) ∧
    ((∃ tx, runCosignRound κ δ leader programId bridgeVault blockhash requestId kind params (leader :: peers.map Prod.fst)
        peers (leader :: peers.map Prod.fst).length send = .ok tx) ↔
      ∀ wallet ∈ peers.map Prod.fst, ∃ sig, Answered κ (δ.serializeMessage message)
        (fun i peer => (send i peer ⟨requestId, kind, δ.serializePayload payload⟩).bind CoSignResponse.parse) 0 peers wallet
        sig) := by
  subst hpayload
  have hsigners := signers_quorum hbuild mem_cons_self hdistinct
  unfold runCosignRound
  dsimp only
  rw [hbuild]
  simp only [gatherSignatures, hown, Bool.true_eq_false, if_false]
  have hgathered := @gatherLoop_gathered κ (δ.serializeMessage message) (peers.map Prod.fst)
    (leader :: peers.map Prod.fst).length
    (fun i peer => (send i peer ⟨requestId, kind, δ.serializePayload ⟨programId, leader, bridgeVault, blockhash,
      leader :: peers.map Prod.fst, params⟩⟩).bind CoSignResponse.parse) 0 peers
    ((∅ : Table Bytes32 Bytes).insert leader (κ.signMessage leader (δ.serializeMessage message)))
  rw [← hgathered.full_iff hown hdistinct]
  generalize gatherLoop κ (δ.serializeMessage message) (peers.map Prod.fst) _ _ 0 peers _ = result at hgathered ⊢
  by_cases hfull : (leader :: peers.map Prod.fst).length ≤ result.entries.length
  · obtain ⟨sigs, hassembled, hvalid⟩ := assemble_of_full hsigners hgathered hown hfull
    simp only [if_neg (Nat.not_lt.mpr hfull), hassembled, Except.ok.injEq]
    exact ⟨fun tx htx => htx ▸ ⟨rfl, hvalid⟩, fun _ => hfull, fun _ => ⟨_, rfl⟩⟩
  · simp only [if_pos (Nat.lt_of_not_le hfull), reduceCtorEq, false_implies, implies_true, exists_false, true_and, false_iff]
    exact hfull

end Round

end CoSignCollectionAux

open CoSignCollectionAux

/-- With the leader and the peers' wallets as the quorum, all distinct and all needed, the round succeeds exactly when the
message can be built and for every peer wallet some answer carries it with a signature that verifies. The transaction then has
one valid signature for each signer, in their order. The round asks the first peers of the list, each once. -/
theorem cosign_round_ok_iff_all_answer (κ : Crypto) (δ : SolanaSdk) (leader programId bridgeVault blockhash : Bytes32)
    (requestId : String) (kind : SettlementKind) (params : SettlementParams) (peers : List (Bytes32 × NodeId))
    (send : CoSignNetwork) (hdistinct : (leader :: peers.map Prod.fst).Nodup)
    (hkeypair : ∀ message,
      buildSettlementMessage δ ⟨programId, leader, bridgeVault, blockhash, leader :: peers.map Prod.fst, params⟩ = .ok message →
      signatureIsValid κ leader (κ.signMessage leader (δ.serializeMessage message)) (δ.serializeMessage message) = true) :
    let quorumWallets := leader :: peers.map Prod.fst
    let payload : CoSignPayload := ⟨programId, leader, bridgeVault, blockhash, quorumWallets, params⟩
    let round := runCosignRound κ δ leader programId bridgeVault blockhash requestId kind params quorumWallets peers
      quorumWallets.length send
    let traced := runCosignRoundTraced κ δ leader programId bridgeVault blockhash requestId kind params quorumWallets peers
      quorumWallets.length send
    ((∃ tx, round = .ok tx) ↔ ∃ message, buildSettlementMessage δ payload = .ok message ∧
      ∀ wallet ∈ peers.map Prod.fst, ∃ i peer response sig, peers[i]? = some peer ∧
        send i peer.2 ⟨requestId, kind, δ.serializePayload payload⟩ = some response ∧ response.signature = some sig ∧
        Base58.decode 32 response.walletPubkey = some wallet ∧
        signatureIsValid κ wallet sig (δ.serializeMessage message) = true) ∧
    (∀ tx, round = .ok tx → buildSettlementMessage δ payload = .ok tx.message ∧ tx.message.signers.Perm quorumWallets ∧
      List.Forall₂ (fun w sig => signatureIsValid κ w sig (δ.serializeMessage tx.message) = true) tx.message.signers
        tx.signatures) ∧
    traced.1 = round ∧ traced.2 <+: peers ∧ traced.2.Nodup ∧
    ∀ node, (traced.2.map Prod.snd).count node ≤ (peers.map Prod.snd).count node := by
  intro quorumWallets payload round traced
  have hasked : traced.2 <+: peers := runCosignRoundTraced_snd_isPrefix
  have hpeers : peers.Nodup := (nodup_cons.mp hdistinct).2.of_map
  suffices hround : ((∃ tx, round = .ok tx) ↔ _) ∧ ∀ tx, round = .ok tx → _ from
    ⟨hround.1, hround.2, runCosignRoundTraced_fst, hasked, hasked.sublist.nodup hpeers,
      fun node => (hasked.sublist.map Prod.snd).count_le node⟩
  cases hbuild : buildSettlementMessage δ payload with
  | error e =>
    have hfails : round = .error e := by simp [round, runCosignRound, payload, hbuild]
    simp [hfails]
  | ok message =>
    obtain ⟨hsound, hiff⟩ := round_of_message rfl hbuild hdistinct (hkeypair message hbuild)
    refine ⟨?_, fun tx htx => ?_⟩
    · simp only [Except.ok.injEq, exists_eq_left']
      refine hiff.trans (forall₂_congr fun wallet _ => ?_)
      -- an answer is a response that parses
      simp only [Answered, Option.bind_eq_some_iff, parse_eq_some_iff, Nat.zero_add]
      constructor
      · rintro ⟨sig, i, peer, hpeer, ⟨response, hsent, hsig, hwallet⟩, hvalid⟩
        exact ⟨i, peer, response, sig, hpeer, hsent, hsig, hwallet, hvalid⟩
      · rintro ⟨i, peer, response, sig, hpeer, hsent, hsig, hwallet, hvalid⟩
        exact ⟨sig, i, peer, hpeer, ⟨response, hsent, hsig, hwallet⟩, hvalid⟩
    · obtain ⟨hmessage, hvalid⟩ := hsound tx htx
      rw [hmessage]
      exact ⟨rfl, signers_quorum hbuild mem_cons_self hdistinct, hvalid⟩

open SettleSample
open ApprovalSample (cosigner operator)

/-- The operator and one cosigner, who answers. -/
theorem cosign_round_ok_of_cosigner :
    ∃ tx, runCosignRound SettleSample.crypto CoSignSample.sdk ApprovalSample.operator CoSignSample.programId
        CoSignSample.payload.bridgeVault (.replicate 32 9) SettleSample.request.requestId .transact
        (SettleSample.request.params SettleSample.onchainProof) [ApprovalSample.operator, ApprovalSample.cosigner]
        [(ApprovalSample.cosigner, [2])] 2 SettleSample.answers = .ok tx ∧
      tx.message.signers.Perm [ApprovalSample.operator, ApprovalSample.cosigner] := by
  have hown : signatureIsValid crypto operator (crypto.signMessage operator (messageBytes [operator, cosigner]))
      (messageBytes [operator, cosigner]) = true := by decide +kernel
  have hcosigner : signatureIsValid crypto cosigner (crypto.signMessage cosigner (messageBytes [operator, cosigner]))
      (messageBytes [operator, cosigner]) = true := by decide +kernel
  have hwallet : Base58.decode 32 (walletName cosigner) = some cosigner := by decide +kernel
  obtain ⟨hiff, hsound, -⟩ := cosign_round_ok_iff_all_answer crypto CoSignSample.sdk operator
    CoSignSample.programId CoSignSample.payload.bridgeVault (.replicate 32 9) request.requestId .transact
    (request.params onchainProof) [(cosigner, [2])] answers
    (by decide +kernel) (fun message hmessage => by cases hmessage; exact hown)
  obtain ⟨tx, htx⟩ := hiff.mpr ⟨_, rfl, fun wallet hmem => by
    obtain rfl : wallet = cosigner := by simpa using hmem
    exact ⟨0, _, _, _, rfl, rfl, rfl, hwallet, hcosigner⟩⟩
  exact ⟨tx, htx, (hsound tx htx).2.1⟩

end Paraloom.OffChain
