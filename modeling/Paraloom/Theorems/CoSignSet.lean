import Paraloom.OffChain.CoSignRound
import Paraloom.Theorems.CoSignedSettlement
import Paraloom.Theorems.StakeGate

/-!
# The co-signers of a settlement and the voters that were counted

The gate counts wallets; the round asks peers, under the wallets that they advertise at that time. The two sets are the same as
long as nothing disturbs the round between the approval and the round.
-/

namespace Paraloom.OffChain

open TransactVerificationCoordinator List ApprovalAux ConsensusAux StakeGateAux LittleEndian Base58

/-- A valid vote of an eligible wallet in an open round. -/
structure TransactVerificationCoordinator.ValidVote (c : TransactVerificationCoordinator) (requestId wallet : String)
    (record : VoteRecord) : Prop where
  recorded : c.recorded requestId wallet = some record
  valid : record.vote.isValid = true
  eligible : wallet ∈ c.eligibleWallets

/-- The valid votes of a round came from peers that advertise the wallet of the vote, and the node's own wallet voted from the
node itself and from nowhere else. -/
structure Dialled (σ : NodeSettings) (c : TransactVerificationCoordinator) (requestId : String) (leader : Bytes32) : Prop where
  own : ∀ record, c.ValidVote requestId (walletName leader) record → record.nodeId = σ.nodeId
  others : ∀ wallet record, c.ValidVote requestId wallet record → wallet ≠ walletName leader →
    record.nodeId ≠ σ.nodeId ∧ c.validatorWallet record.nodeId = some wallet

/-- A vote that adds no valid vote of an eligible wallet to the round of a request, and is no flip of a voter of it. -/
structure Harmless (c : TransactVerificationCoordinator) (requestId : String) (result : TransactVerificationResult) : Prop where
  noVoter : result.requestId = requestId → c.recorded requestId result.walletPubkey = none → result.vote.isValid = true →
    result.walletPubkey ∉ c.eligibleWallets
  noFlip : ∀ record previous, c.ValidVote requestId result.walletPubkey record →
    c.recorded result.requestId result.walletPubkey = some previous → previous.vote.isValid = result.vote.isValid

/-- A call that leaves the co-signers of a round as they are. -/
def NodeEvent.Undisturbing (κ : Crypto) (σ : NodeSettings) (n : Node) (requestId : String) (leader : Bytes32) : NodeEvent → Prop
  | .voteMessage _ _ _ result => Harmless n.coordinator requestId result
  | .selfVote _ _ now id vote => ∀ result, σ.signedVote κ now id vote = some result → Harmless n.coordinator requestId result
  | .syncOnchainStakes stakes _ => stakes.entries ≠ [] → ∀ wallet record, n.coordinator.recorded requestId wallet = some record →
      record.vote.isValid = true → (wallet ∈ stakes ↔ wallet ∈ n.coordinator.onchainWallets)
  | .registerValidator validator walletPubkey => ∀ wallet record, n.coordinator.ValidVote requestId wallet record →
      wallet ≠ walletName leader → record.nodeId = validator →
        ∀ w ∈ walletPubkey, w ∈ n.coordinator.onchainWallets → w = wallet
  | .cleanupTimeouts now => requestId ∉ n.coordinator.timedOut now
  | .restart => False
  | _ => True

namespace CoSignSetAux

open ConsensusAux

variable {n : Node}
variable {c : TransactVerificationCoordinator}


/-! ## What a call does to the votes -/

theorem recorded_recordVote_of_recorded (hpending : c.pending.lookup result.requestId = some consensus)
    (h : c.recorded requestId wallet = some record) :
    (c.recordVote consensus result).recorded requestId wallet = some record := by
  simp only [recorded, recordVote_pending, Table.lookup_insert_if] at h ⊢
  split
  · rename_i hid
    subst hid
    simp only [hpending, Option.bind_some] at h ⊢
    rcases lookup_votedTally consensus result wallet with hsame | ⟨hnone, -, -⟩
    · exact hsame.trans h
    · rw [hnone] at h
      cases h
  · exact h

theorem validVote_recordVote {c' : TransactVerificationCoordinator} (counts : Counts κ c result consensus)
    (hrecorded : ∀ id w, c'.recorded id w = (c.recordVote consensus result).recorded id w)
    (heligible : c'.eligibleWallets = (c.recordVote consensus result).eligibleWallets)
    (hharmless : Harmless c requestId result) :
    c'.ValidVote requestId wallet record ↔ c.ValidVote requestId wallet record := by
  have hwallets : (c.recordVote consensus result).eligibleWallets ⊆ c.eligibleWallets := by
    rw [eligibleWallets, eligibleWallets, recordVote_onchainWallets]
    exact Finset.sdiff_subset_sdiff subset_rfl (recordVote_equivocators c consensus result).1
  constructor
  · rintro ⟨hr, hvalid, hmem⟩
    rw [hrecorded] at hr
    rw [heligible] at hmem
    refine ⟨?_, hvalid, hwallets hmem⟩
    rcases recorded_recordVote counts.pending hr with hold | ⟨-, hnone, hid, rfl, rfl⟩
    · exact hold
    · exact absurd (hwallets hmem) (hharmless.noVoter hid hnone hvalid)
  · intro hvote
    refine ⟨?_, hvote.valid, ?_⟩
    · rw [hrecorded]
      exact recorded_recordVote_of_recorded counts.pending hvote.recorded
    · obtain ⟨hstaked, hban⟩ := Finset.mem_sdiff.mp hvote.eligible
      rw [heligible, eligibleWallets, recordVote_onchainWallets, Finset.mem_sdiff]
      refine ⟨hstaked, fun hbanned => ?_⟩
      rcases mem_equivocators_recordVote hbanned with hold | ⟨rfl, previous, hprevious, hflip⟩
      · exact hban hold
      · refine hflip (hharmless.noFlip record previous hvote ?_)
        rw [recorded, counts.pending, Option.bind_some, hprevious]

theorem harmless_of_casts (casts : Casts κ σ e result)
    (h : e.Undisturbing κ σ n requestId leader) : Harmless n.coordinator requestId result := by
  cases casts with
  | message _ => exact h
  | own signed => exact h result signed

theorem validVote_congr {c' : TransactVerificationCoordinator}
    (hrecorded : c'.recorded requestId wallet = c.recorded requestId wallet)
    (heligible : wallet ∈ c'.eligibleWallets ↔ wallet ∈ c.eligibleWallets) :
    c'.ValidVote requestId wallet record ↔ c.ValidVote requestId wallet record :=
  ⟨fun h => ⟨hrecorded.symm.trans h.recorded, h.valid, heligible.mp h.eligible⟩,
    fun h => ⟨hrecorded.trans h.recorded, h.valid, heligible.mpr h.eligible⟩⟩

/-- A snapshot that keeps the voters staked. -/
theorem validVote_sync {stakes : Table String Nat}
    (h : (NodeEvent.syncOnchainStakes stakes total).Undisturbing κ σ n requestId leader) :
    (n.coordinator.syncOnchainStakes stakes total).ValidVote requestId wallet record ↔
      n.coordinator.ValidVote requestId wallet record := by
  unfold syncOnchainStakes
  by_cases hempty : stakes.entries = []
  · simp only [hempty, if_true]
    exact validVote_congr rfl Iff.rfl
  · simp only [hempty, if_false]
    have hstaked : n.coordinator.recorded requestId wallet = some record → record.vote.isValid = true →
        (wallet ∈ stakes.keys.toFinset \ n.coordinator.equivocators ↔ wallet ∈ n.coordinator.eligibleWallets) := by
      intro hr hvalid
      rw [Finset.mem_sdiff, eligibleWallets, Finset.mem_sdiff, mem_toFinset, ← AList.mem_keys, h hempty wallet record hr hvalid]
    exact ⟨fun hvote => ⟨hvote.recorded, hvote.valid, (hstaked hvote.recorded hvote.valid).mp hvote.eligible⟩,
      fun hvote => ⟨hvote.recorded, hvote.valid, (hstaked hvote.recorded hvote.valid).mpr hvote.eligible⟩⟩

theorem validVote_handle (h : e.Undisturbing κ σ n requestId leader) :
    (n.handle κ σ e).1.coordinator.ValidVote requestId wallet record ↔
      n.coordinator.ValidVote requestId wallet record := by
  have hstep := Node.handle_step κ σ n e
  generalize hn' : (n.handle κ σ e).1 = n' at hstep ⊢
  generalize (n.handle κ σ e).2 = approved at hstep
  cases hstep with
  | quiet | clear => exact validVote_congr rfl Iff.rfl
  | start canonical absent =>
    refine validVote_congr ?_ Iff.rfl
    -- a new round has no votes
    simp only [recorded, Table.lookup_insert_if]
    split
    · rename_i hid
      rw [hid, absent]
      rfl
    · rfl
  | vote casts counts coordinator _ =>
    exact validVote_recordVote counts (fun _ _ => by rw [coordinator]) (by rw [coordinator]) (harmless_of_casts casts h)
  | approve casts counts _ coordinator _ =>
    refine validVote_recordVote counts (fun _ _ => ?_) ?_ (harmless_of_casts casts h)
    · rw [coordinator]
      rfl
    · rw [coordinator]
      rfl
  | sync =>
    rw [← hn']
    exact validVote_sync h
  | sweep =>
    refine validVote_congr ?_ Iff.rfl
    simp only [recorded, cleanupTimeouts, Table.lookup_foldl_erase, if_neg h]
  | restart => exact h.elim

/-! ## What a call does to the advertised wallets -/

theorem leaderSelector_submit :
    (n.submit κ received written result).1.coordinator.leaderSelector = n.coordinator.leaderSelector := by
  have hrecord : ∀ consensus, (n.coordinator.recordVote consensus result).leaderSelector = n.coordinator.leaderSelector := by
    intro consensus
    obtain ⟨_, _, hrecord⟩ := recordVote_eq n.coordinator consensus result
    rw [hrecord]
  rcases submitResult_cases κ received n.coordinator result with
    ⟨-, r, hdropped⟩ | ⟨-, consensus, counts, hvote | ⟨-, hvote⟩⟩
  · rw [Node.submit, hdropped]
    rfl
  · obtain ⟨n', hsubmit, hcoordinator, -⟩ := submit_recorded written hvote rfl
    rw [hsubmit, hcoordinator]
    exact hrecord consensus
  · obtain ⟨n', hsubmit, hcoordinator, -⟩ := submit_recorded written hvote rfl
    rw [hsubmit, hcoordinator]
    exact hrecord consensus

theorem validatorWallet_handle (h : e.Undisturbing κ σ n requestId leader)
    (hvote : n.coordinator.ValidVote requestId wallet record) (hne : wallet ≠ walletName leader)
    (hwallet : n.coordinator.validatorWallet record.nodeId = some wallet) :
    (n.handle κ σ e).1.coordinator.validatorWallet record.nodeId = some wallet := by
  unfold validatorWallet at hwallet ⊢
  cases e with
  | startVerification now request =>
    cases hstarted : n.coordinator.startVerification κ now request with
    | error _ => simpa only [Node.handle, hstarted] using hwallet
    | ok started =>
      obtain ⟨-, rfl⟩ := startVerification_ok hstarted
      simpa only [Node.handle, hstarted] using hwallet
  | voteMessage received written source result =>
    simp only [Node.handle]
    split_ifs
    · exact hwallet
    · exact hwallet
    · rw [leaderSelector_submit]
      exact hwallet
  | selfVote received written now id vote =>
    simp only [Node.handle]
    split
    · rw [leaderSelector_submit]
      exact hwallet
    · exact hwallet
  | syncOnchainStakes stakes total =>
    simp only [Node.handle, syncOnchainStakes]
    rw [Table.lookup_mapValues]
    split <;>
    · cases hinfo : n.coordinator.leaderSelector.lookup record.nodeId with
      | none => simp [hinfo] at hwallet
      | some info => simpa [hinfo, ValidatorInfo.withStake] using hwallet
  | registerValidator validator walletPubkey =>
    simp only [Node.handle, registerValidatorWithWallet]
    split
    · exact hwallet
    · rename_i hrefused
      by_cases hpeer : record.nodeId = validator
      · -- the peer of a voter is registered again: with the same wallet, since another one would be staked
        obtain ⟨hstaked, -⟩ := Finset.mem_sdiff.mp hvote.eligible
        have hadmitted : ∃ w ∈ walletPubkey, w ∈ n.coordinator.onchainWallets :=
          not_not.mp fun hnone => hrefused ⟨⟨_, hstaked⟩, hnone⟩
        obtain ⟨w, hw, hmem⟩ := hadmitted
        obtain rfl := h wallet record hvote hne hpeer w hw hmem
        obtain rfl := Option.mem_def.mp hw
        rw [Table.lookup_insert_if, if_pos hpeer]
        cases n.coordinator.leaderSelector.lookup validator with
        | none => rfl
        | some existing => rfl
      · rw [Table.lookup_insert_if, if_neg hpeer]
        exact hwallet
  | unregisterValidator validator =>
    simp only [Node.handle, TransactVerificationCoordinator.unregisterValidator]
    cases hinfo : n.coordinator.leaderSelector.lookup validator with
    | none => exact hwallet
    | some existing =>
      simp only [Table.lookup_insert_if]
      split_ifs with hpeer
      · rw [hpeer, hinfo] at hwallet
        exact hwallet
      · exact hwallet
  | cleanupTimeouts now | clearEmitted id | signs _ _ => exact hwallet
  | restart => exact h.elim

/-! ## From the approval to the round -/

theorem dialled_handle (h : e.Undisturbing κ σ n requestId leader)
    (hdialled : Dialled σ n.coordinator requestId leader) : Dialled σ (n.handle κ σ e).1.coordinator requestId leader := by
  refine ⟨fun record hvote => hdialled.own record ((validVote_handle h).mp hvote), fun wallet record hvote hne => ?_⟩
  have hbefore := (validVote_handle h).mp hvote
  obtain ⟨hnode, hwallet⟩ := hdialled.others wallet record hbefore hne
  exact ⟨hnode, validatorWallet_handle h hbefore hne hwallet⟩

/-- The voters of the approval are still there, and can still be asked, after undisturbing calls. -/
theorem dialled_run (hdialled : Dialled σ n.coordinator requestId leader)
    (h : ∀ pre e post, events = pre ++ e :: post → e.Undisturbing κ σ (n.run κ σ pre) requestId leader) :
    Dialled σ (n.run κ σ events).coordinator requestId leader ∧
      ∀ wallet record, (n.run κ σ events).coordinator.ValidVote requestId wallet record ↔
        n.coordinator.ValidVote requestId wallet record := by
  induction events using reverseRecOn with
  | nil => exact ⟨hdialled, fun _ _ => Iff.rfl⟩
  | append_singleton events e ih =>
    obtain ⟨ihdialled, ihvotes⟩ := ih fun pre e' post hsplit => h pre e' (post ++ [e]) (by simp [hsplit])
    have hlast := h events e [] rfl
    rw [Node.run_snoc]
    exact ⟨dialled_handle hlast ihdialled, fun wallet record => (validVote_handle hlast).trans (ihvotes wallet record)⟩

theorem exists_wallet_of_recorded (h : ((Node.new σ file).run κ σ events).coordinator.recorded requestId wallet = some record) :
    ∃ w, decode 32 wallet = some w := by
  have hinvariant : ∀ id w r, ((Node.new σ file).run κ σ events).coordinator.recorded id w = some r →
      ∃ pubkey, decode 32 w = some pubkey := by
    refine Node.run_invariant (P := fun n => ∀ id w r, n.coordinator.recorded id w = some r →
      ∃ pubkey, decode 32 w = some pubkey) (A := fun _ => True) ?_ ?_ fun _ _ => trivial
    · intro id w r hr
      rw [recorded, new_pending] at hr
      cases hr
    · intro n e n' approved _ hn hstep id w r hr
      rcases recorded_step hstep hr with hold | ⟨-, -, result, casts, -, rfl, -⟩
      · exact hn id w r hold
      · cases casts with
        | message verified =>
          unfold NodeSettings.verifyVoteSignature at verified
          cases hdecode : decode 32 result.walletPubkey with
          | none => simp [hdecode] at verified
          | some pubkey => exact ⟨pubkey, rfl⟩
        | own signed =>
          obtain ⟨pubkey, -, rfl⟩ := Option.map_eq_some_iff.mp signed
          exact ⟨pubkey, decode_eq_some_iff.mpr rfl⟩
  exact hinvariant requestId wallet record h

/-! ## Who is asked, and who signs -/

section Dialled

variable (hdialled : Dialled σ c requestId leader)
  (hwallets : ∀ wallet record, c.ValidVote requestId wallet record → ∃ w, decode 32 wallet = some w)
include hdialled hwallets

theorem walletNames_peers
    (votes : List (Sigma fun _ : String => VoteRecord)) (hvotes : ∀ e ∈ votes, c.ValidVote requestId e.1 e.2) :
    ((votes.map (·.2.nodeId)).filterMap fun voter => if voter = σ.nodeId then none
      else ((c.validatorWallet voter).bind (decode 32)).map fun wallet => (wallet, voter)).map
        (fun peer => walletName peer.1) = (votes.map (·.1)).filter (· ≠ walletName leader) := by
  induction votes with
  | nil => rfl
  | cons e votes ih =>
    obtain ⟨wallet, record⟩ := e
    have hvote := hvotes _ mem_cons_self
    have ih := ih fun e he => hvotes e (mem_cons_of_mem _ he)
    by_cases hown : wallet = walletName leader
    · subst hown
      simpa [hdialled.own record hvote] using ih
    · obtain ⟨hnode, hwallet⟩ := hdialled.others wallet record hvote hown
      obtain ⟨w, hw⟩ := hwallets wallet record hvote
      have hname : walletName w = wallet := decode_eq_some_iff.mp hw
      simpa [hnode, hwallet, hw, hown, hname] using ih

theorem cosignPeers_wallets : ((c.cosignPeers σ.nodeId requestId).map fun peer => walletName peer.1).Nodup ∧
      ∀ wallet, wallet ∈ (c.cosignPeers σ.nodeId requestId).map (fun peer => walletName peer.1) ↔
        wallet ≠ walletName leader ∧ ∃ record, c.ValidVote requestId wallet record := by
  cases hpending : c.pending.lookup requestId with
  | none =>
    have hnone : ∀ wallet record, ¬ c.ValidVote requestId wallet record := by
      intro wallet record hvote
      have := hvote.recorded
      simp [recorded, hpending] at this
    simp [cosignPeers, validVoters, hpending, hnone]
  | some consensus =>
    have hvotes : ∀ e ∈ consensus.tally.votes.entries.filter fun e => e.2.vote.isValid = true ∧ e.1 ∈ c.eligibleWallets,
        c.ValidVote requestId e.1 e.2 := by
      intro e he
      obtain ⟨hmem, hcounts⟩ := mem_filter.mp he
      obtain ⟨hvalid, heligible⟩ := of_decide_eq_true hcounts
      refine ⟨?_, hvalid, heligible⟩
      rw [recorded, hpending, Option.bind_some]
      exact AList.mem_lookup_iff.mpr hmem
    have hpeers := walletNames_peers hdialled hwallets _ hvotes
    simp only [cosignPeers, validVoters, hpending, VoteTally.validVoters, hpeers]
    refine ⟨(wallets_nodup consensus.tally _).filter _, fun wallet => ?_⟩
    simp only [mem_filter, mem_map, decide_eq_true_eq, ne_eq]
    constructor
    · rintro ⟨⟨e, he, rfl⟩, hne⟩
      exact ⟨hne, e.2, hvotes e (mem_filter.mpr ⟨he.1, decide_eq_true he.2⟩)⟩
    · rintro ⟨hne, record, hvote⟩
      have hr := hvote.recorded
      rw [recorded, hpending, Option.bind_some] at hr
      exact ⟨⟨⟨wallet, record⟩, ⟨AList.mem_lookup_iff.mp hr, hvote.valid, hvote.eligible⟩, rfl⟩, hne⟩

end Dialled

/-- A check of all votes of a round. -/
theorem dialled_of_votes (hround : c.pending.lookup requestId = some consensus)
    (h : ∀ e ∈ consensus.tally.votes.entries, (e.1 = walletName leader → e.2.nodeId = σ.nodeId) ∧
      (e.1 ≠ walletName leader → e.2.nodeId ≠ σ.nodeId ∧ c.validatorWallet e.2.nodeId = some e.1)) :
    Dialled σ c requestId leader := by
  have hentry : ∀ wallet record, c.ValidVote requestId wallet record →
      (⟨wallet, record⟩ : Sigma fun _ : String => VoteRecord) ∈ consensus.tally.votes.entries := by
    intro wallet record hvote
    have hr := hvote.recorded
    rw [recorded, hround, Option.bind_some] at hr
    exact AList.mem_lookup_iff.mp hr
  exact ⟨fun record hvote => (h _ (hentry _ record hvote)).1 rfl,
    fun wallet record hvote hne => (h _ (hentry wallet record hvote)).2 hne⟩

theorem assembleTransaction_message (h : assembleTransaction κ δ message signatures = .ok tx) : tx.message = message := by
  unfold assembleTransaction at h
  split at h
  · cases h
  · split at h
    · cases h
      rfl
    · cases h

theorem runCosignRound_message {programId bridgeVault blockhash : Bytes32}
    (h : runCosignRound κ δ leader programId bridgeVault blockhash requestId kind
      params quorumWallets peers threshold send = .ok tx) :
    tx.message = CoSignPayload.message δ ⟨programId, leader, bridgeVault, blockhash, quorumWallets, params⟩ := by
  unfold runCosignRound buildSettlementMessage at h
  dsimp only at h
  split at h
  · cases h
  · rename_i message hmessage
    split at hmessage
    · cases hmessage
    · cases hmessage
      split at h
      · cases h
      · exact assembleTransaction_message h

/-- A settlement transaction carries a payload whose quorum is the leader and the wallets of the peers that are asked. -/
theorem cosignSettlementTransactTx_payload {convert : Bytes → Except String Bytes} (hleader : σ.cosignKeypair = some leader)
    (h : cosignSettlementTransactTx κ δ convert σ c approved blockhash send = .ok tx) :
    ∃ payload : CoSignPayload, tx.message = payload.message δ ∧ payload.authority = leader ∧
      payload.quorumValidators = leader :: (c.cosignPeers σ.nodeId approved.request.requestId).map Prod.fst := by
  unfold cosignSettlementTransactTx at h
  rw [hleader] at h
  dsimp only at h
  split at h
  · cases h
  · split at h
    · cases h
    · split at h
      · cases h
      · split at h
        · cases h
        · rename_i hround
          cases h
          exact ⟨_, runCosignRound_message hround, rfl, rfl⟩

theorem mem_countedWallets_iff (hsound : Sound κ σ n) (hround : n.coordinator.pending.lookup requestId = some consensus) :
    wallet ∈ n.coordinator.countedWallets (walletName leader) consensus.tally ↔
      wallet ≠ walletName leader ∧ ∃ record, n.coordinator.ValidVote requestId wallet record := by
  have hstaked : (n.coordinator.onchainStakes.lookup wallet).isSome ↔ wallet ∈ n.coordinator.onchainWallets := by
    rw [hsound.wallets, mem_toFinset, AList.lookup_isSome, AList.mem_keys]
  have hrecorded : n.coordinator.recorded requestId wallet = consensus.tally.votes.lookup wallet := by
    rw [recorded, hround, Option.bind_some]
  rw [mem_countedWallets]
  constructor
  · rintro ⟨record, hrecord, hne, hvalid, hban, hstake⟩
    exact ⟨hne, record, hrecorded.trans hrecord, hvalid, Finset.mem_sdiff.mpr ⟨hstaked.mp hstake, hban⟩⟩
  · rintro ⟨hne, record, hvote⟩
    obtain ⟨hstake, hban⟩ := Finset.mem_sdiff.mp hvote.eligible
    exact ⟨record, hrecorded.symm.trans hvote.recorded, hne, hvote.valid, hban, hstaked.mpr hstake⟩

end CoSignSetAux

open CoSignSetAux

/-- Let an approval be emitted, with the valid votes of its round from peers that advertise the wallets of the votes, and let
no call disturb the round until the node co-signs. Then the required signers of the transaction are the leader and the wallets
that the stake gate counted, each once, and its quorum passes the check of the program on every chain that the snapshot is
exact for. -/
theorem cosign_set_is_counted_set (κ : Crypto) (δ : SolanaSdk) (convert : Bytes → Except String Bytes) (σ : NodeSettings)
    (file : Option (Finset String)) (before : List NodeEvent) (e : NodeEvent) (after : List NodeEvent)
    (approved : ApprovedTransact) (leader blockhash : Bytes32) (send : CoSignNetwork) (tx : Transaction)
    (hleader : σ.cosignKeypair = some leader)
    (hemits : (((Node.new σ file).run κ σ before).handle κ σ e).2 = some approved)
    (hdialled : Dialled σ ((Node.new σ file).run κ σ (before ++ [e])).coordinator approved.request.requestId leader)
    (hundisturbed : ∀ pre e' post, after = pre ++ e' :: post →
      e'.Undisturbing κ σ ((Node.new σ file).run κ σ (before ++ [e] ++ pre)) approved.request.requestId leader)
    (htx : cosignSettlementTransactTx κ δ convert σ ((Node.new σ file).run κ σ (before ++ [e] ++ after)).coordinator approved
      blockhash send = .ok tx) :
    ∃ consensus, ((Node.new σ file).run κ σ (before ++ [e])).coordinator.pending.lookup approved.request.requestId =
        some consensus ∧
      (tx.message.signers.map walletName).Perm (walletName leader ::
        ((Node.new σ file).run κ σ (before ++ [e])).coordinator.countedWallets (walletName leader) consensus.tally) ∧
      ∃ payload : CoSignPayload, tx.message = payload.message δ ∧ ∀ s registry authorityStake,
        ExactSnapshot ((Node.new σ file).run κ σ (before ++ [e])).coordinator s registry leader authorityStake →
          verifyValidatorQuorum registry (.key leader) authorityStake
            ((quorumAccounts payload.quorumValidators).map s.accountInfo) = .ok () := by
  have hsound : Sound κ σ ((Node.new σ file).run κ σ (before ++ [e])) := sound_run file _
  obtain ⟨id, consensus, rfl, hround, -, -, hgate, -⟩ := emission hemits (Node.run_snoc ..).symm
  obtain rfl : consensus.request.requestId = id := (hsound.rounds id consensus hround).1
  simp only [Node.run_append κ σ _ (before ++ [e])] at hundisturbed htx
  obtain ⟨hdialled', hvotes⟩ := dialled_run hdialled hundisturbed
  obtain ⟨payload, hmessage, hauthority, hquorum⟩ := cosignSettlementTransactTx_payload hleader htx
  obtain ⟨hnodup, hpeers⟩ := cosignPeers_wallets hdialled' fun wallet record hvote =>
    exists_wallet_of_recorded ((hvotes wallet record).mp hvote).recorded
  -- the wallets of the peers are the wallets that were counted
  have hcounted : ∀ wallet, wallet ∈ (((((Node.new σ file).run κ σ (before ++ [e])).run κ σ after).coordinator.cosignPeers
      σ.nodeId consensus.request.requestId).map fun peer => walletName peer.1) ↔
        wallet ∈ ((Node.new σ file).run κ σ (before ++ [e])).coordinator.countedWallets (walletName leader)
          consensus.tally := by
    intro wallet
    rw [hpeers, mem_countedWallets_iff hsound hround]
    simp only [hvotes]
  refine ⟨consensus, hround, ?_, payload, hmessage, fun s registry authorityStake hexact => ?_⟩
  · have hsigners : (tx.message.signers.map walletName).Nodup := by
      rw [hmessage]
      exact (payload.nodup_signers δ).map fun _ _ => walletName_inj
    have hlisted : (walletName leader :: ((Node.new σ file).run κ σ (before ++ [e])).coordinator.countedWallets
        (walletName leader) consensus.tally).Nodup := by
      refine nodup_cons.mpr ⟨fun hmem => ?_, countedWallets_nodup _ _ _⟩
      exact ((mem_countedWallets_iff hsound hround).mp hmem).1 rfl
    refine (perm_ext_iff_of_nodup hsigners hlisted).mpr fun name => ?_
    rw [mem_cons, ← hcounted, hmessage]
    simp only [mem_map, payload.mem_signers, hauthority, hquorum, mem_cons]
    constructor
    · rintro ⟨k, rfl | rfl | ⟨peer, hpeer, rfl⟩, rfl⟩
      · exact .inl rfl
      · exact .inl rfl
      · exact .inr ⟨peer, hpeer, rfl⟩
    · rintro (rfl | ⟨peer, hpeer, rfl⟩)
      · exact ⟨leader, Or.inl rfl, rfl⟩
      · exact ⟨peer.1, Or.inr (.inr ⟨peer, hpeer, rfl⟩), rfl⟩
  · have hlist : ListsCounted ((Node.new σ file).run κ σ (before ++ [e])).coordinator leader consensus.tally
        payload.quorumValidators := by
      rw [hquorum]
      constructor
      · intro w hw
        rcases mem_cons.mp hw with rfl | hw
        · exact .inl rfl
        · obtain ⟨peer, hpeer, rfl⟩ := mem_map.mp hw
          exact .inr ((hcounted _).mp (mem_map.mpr ⟨peer, hpeer, rfl⟩))
      · intro name hname
        obtain ⟨peer, hpeer, rfl⟩ := mem_map.mp ((hcounted name).mpr hname)
        exact ⟨peer.1, mem_cons_of_mem _ (mem_map.mpr ⟨peer, hpeer, rfl⟩), rfl⟩
    rw [verifyValidatorQuorum_ok_iff, countedStake_agrees hexact hlist, ← eligibleStake_agrees hexact]
    exact (stakeQuorumMet_iff hexact.localWallet).mp hgate

namespace SettleSample

open ApprovalSample (operator cosigner absent settings)

/-- The generator of the second group of the curve: its coordinates. -/
def generatorX : Nat × Nat :=
  (10857046999023057135944570762232829481370756359578518086990519993285655852781,
    11559732032986387107991004021392285783925812861821192530917403151452391805634)

def generatorY : Nat × Nat :=
  (8495653923123431417604973247489272438418190587263600148770280649306958101930,
    4082367875863433681332203403145435568316851327593401208105741076214120093531)

/-- Three points of the curve in compressed form. -/
def proofBody : Bytes :=
  LittleEndian.ofNat 32 1 ++ LittleEndian.ofNat 32 generatorX.1 ++ LittleEndian.ofNat 32 generatorX.2 ++ LittleEndian.ofNat 32 1

/-- The same points in the form that the program reads, the first one negated. -/
def onchainProof : Bytes :=
  ([1, 21888242871839275222246405745257275088696311157297823662689037894645226208581, generatorX.2, generatorX.1,
    generatorY.2, generatorY.1, 1, 2] : List Nat).flatMap fun n => (LittleEndian.ofNat 32 n).reverse

def convert (body : Bytes) : Except String Bytes :=
  if body = proofBody then .ok onchainProof else .error "the input buffer contained invalid data"

/-- A withdrawal of one SOL. -/
def request : TransactVerificationRequest := { ApprovalSample.request with
  requestId := "transact-8b05030451c1f5fd7311c800f5c84698299e9a708f08b6b2144aa11f1ce20fa6"
  proof := 1 :: proofBody }

def payload (quorumValidators : List Bytes32) : CoSignPayload := { CoSignSample.payload with
  quorumValidators
  params := request.params onchainProof }

def messageBytes (quorumValidators : List Bytes32) : Bytes :=
  CoSignSample.serializeMessage ((payload quorumValidators).message CoSignSample.sdk)

def voteBytes (peer : NodeId) (wallet : Bytes32) : Bytes :=
  settings.voteBytes request.requestId peer .valid (walletName wallet)

def cosignerVote : Bytes := LittleEndian.ofNat 64
  0x8774483b67842807c503709895176801213599e78a10036a5fbfddfd17aef1e273b932c7332b720c11a9719df46733c0f6556da58c81b6cd6274d54b069d8ec

/-- The signatures of the wallets over the votes and the messages of the runs. -/
def signed : List (Bytes32 × Bytes × Bytes) := [ (operator, voteBytes [1] operator, LittleEndian.ofNat 64
    0xae37dcf10a0dfaeb5fac0ac1c0dd6b00d1e0e5b878e2b8067d34d488e2b9c6ea65588b7cc1cba2654f6a305ebf1ff2f5e390aa8530894c47ee807cead1cf736),
  (cosigner, voteBytes [2] cosigner, cosignerVote),
  (operator, messageBytes [operator], LittleEndian.ofNat 64
    0xaea89f66f1da088292b05707abb3e7c6359151afc63be4548ce96378a62592f708603f033c6fc5fc8154a17799ef903cd7468167d49de1b2d3a9f37a4862922),
  (operator, messageBytes [operator, cosigner], LittleEndian.ofNat 64
    0xf1a0fcf2b2ddf92ca64ef4180cb7cc148053a994f6ed8961f776befc093f3aa7025bdc6d149dc4c28cfd7676ad467fbf626a994edcc7ae5bb139c62542330d6),
  (cosigner, messageBytes [operator, cosigner], LittleEndian.ofNat 64
    0xad56b65d3f42daa6a7ca98d17e389d4cad26786e9890d2865f5c11714a94ae6a5dc7244587a8698108fac84801f467ae69fde0bf444f625ef6b1c94dea669a8)]

/-- SHA-256 and the signatures on the values that the runs ask for. -/
def crypto : Crypto where
  sha256 bytes := if bytes = request.canonicalBytes then
      LittleEndian.vec 32 0xa60fe21c1fa14a14b2b6088f709a9e299846c8f500c81173fdf5c1510403058b
    else zero32
  signMessage wallet bytes := ((signed.find? fun e => e.1 = wallet ∧ e.2.1 = bytes).map (·.2.2)).getD []
  verify wallet signature bytes := (wallet, bytes, signature) ∈ signed

def opening : List NodeEvent :=
  [.registerValidator [1] (some (walletName operator)), .registerValidator [2] (some (walletName cosigner)),
    .registerValidator [3] (some (walletName absent)),
    .syncOnchainStakes ((((∅ : Table String Nat).insert (walletName operator) 1).insert (walletName cosigner) 5).insert
      (walletName absent) 1) 7,
    .startVerification 1700000001 request, .selfVote true .done 1700000002 request.requestId .valid]

def vote : NodeEvent :=
  .voteMessage true .done [2] ⟨request.requestId, [2], .valid, 1700000003, walletName cosigner, cosignerVote⟩

/-- The node after the approval and some more calls. -/
def nodeAfter (after : List NodeEvent) : Node := (Node.new settings none).run crypto settings (opening ++ [vote] ++ after)

def answers : CoSignNetwork := fun _ peer r => if peer = [2] then
    some ⟨r.requestId, walletName cosigner, some (crypto.signMessage cosigner (messageBytes [operator, cosigner]))⟩
  else none

def settle (after : List NodeEvent) (send : CoSignNetwork) : Except String Transaction :=
  cosignSettlementTransactTx crypto CoSignSample.sdk convert settings (nodeAfter after).coordinator ⟨request⟩
    (.replicate 32 9) send

theorem vote_approves :
    (((Node.new settings none).run crypto settings opening).handle crypto settings vote).2 = some ⟨request⟩ := by
  decide +kernel

theorem vote_counted : ∃ consensus ∈ (nodeAfter []).coordinator.pending.lookup request.requestId,
    (nodeAfter []).coordinator.countedWallets (walletName operator) consensus.tally = [walletName cosigner] ∧
    ∀ e ∈ consensus.tally.votes.entries, (e.1 = walletName operator → e.2.nodeId = [1]) ∧
      (e.1 ≠ walletName operator → e.2.nodeId ≠ [1] ∧
        (nodeAfter []).coordinator.validatorWallet e.2.nodeId = some e.1) := by
  decide +kernel

end SettleSample

open SettleSample
open ApprovalSample (operator cosigner settings)

/-- The connection of the cosigner drops after its vote: it is still asked, and both sign. -/
theorem cosign_set_is_counted_set_flap : ∃ tx, SettleSample.settle [.unregisterValidator [2]] SettleSample.answers = .ok tx ∧
      (tx.message.signers.map walletName).Perm [walletName ApprovalSample.operator, walletName ApprovalSample.cosigner] := by
  have hsettled : ∃ tx ∈ (SettleSample.settle [.unregisterValidator [2]] answers).toOption,
      tx.signatures.length = 2 := by decide +kernel
  obtain ⟨consensus, hround, hwallets, hvotes⟩ := vote_counted
  obtain ⟨tx, htx, -⟩ := hsettled
  have hok := Checked.toOption_eq_some_iff.mp htx
  have hdialled : Dialled settings (nodeAfter []).coordinator request.requestId
      operator := dialled_of_votes hround hvotes
  have hnode : nodeAfter [] = (Node.new settings none).run crypto settings (opening ++ [vote]) := by
    rw [nodeAfter, append_nil]
  rw [hnode] at hround hwallets hdialled
  obtain ⟨consensus', hround', hperm, -⟩ := cosign_set_is_counted_set crypto CoSignSample.sdk
    convert settings none opening vote [.unregisterValidator [2]]
    ⟨request⟩ operator (.replicate 32 9) answers tx rfl vote_approves hdialled
    (fun pre e' post hsplit => by
      obtain ⟨rfl, rfl, rfl⟩ : pre = [] ∧ e' = .unregisterValidator [2] ∧ post = [] := by
        cases pre with
        | nil => simpa [eq_comm] using hsplit
        | cons x pre => simp at hsplit
      trivial) hok
  obtain rfl := Option.some.inj (hround'.symm.trans hround)
  rw [hwallets] at hperm
  exact ⟨tx, hok, hperm⟩

/-- When the sweep has removed the round before the settlement, the leader is the only signer, although the gate had counted
the cosigner. -/
theorem swept_round_signed_alone :
    (((Node.new ApprovalSample.settings none).run SettleSample.crypto ApprovalSample.settings SettleSample.opening).handle
        SettleSample.crypto ApprovalSample.settings SettleSample.vote).2 = some ⟨SettleSample.request⟩ ∧
      (∃ consensus ∈ (SettleSample.nodeAfter []).coordinator.pending.lookup SettleSample.request.requestId,
        (SettleSample.nodeAfter []).coordinator.countedWallets (walletName ApprovalSample.operator) consensus.tally =
          [walletName ApprovalSample.cosigner]) ∧
      ∃ tx ∈ (SettleSample.settle [.cleanupTimeouts 1700000060] fun _ _ _ => none).toOption,
        tx.message.signers.map walletName = [walletName ApprovalSample.operator] := by
  obtain ⟨consensus, hround, hwallets, -⟩ := vote_counted
  exact ⟨vote_approves, ⟨consensus, hround, hwallets⟩, by decide +kernel⟩

end Paraloom.OffChain
