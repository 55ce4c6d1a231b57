import Paraloom.Lemmas.Consensus

/-!
# What an approval stands on

Whoever sends votes to the node, an approval leaves it only for a request under its canonical id, when enough staked wallets
that were never banned have signed a valid vote as their first of the round, with the stake that the program asks for.
-/

namespace Paraloom.OffChain

open TransactVerificationCoordinator List LittleEndian

/-! ## Signatures -/

/-- The holder of a key signs a message: elsewhere, or the node its own vote. -/
def NodeEvent.Signs (σ : NodeSettings) (wallet : Bytes32) (message : Bytes) : NodeEvent → Prop
  | .signs wallet' message' => wallet' = wallet ∧ message' = message
  | .selfVote _ _ _ requestId vote =>
    σ.cosignKeypair = some wallet ∧ message = σ.voteBytes requestId σ.nodeId vote (walletName wallet)
  | _ => False

/-- The holder of a key has signed a message. -/
def HasSigned (σ : NodeSettings) (events : List NodeEvent) (wallet : Bytes32) (message : Bytes) : Prop :=
  ∃ e ∈ events, e.Signs σ wallet message

/-- Signatures cannot be forged: one that verifies in a message was made by the holder of the key before. -/
def Unforgeable (κ : Crypto) (σ : NodeSettings) (events : List NodeEvent) : Prop :=
  ∀ pre received written source result post, events = pre ++ .voteMessage received written source result :: post →
    ∀ wallet message, signatureIsValid κ wallet result.signature message = true → HasSigned σ pre wallet message

/-! ## Votes of a round -/

/-- The vote of a wallet in the open round of a request is the first that was recorded: there was none in this round when it was
cast and signed, and it stands since. -/
def FirstRecorded (κ : Crypto) (σ : NodeSettings) (n : Node) (events : List NodeEvent) (requestId wallet : String)
    (record : VoteRecord) : Prop :=
  ∃ pre e post, events = pre ++ e :: post ∧
    ((n.run κ σ pre).coordinator.pending.lookup requestId).isSome ∧
    (n.run κ σ pre).coordinator.recorded requestId wallet = none ∧
    (∃ key, walletName key = wallet ∧
      HasSigned σ (pre ++ [e]) key (σ.voteBytes requestId record.nodeId record.vote wallet)) ∧
    ∀ mid, mid <+: post → (n.run κ σ (pre ++ e :: mid)).coordinator.recorded requestId wallet = some record

/-- What an approval stands on, at the end of the events that led to it. -/
structure Approval (κ : Crypto) (σ : NodeSettings) (n : Node) (events : List NodeEvent) (localWallet : String)
    (approved : ApprovedTransact) : Prop where
  canonical : approved.request.requestId = approved.request.canonicalId κ
  voters : ∃ W : Finset String, (n.run κ σ events).coordinator.minValidatorsForConsensus ≤ W.card ∧
    (∀ w ∈ W, w ∈ (n.run κ σ events).coordinator.onchainWallets ∧
      (∀ pre, pre <+: events → w ∉ (n.run κ σ pre).coordinator.equivocators) ∧
      ∃ nodeId signature, FirstRecorded κ σ n events approved.request.requestId w ⟨.valid, nodeId, signature⟩) ∧
    2 * (n.run κ σ events).coordinator.eligibleStake localWallet / 3 + 1 ≤
      ∑ w ∈ W.erase localWallet, (n.run κ σ events).coordinator.onchainStake w

/-- A call that lets a request be approved again: its mark is cleared, its round times out, or the node restarts. -/
def NodeEvent.Releases (n : Node) (requestId : String) : NodeEvent → Prop
  | .clearEmitted id => id = requestId
  | .cleanupTimeouts now => requestId ∈ n.coordinator.timedOut now
  | .restart => True
  | _ => False

/-- The eligible stake of a snapshot can be doubled in 64 bits, up to one. -/
def NodeEvent.StakesFit (localWallet : String) : NodeEvent → Prop
  | .syncOnchainStakes stakes total => Checked.satSub total ((stakes.lookup localWallet).getD 0) ≤ 2 ^ 63
  | _ => True

namespace ApprovalAux

open ConsensusAux

variable {n n' : Node}

variable {c : TransactVerificationCoordinator} {localWallet : String}


/-! ## One call -/

/-- The votes of the rounds after a vote. -/
theorem recorded_recordVote (hpending : c.pending.lookup result.requestId = some consensus)
    (hr : (c.recordVote consensus result).recorded requestId wallet = some record) :
    c.recorded requestId wallet = some record ∨
      (c.pending.lookup requestId).isSome ∧ c.recorded requestId wallet = none ∧ result.requestId = requestId ∧
        result.walletPubkey = wallet ∧ record = ⟨result.vote, result.validator, result.signature⟩ := by
  simp only [recorded, recordVote_pending, Table.lookup_insert_if] at hr ⊢
  split at hr
  · rename_i hid
    subst hid
    simp only [hpending, Option.bind_some, Option.isSome_some, true_and] at hr ⊢
    rcases lookup_votedTally consensus result wallet with hsame | ⟨hnone, rfl, hnew⟩
    · exact .inl (hsame.symm.trans hr)
    · rw [hnew, Option.some.injEq] at hr
      exact .inr ⟨hnone, rfl, hr.symm⟩
  · exact .inl hr

/-- A vote that is recorded after a call was recorded before, or the call cast it into an open round in which the wallet had
none. -/
theorem recorded_step (h : NodeStep κ σ n e n' approved) (hr : n'.coordinator.recorded requestId wallet = some record) :
    n.coordinator.recorded requestId wallet = some record ∨
      (n.coordinator.pending.lookup requestId).isSome ∧ n.coordinator.recorded requestId wallet = none ∧
        ∃ result, Casts κ σ e result ∧ result.requestId = requestId ∧ result.walletPubkey = wallet ∧
          record = ⟨result.vote, result.validator, result.signature⟩ := by
  cases h with
  | quiet | sync | clear => exact .inl hr
  | start canonical absent =>
    -- a new round has no votes
    simp only [recorded, Table.lookup_insert_if] at hr ⊢
    split at hr
    · cases hr
    · exact .inl hr
  | vote casts counts coordinator _ | approve casts counts _ coordinator _ =>
    rw [coordinator] at hr
    rcases recorded_recordVote counts.pending hr with hold | ⟨hopen, hnone, hid, hwallet, hrecord⟩
    · exact .inl hold
    · exact .inr ⟨hopen, hnone, _, casts, hid, hwallet, hrecord⟩
  | sweep =>
    simp only [recorded, cleanupTimeouts, Table.lookup_foldl_erase] at hr ⊢
    split at hr
    · cases hr
    · exact .inl hr
  | restart =>
    rw [recorded, new_pending] at hr
    cases hr

/-- What holds of the rounds and the snapshot of a node. -/
structure Sound (κ : Crypto) (σ : NodeSettings) (n : Node) : Prop where
  rounds : ∀ id consensus, n.coordinator.pending.lookup id = some consensus → consensus.request.requestId = id ∧
    id = consensus.request.canonicalId κ ∧
    consensus.tally.minValidatorsForConsensus = n.coordinator.minValidatorsForConsensus
  wallets : n.coordinator.onchainWallets = n.coordinator.onchainStakes.keys.toFinset
  localWallet : n.coordinator.localWallet = σ.cosignKeypair.map walletName

theorem sound_new (κ : Crypto) (σ : NodeSettings) (file : Option (Finset String)) : Sound κ σ (.new σ file) := by
  constructor
  · intro id consensus hpending
    rw [new_pending] at hpending
    cases hpending
  · rw [new_onchainWallets, new_onchainStakes]
    rfl
  · exact new_localWallet σ file

theorem Sound.recordVote (hs : Sound κ σ n) (counts : Counts κ n.coordinator result consensus) {emitted : Finset String}
    (h : n'.coordinator = { n.coordinator.recordVote consensus result with emitted := emitted }) : Sound κ σ n' := by
  constructor
  · intro id consensus' hpending
    rw [h] at hpending ⊢
    simp only [recordVote_pending, recordVote_minValidatorsForConsensus] at hpending ⊢
    rcases Table.lookup_insert_eq_some.mp hpending with ⟨hid, rfl⟩ | ⟨-, hpending⟩
    · obtain ⟨hrequest, hcanonical, hmin⟩ := hs.rounds _ consensus counts.pending
      exact ⟨hrequest.trans hid.symm, hid.trans hcanonical, (votedTally_frame consensus result).1.trans hmin⟩
    · exact hs.rounds id consensus' hpending
  · rw [h]
    simpa using hs.wallets
  · rw [h]
    simpa using hs.localWallet

theorem Sound.step (hs : Sound κ σ n) (h : NodeStep κ σ n e n' approved) : Sound κ σ n' := by
  cases h with
  | quiet | clear => exact ⟨hs.rounds, hs.wallets, hs.localWallet⟩
  | start canonical absent =>
    refine ⟨fun id consensus hpending => ?_, hs.wallets, hs.localWallet⟩
    rcases Table.lookup_insert_eq_some.mp hpending with ⟨hid, rfl⟩ | ⟨-, hpending⟩
    · exact ⟨hid.symm, hid.trans canonical, rfl⟩
    · exact hs.rounds id consensus hpending
  | vote _ counts coordinator _ | approve _ counts _ coordinator _ => exact hs.recordVote counts coordinator
  | sync => exact ⟨hs.rounds, rfl, hs.localWallet⟩
  | sweep =>
    refine ⟨fun id consensus hpending => ?_, hs.wallets, hs.localWallet⟩
    simp only [cleanupTimeouts, Table.lookup_foldl_erase] at hpending
    split at hpending
    · cases hpending
    · exact hs.rounds id consensus hpending
  | restart => exact sound_new κ σ n.equivocatorsFile

/-- A banned wallet stays banned, and the file has the banned wallets, as long as the writes are done. -/
theorem bans_step (h : NodeStep κ σ n e n' approved) (hwritten : e.written = .done)
    (hfile : n.coordinator.equivocators ⊆ n.equivocatorsFile.getD ∅) :
    n.coordinator.equivocators ⊆ n'.coordinator.equivocators ∧
      n'.coordinator.equivocators ⊆ n'.equivocatorsFile.getD ∅ := by
  have hvote : ∀ {result : TransactVerificationResult} {consensus : TransactConsensus},
      n'.coordinator.equivocators = (n.coordinator.recordVote consensus result).equivocators → BansWritten n n' e.written →
        n.coordinator.equivocators ⊆ n'.coordinator.equivocators ∧
          n'.coordinator.equivocators ⊆ n'.equivocatorsFile.getD ∅ := by
    intro result consensus hequivocators hbans
    refine ⟨hequivocators ▸ (recordVote_equivocators n.coordinator consensus result).1, ?_⟩
    rcases hbans with ⟨hsame, hkept⟩ | hdone
    · rw [hsame, hkept]
      exact hfile
    · rw [hdone hwritten, Option.getD_some]
  cases h with
  | vote _ _ coordinator file | approve _ _ _ coordinator file => exact hvote (by rw [coordinator]) file
  | restart =>
    rw [new_equivocators]
    exact ⟨hfile, subset_rfl⟩
  | _ => exact ⟨subset_rfl, hfile⟩

theorem eligible_new : (Node.new σ file).coordinator.eligibleStake localWallet = 0 := by
  rw [TransactVerificationCoordinator.eligibleStake, new_onchainRegistryTotal]
  exact Nat.zero_sub _

theorem eligible_recordVote : (c.recordVote consensus result).eligibleStake localWallet = c.eligibleStake localWallet := by
  simp [TransactVerificationCoordinator.eligibleStake, onchainStake]

theorem eligible_step (h : NodeStep κ σ n e n' approved) (hfits : e.StakesFit localWallet)
    (hs : n.coordinator.eligibleStake localWallet ≤ 2 ^ 63) : n'.coordinator.eligibleStake localWallet ≤ 2 ^ 63 := by
  cases h with
  | vote _ _ coordinator _ =>
    rw [coordinator, eligible_recordVote]
    exact hs
  | approve _ _ _ coordinator _ =>
    rw [coordinator]
    exact (eligible_recordVote).trans_le hs
  | sync => exact hfits
  | restart =>
    rw [eligible_new]
    exact Nat.zero_le _
  | _ => exact hs

theorem emitted_step (h : NodeStep κ σ n e n' approved) (hmark : requestId ∈ n.coordinator.emitted)
    (hkept : ¬ e.Releases n requestId) : requestId ∈ n'.coordinator.emitted := by
  cases h with
  | vote _ _ coordinator _ =>
    rw [coordinator, recordVote_emitted]
    exact hmark
  | approve _ _ _ coordinator _ =>
    rw [coordinator, recordVote_emitted]
    exact Finset.mem_insert_of_mem hmark
  | sweep =>
    simp only [cleanupTimeouts, Finset.mem_sdiff, mem_toFinset]
    exact ⟨hmark, hkept⟩
  | clear =>
    simp only [clearEmitted, Finset.mem_erase]
    exact ⟨fun hid => hkept hid.symm, hmark⟩
  | restart => exact absurd trivial hkept
  | _ => exact hmark

/-! ## Whole runs -/

theorem sound_run (file : Option (Finset String)) (events : List NodeEvent) : Sound κ σ ((Node.new σ file).run κ σ events) :=
  Node.run_invariant (A := fun _ => True) (sound_new κ σ file) (fun _ hs hstep => hs.step hstep) (fun _ _ => trivial)

theorem eligible_run (hfits : ∀ e ∈ events, e.StakesFit localWallet) :
    ((Node.new σ file).run κ σ events).coordinator.eligibleStake localWallet ≤ 2 ^ 63 := by
  refine Node.run_invariant (P := fun n => n.coordinator.eligibleStake localWallet ≤ 2 ^ 63) ?_
    (fun hfits hs hstep => eligible_step hstep hfits hs) hfits
  rw [eligible_new]
  exact Nat.zero_le _

theorem signed_of_casts (h : Casts κ σ e result) (hunforgeable : Unforgeable κ σ (events ++ [e])) :
    ∃ key, walletName key = result.walletPubkey ∧ HasSigned σ (events ++ [e]) key
      (σ.voteBytes result.requestId result.validator result.vote result.walletPubkey) := by
  cases h with
  | message verified =>
    unfold NodeSettings.verifyVoteSignature at verified
    split at verified
    · cases verified
    · rename_i key hkey
      obtain ⟨e, he, hsigns⟩ := hunforgeable events _ _ _ _ [] rfl key _ verified
      exact ⟨key, Base58.decode_eq_some_iff.mp hkey, e, mem_append_left _ he, hsigns⟩
  | own signed =>
    simp only [NodeSettings.signedVote, Option.map_eq_some_iff] at signed
    obtain ⟨key, hkey, rfl⟩ := signed
    exact ⟨key, rfl, _, mem_append_right _ (mem_singleton.mpr rfl), hkey, rfl⟩

/-- Unforgeability of a run is that of its beginnings. -/
theorem Unforgeable.of_append (h : Unforgeable κ σ (events ++ rest)) : Unforgeable κ σ events := by
  intro pre received written source result post hsplit
  refine h pre received written source result (post ++ rest) ?_
  rw [hsplit, append_assoc, cons_append]

/-- Every recorded vote is the first of its wallet in the round. -/
theorem firstRecorded_of_recorded (file : Option (Finset String)) : ∀ {events : List NodeEvent}, Unforgeable κ σ events →
    ∀ {record : VoteRecord}, ((Node.new σ file).run κ σ events).coordinator.recorded requestId wallet = some record →
      FirstRecorded κ σ (.new σ file) events requestId wallet record := by
  intro events
  induction events using reverseRecOn with
  | nil =>
    intro _ record hr
    rw [Node.run_nil, recorded, new_pending] at hr
    cases hr
  | append_singleton events e ih =>
    intro hunforgeable record hr
    have hlast := hr
    rw [Node.run_snoc] at hr
    rcases recorded_step (Node.handle_step κ σ _ e) hr with hold | ⟨hopen, hnone, result, hcasts, hid, hwallet, rfl⟩
    · -- the record was there: its history goes on by one event
      obtain ⟨pre, e', post, rfl, hopen, hnone, hsigned, hstands⟩ := ih (Unforgeable.of_append hunforgeable) hold
      refine ⟨pre, e', post ++ [e], by simp, hopen, hnone, hsigned, fun mid hmid => ?_⟩
      rcases prefix_concat_iff.mp hmid with rfl | hmid
      · rw [← cons_append, ← append_assoc]
        exact hlast
      · exact hstands mid hmid
    · -- this event cast it
      obtain ⟨key, hkey, hsigned⟩ := signed_of_casts hcasts hunforgeable
      refine ⟨events, e, [], rfl, hopen, hnone, ⟨key, hkey.trans hwallet, ?_⟩, fun mid hmid => ?_⟩
      · rwa [hid, hwallet] at hsigned
      · rw [prefix_nil.mp hmid]
        exact hlast

theorem bans_run (hwritten : ∀ e ∈ pre ++ rest, e.written = .done) : ((Node.new σ file).run κ σ pre).coordinator.equivocators ⊆
      ((Node.new σ file).run κ σ (pre ++ rest)).coordinator.equivocators := by
  induction rest using reverseRecOn with
  | nil => simp
  | append_singleton rest e ih =>
    rw [← append_assoc] at hwritten ⊢
    have hbefore : ∀ e' ∈ pre ++ rest, e'.written = .done := fun e' he' => hwritten e' (mem_append_left _ he')
    have hfile : ((Node.new σ file).run κ σ (pre ++ rest)).coordinator.equivocators ⊆
        ((Node.new σ file).run κ σ (pre ++ rest)).equivocatorsFile.getD ∅ := by
      refine Node.run_invariant (P := fun n => n.coordinator.equivocators ⊆ n.equivocatorsFile.getD ∅) ?_
        (fun hdone hs hstep => (bans_step hstep hdone hs).2) hbefore
      rw [new_equivocators]
      exact subset_rfl
    rw [Node.run_snoc]
    exact (ih hbefore).trans (bans_step (Node.handle_step κ σ _ e) (hwritten e (by simp)) hfile).1

/-! ## The approval -/

theorem approves_iff (h : c.approves requestId tally = true) :
    requestId ∉ c.emitted ∧ c.stakeQuorumMet tally = true ∧ tally.consensusResult c.eligibleWallets = .ok .valid := by
  simp only [approves, Bool.and_eq_true, decide_eq_true_eq] at h
  obtain ⟨⟨⟨⟨-, hnew⟩, -⟩, hstake⟩, hresult⟩ := h
  refine ⟨hnew, hstake, ?_⟩
  split at hresult
  · assumption
  · cases hresult

theorem countedWallets_eq (hwallets : c.onchainWallets = c.onchainStakes.keys.toFinset)
    (localWallet : String) (tally : VoteTally) : (c.countedWallets localWallet tally).toFinset =
      (tally.validWallets c.eligibleWallets).toFinset.erase localWallet := by
  ext w
  have hstaked : (c.onchainStakes.lookup w).isSome = true ↔ w ∈ c.onchainWallets := by
    rw [hwallets, mem_toFinset, ← AList.mem_keys, AList.lookup_isSome]
  simp only [mem_toFinset, Finset.mem_erase, mem_countedWallets, mem_validWallets, eligibleWallets, Finset.mem_sdiff, hstaked]
  constructor
  · rintro ⟨record, hrecord, hlocal, hvalid, hbanned, honchain⟩
    exact ⟨hlocal, ⟨honchain, hbanned⟩, record, hrecord, hvalid⟩
  · rintro ⟨hlocal, ⟨honchain, hbanned⟩, record, hrecord, hvalid⟩
    exact ⟨record, hrecord, hlocal, hvalid, hbanned, honchain⟩

theorem two_thirds_le (hfits : eligible ≤ 2 ^ 63) (h : quorumThreshold eligible ≤ counted) :
    2 * eligible / 3 + 1 ≤ counted := by
  simp only [quorumThreshold, Checked.satMul, Checked.u64Max] at h
  omega

/-- The call that emits an approval: it marks a request that was not marked, and the votes of its round and the stake behind
them suffice. -/
theorem emission (hemits : (n.handle κ σ e).2 = some request) (hn' : (n.handle κ σ e).1 = n') :
    ∃ id consensus, request = ⟨consensus.request⟩ ∧ n'.coordinator.pending.lookup id = some consensus ∧
      id ∉ n.coordinator.emitted ∧ id ∈ n'.coordinator.emitted ∧ n'.coordinator.stakeQuorumMet consensus.tally = true ∧
      consensus.tally.consensusResult n'.coordinator.eligibleWallets = .ok .valid := by
  have hstep := Node.handle_step κ σ n e
  rw [hemits, hn'] at hstep
  cases hstep with
  | @approve _ _ result consensus _ _ approves coordinator _ =>
    obtain ⟨hnew, hstake, hresult⟩ := approves_iff approves
    rw [recordVote_emitted] at hnew
    refine ⟨result.requestId, { consensus with tally := votedTally consensus result }, rfl, ?_⟩
    rw [coordinator, recordVote_pending, AList.lookup_insert]
    exact ⟨rfl, hnew, Finset.mem_insert_self _ _, hstake, hresult⟩

/-- The wallets behind an approval: enough of them, none ever banned, with their votes recorded and the stake that is asked
for. -/
theorem emission_voters (hwritten : ∀ e' ∈ events ++ [e], e'.written = .done)
    (hemits : (((Node.new σ file).run κ σ events).handle κ σ e).2 = some request)
    (hend : (Node.new σ file).run κ σ (events ++ [e]) = n') :
    request.request.requestId = request.request.canonicalId κ ∧
    ∃ W : Finset String, n'.coordinator.minValidatorsForConsensus ≤ W.card ∧
      (∀ w ∈ W, w ∈ n'.coordinator.onchainWallets ∧
        (∀ pre, pre <+: events ++ [e] → w ∉ ((Node.new σ file).run κ σ pre).coordinator.equivocators) ∧
        ∃ nodeId signature, n'.coordinator.recorded request.request.requestId w = some ⟨.valid, nodeId, signature⟩) ∧
      ∀ localWallet ∈ n'.coordinator.localWallet, quorumThreshold (n'.coordinator.eligibleStake localWallet) ≤
        ∑ w ∈ W.erase localWallet, n'.coordinator.onchainStake w := by
  have hsound := sound_run (κ := κ) (σ := σ) file (events ++ [e])
  rw [hend] at hsound
  obtain ⟨id, consensus, rfl, hround, -, -, hstake, hresult⟩ := emission hemits ((Node.run_snoc ..).symm.trans hend)
  obtain ⟨hrequest, hcanonical, hmin⟩ := hsound.rounds id consensus hround
  refine ⟨hrequest.trans hcanonical, (consensus.tally.validWallets n'.coordinator.eligibleWallets).toFinset, ?_,
    fun w hw => ?_, fun localWallet hlocal => ?_⟩
  · rw [toFinset_card_of_nodup (validWallets_nodup _ _), ← hmin]
    exact le_validWallets hresult
  · obtain ⟨heligible, record, hrecord, hvalid⟩ := mem_validWallets.mp (mem_toFinset.mp hw)
    obtain ⟨honchain, hbanned⟩ := Finset.mem_sdiff.mp heligible
    refine ⟨honchain, ?_, record.nodeId, record.signature, ?_⟩
    · rintro pre ⟨rest, hpre⟩ hmem
      have hlater := bans_run (hpre ▸ hwritten) hmem
      rw [hpre, hend] at hlater
      exact hbanned hlater
    · rw [recorded, hrequest, hround, Option.bind_some, hrecord, ← VerificationVote.isValid_iff.mp hvalid]
  · obtain ⟨-, hthreshold⟩ := (stakeQuorumMet_iff hlocal).mp hstake
    rw [countedStake_eq] at hthreshold
    rw [← countedWallets_eq hsound.wallets, sum_toFinset _ (countedWallets_nodup n'.coordinator localWallet consensus.tally)]
    exact hthreshold.trans (Nat.min_le_left _ _)

theorem approval_of_emission (hkey : σ.cosignKeypair = some key) (hunforgeable : Unforgeable κ σ (events ++ [e]))
    (hwritten : ∀ e' ∈ events ++ [e], e'.written = .done) (hfits : ∀ e' ∈ events ++ [e], e'.StakesFit (walletName key))
    (hemits : (((Node.new σ file).run κ σ events).handle κ σ e).2 = some request) :
    Approval κ σ (.new σ file) (events ++ [e]) (walletName key) request := by
  obtain ⟨hcanonical, W, hcard, hvoters, hstake⟩ := emission_voters hwritten hemits rfl
  refine ⟨hcanonical, W, hcard, fun w hw => ?_, two_thirds_le (eligible_run hfits) (hstake _ ?_)⟩
  · obtain ⟨honchain, hbanned, nodeId, signature, hrecorded⟩ := hvoters w hw
    exact ⟨honchain, hbanned, nodeId, signature, firstRecorded_of_recorded file hunforgeable hrecorded⟩
  · rw [(sound_run file _).localWallet, hkey]
    rfl

theorem emission_marks (hemits : (((Node.new σ file).run κ σ events).handle κ σ e).2 = some request) :
    request.request.requestId ∉ ((Node.new σ file).run κ σ events).coordinator.emitted ∧
      request.request.requestId ∈ ((Node.new σ file).run κ σ (events ++ [e])).coordinator.emitted := by
  obtain ⟨id, consensus, rfl, hround, hnew, hmark, -, -⟩ := emission hemits (Node.run_snoc ..).symm
  rw [((sound_run file (events ++ [e])).rounds id consensus hround).1]
  exact ⟨hnew, hmark⟩

theorem emitted_run (hmark : requestId ∈ n.coordinator.emitted)
    (hkept : ∀ pre r post, events = pre ++ r :: post → ¬ r.Releases (n.run κ σ pre) requestId) :
    requestId ∈ (n.run κ σ events).coordinator.emitted := by
  induction events using reverseRecOn with
  | nil => exact hmark
  | append_singleton events e ih =>
    rw [Node.run_snoc]
    refine emitted_step (Node.handle_step κ σ _ e) (ih fun pre r post hsplit => ?_) (hkept events e [] rfl)
    exact hkept pre r (post ++ [e]) (by rw [hsplit, append_assoc, cons_append])

end ApprovalAux

open ApprovalAux

/-- In every sequence of calls at a node with a co-sign keypair, each approval stands on enough first votes of staked wallets
that were never banned and on two thirds of the eligible stake, which is at most `2 ^ 63`, and a request is approved again only
after it was released. -/
theorem approvals_sound {κ : Crypto} {σ : NodeSettings} {key : Bytes32} (hkey : σ.cosignKeypair = some key)
    (file : Option (Finset String)) {events : List NodeEvent} (hunforgeable : Unforgeable κ σ events)
    (hwritten : ∀ e ∈ events, e.written = .done) (hfits : ∀ e ∈ events, e.StakesFit (walletName key)) :
    (∀ pre e post approved, events = pre ++ e :: post →
      (((Node.new σ file).run κ σ pre).handle κ σ e).2 = some approved →
        Approval κ σ (.new σ file) (pre ++ [e]) (walletName key) approved) ∧
    ∀ pre e mid e' post approved approved', events = pre ++ e :: (mid ++ e' :: post) →
      (((Node.new σ file).run κ σ pre).handle κ σ e).2 = some approved →
      (((Node.new σ file).run κ σ (pre ++ e :: mid)).handle κ σ e').2 = some approved' →
      approved'.request.requestId = approved.request.requestId →
        ∃ before r after, mid = before ++ r :: after ∧
          r.Releases ((Node.new σ file).run κ σ (pre ++ e :: before)) approved.request.requestId := by
  constructor
  · rintro pre e post approved rfl hemits
    rw [append_cons] at hunforgeable
    have hpart : ∀ e' ∈ pre ++ [e], e' ∈ pre ++ e :: post := by
      intro e' he'
      simp only [mem_append, mem_cons, not_mem_nil, or_false] at he' ⊢
      exact he'.imp_right Or.inl
    exact approval_of_emission hkey (Unforgeable.of_append hunforgeable)
      (fun e' he' => hwritten e' (hpart e' he')) (fun e' he' => hfits e' (hpart e' he')) hemits
  · rintro pre e mid e' post approved approved' - hemits hagain hid
    by_contra hnone
    push Not at hnone
    have hmark := (emission_marks hemits).2
    have hunmarked := (emission_marks hagain).1
    have hsplit : ∀ rest, (Node.new σ file).run κ σ (pre ++ e :: rest) =
        ((Node.new σ file).run κ σ (pre ++ [e])).run κ σ rest := by
      intro rest
      rw [append_cons, Node.run_append]
    rw [hid, hsplit] at hunmarked
    refine hunmarked (emitted_run hmark fun before r after hmid => ?_)
    rw [← hsplit]
    exact hnone before r after hmid

/-! ## Two runs -/

namespace ApprovalSample

/-- The node's own wallet. -/
def operator : Bytes32 :=
  LittleEndian.vec 32 0x5c6f0fb4018874f31b12941dbf0967ca725dba3c2ddb52fd95f10974dde3888a

def cosigner : Bytes32 :=
  LittleEndian.vec 32 0x94b3c98f5b0ff65da237eeb4918a8dcbcc7e4cc36654a3565f177da80e773981

/-- A staked wallet that does not vote. -/
def absent : Bytes32 :=
  LittleEndian.vec 32 0xd13787ac1446c13636f9635c3a275929619559903803e9eac6c2d128c62849ed

/-- A withdrawal of one SOL. -/
def request : TransactVerificationRequest where
  requestId := "transact-3c35a537557a7f712bef249c73bce3f164768c6d2dc4237c24b56974246a452d"
  recipient := .replicate 32 2
  mint := none
  nullifiers := (.replicate 32 3, .replicate 32 4)
  outputCommitments := (.replicate 32 5, .replicate 32 6)
  root := .replicate 32 1
  extAmount := -1000000000
  proof := .replicate 256 0
  ciphertexts := ("", "")
  timestamp := 1700000000

/-- Two of three validators have to agree. -/
def settings : NodeSettings where
  programId := "8gPsRSm1CAw38mfzc1bcLMUXyFN7LnS8k6CV5hPUTWrP"
  clusterTag := "mainnet-beta"
  nodeId := [1]
  cosignKeypair := some operator
  consensusThresholds := some (2, 3)

def message (peer : NodeId) (wallet : Bytes32) : Bytes := settings.voteBytes request.requestId peer .valid (walletName wallet)

def operatorSignature : Bytes := LittleEndian.ofNat 64
  0x340c7fa01b947e5c9e1e6000e012212321be1aac4f45c6407d53789fdd299f2565d3476aa8462c239c52d22a5c67ae0b48eee47caa1dbb7f287dae8af40082

def cosignerSignature : Bytes := LittleEndian.ofNat 64
  0x7511d5c98e8e3e1a5eaa7a6f1c5705f6c8cd6718649f800414223c2dc43dc310496d7443d8251d664d18dbeabf393ee00f56c256ac2c8584aaef73e1cef7695

/-- SHA-256 and the signatures on the values that the runs ask for. -/
def crypto : Crypto where
  sha256 bytes := if bytes = request.canonicalBytes then
      LittleEndian.vec 32 0x2d456a247469b5247c23c42d6d8c7664f1e3bc739c24ef2b717f7a5537a5353c
    else zero32
  signMessage wallet bytes := if wallet = operator ∧ bytes = message [1] operator then operatorSignature else []
  verify wallet signature bytes := wallet = cosigner ∧ signature = cosignerSignature ∧ bytes = message [2] cosigner

def opening (stakes : Table String Nat) (total : Nat) : List NodeEvent :=
  [.registerValidator [2] (some (walletName cosigner)), .registerValidator [3] (some (walletName absent)),
    .syncOnchainStakes stakes total, .startVerification 1700000001 request,
    .selfVote true .done 1700000002 request.requestId .valid, .signs cosigner (message [2] cosigner)]

def vote : NodeEvent :=
  .voteMessage true .done [2] ⟨request.requestId, [2], .valid, 1700000003, walletName cosigner, cosignerSignature⟩

/-- Nobody forged a signature in a run that ends with the only vote that is received. -/
theorem unforgeable_snoc (hverify : κ.verify = crypto.verify) (σ : NodeSettings)
    (hsigns : .signs cosigner (message [2] cosigner) ∈ events)
    (hnone : ∀ received written source result, .voteMessage received written source result ∉ events) :
    Unforgeable κ σ (events ++ [vote]) := by
  intro pre received written source result post hsplit wallet bytes hvalid
  rcases eq_nil_or_concat post with rfl | ⟨post', last, rfl⟩
  · -- the message is the vote of the cosigner
    obtain ⟨rfl, hvote⟩ := append_inj' hsplit rfl
    obtain ⟨rfl, -, rfl⟩ : wallet = cosigner ∧ result.signature = cosignerSignature ∧ bytes = message [2] cosigner := by
      simpa [hverify, crypto] using (Bool.and_eq_true_iff.mp hvalid).2
    exact ⟨.signs cosigner (message [2] cosigner), hsigns, rfl, rfl⟩
  · rw [concat_eq_append, ← cons_append, ← append_assoc] at hsplit
    refine absurd ?_ (hnone received written source result)
    rw [(append_inj' hsplit rfl).1]
    simp

theorem unforgeable_vote : Unforgeable crypto settings (opening stakes total ++ [vote]) :=
  unforgeable_snoc rfl settings (by simp [opening]) (by simp [opening])

theorem written_vote : ∀ e ∈ opening stakes total ++ [vote], e.written = .done := by
  simp [opening, vote, NodeEvent.written]

def evenStakes : Table String Nat :=
  ((∅ : Table String Nat).insert (walletName operator) 1000000000).insert (walletName cosigner) 1000000000

/-- An eligible stake of `2 ^ 63 + 1`, of which the cosigner holds one less than the program asks for. -/
def hugeStakes : Table String Nat :=
  (((∅ : Table String Nat).insert (walletName operator) 1).insert (walletName cosigner) 6148914691236517206).insert
    (walletName absent) 3074457345618258603

/-- The calls before the vote of the cosigner, with that snapshot. -/
def hugeOpening : List NodeEvent := opening hugeStakes (2 ^ 63 + 2)

theorem huge_end : ∃ n, (Node.new settings none).run crypto settings (hugeOpening ++ [vote]) = n ∧
    (n.coordinator.pending.lookup request.requestId).map (·.tally.votes.keys) =
      some [walletName cosigner, walletName operator] ∧
    n.coordinator.onchainStake (walletName cosigner) = 6148914691236517206 ∧
    n.coordinator.eligibleStake (walletName operator) = 2 ^ 63 + 1 :=
  ⟨_, rfl, by decide +kernel⟩

end ApprovalSample

open ApprovalSample in
/-- Two wallets of one SOL each approve the request. -/
theorem approvals_sound_two :
    Approval crypto settings (.new settings none) (opening evenStakes 2000000000 ++ [vote]) (walletName operator)
      ⟨request⟩ := by
  have hkey : settings.cosignKeypair = some operator := rfl
  have hfits : ∀ e ∈ opening evenStakes 2000000000 ++ [vote], e.StakesFit (walletName operator) := by
    have hsnapshot : Checked.satSub 2000000000 ((evenStakes.lookup (walletName operator)).getD 0) ≤ 2 ^ 63 := by
      decide +kernel
    simpa [opening, vote, NodeEvent.StakesFit] using hsnapshot
  refine (approvals_sound hkey none (unforgeable_vote) (written_vote) hfits).1 _ vote [] _ rfl ?_
  decide +kernel

open ApprovalSample in
/-- With an eligible stake above `2 ^ 63` the doubled stake clamps, and the node approves on one unit less than the program
asks for. -/
theorem approval_below_two_thirds : Unforgeable crypto settings (hugeOpening ++ [vote]) ∧
    (((Node.new settings none).run crypto settings hugeOpening).handle crypto settings vote).2 = some ⟨request⟩ ∧
    ¬ Approval crypto settings (.new settings none) (hugeOpening ++ [vote]) (walletName operator) ⟨request⟩ := by
  refine ⟨unforgeable_vote, by decide +kernel, ?_⟩
  rintro ⟨-, W, -, hvotes, hstake⟩
  obtain ⟨n, hn, hkeys, hcosigner, heligible⟩ := huge_end
  rw [hn] at hvotes hstake
  have hsub : W.erase (walletName operator) ⊆ {walletName cosigner} := by
    intro w hw
    obtain ⟨hne, hw⟩ := Finset.mem_erase.mp hw
    obtain ⟨-, -, nodeId, signature, pre, e, post, hsplit, -, -, -, hstands⟩ := hvotes w hw
    have hrecorded := hstands post (prefix_refl post)
    rw [← hsplit, hn, recorded, Option.bind_eq_some_iff] at hrecorded
    obtain ⟨consensus, hpending, hlookup⟩ := hrecorded
    rw [hpending, Option.map_some, Option.some.injEq] at hkeys
    have hkey : w ∈ consensus.tally.votes.keys := AList.mem_keys.mp (AList.lookup_isSome.mp (by rw [hlookup]; rfl))
    rw [hkeys] at hkey
    simpa [hne] using hkey
  have hsum := hstake.trans (Finset.sum_le_sum_of_subset hsub)
  rw [Finset.sum_singleton, hcosigner, heligible] at hsum
  omega

end Paraloom.OffChain
