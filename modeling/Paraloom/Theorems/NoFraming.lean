import Paraloom.Theorems.ApprovalSoundness

/-!
# Nobody is framed

Whatever the peers send, a wallet is banned only if its holder has signed both ways on one request, and an approval stands on
wallets that are not banned. The record of a ban names the peer of the second vote alone, so both signatures verify against the
record only if the first vote came from the same peer.
-/

namespace Paraloom.OffChain

open TransactVerificationCoordinator ApprovalAux ConsensusAux

/-- The holder of a wallet has signed for this program and cluster that a request is valid and that it is not. -/
def Equivocated (κ : Crypto) (σ : NodeSettings) (events : List NodeEvent) (wallet : String) : Prop :=
  ∃ (key : Bytes32) (request : TransactVerificationRequest) (nodeId nodeId' : NodeId) (reason : String),
    walletName key = wallet ∧ HasSigned σ events key (σ.voteBytes (request.canonicalId κ) nodeId .valid wallet) ∧
      HasSigned σ events key (σ.voteBytes (request.canonicalId κ) nodeId' (.invalid reason) wallet)

/-- An approval at the end of some events that needs no wallet which was banned by then: others have voted, and have the
stake. -/
def NeedsNoBanned (κ : Crypto) (σ : NodeSettings) (n : Node) (events : List NodeEvent) (approved : ApprovedTransact) : Prop :=
  ∃ W : Finset String, (n.run κ σ events).coordinator.minValidatorsForConsensus ≤ W.card ∧
    (∀ w ∈ W, (∀ pre, pre <+: events → w ∉ (n.run κ σ pre).coordinator.equivocators) ∧
      ∃ nodeId signature, (n.run κ σ events).coordinator.recorded approved.request.requestId w =
        some ⟨.valid, nodeId, signature⟩) ∧
    ∀ localWallet ∈ (n.run κ σ events).coordinator.localWallet,
      quorumThreshold ((n.run κ σ events).coordinator.eligibleStake localWallet) ≤
        ∑ w ∈ W.erase localWallet, (n.run κ σ events).coordinator.onchainStake w

namespace NoFramingAux

variable {file : Option (Finset String)}

/-- A call that casts a vote of a wallet against the one that is recorded. -/
def Flips (κ : Crypto) (σ : NodeSettings) (n : Node) (e : NodeEvent) (wallet : String) : Prop :=
  ∃ result previous, Casts κ σ e result ∧ (∃ request : TransactVerificationRequest, result.requestId = request.canonicalId κ) ∧
    result.walletPubkey = wallet ∧ n.coordinator.recorded result.requestId wallet = some previous ∧
    previous.vote.isValid ≠ result.vote.isValid

theorem banned_recordVote (hcasts : Casts κ σ e result) (hcounts : Counts κ n.coordinator result consensus)
    (hbanned : wallet ∈ (n.coordinator.recordVote consensus result).equivocators) :
    wallet ∈ n.coordinator.equivocators ∨ Flips κ σ n e wallet := by
  rcases mem_equivocators_recordVote hbanned with hold | ⟨rfl, previous, hprevious, hflip⟩
  · exact .inl hold
  · refine .inr ⟨result, previous, hcasts, ⟨_, hcounts.canonical⟩, rfl, ?_, hflip⟩
    rw [recorded, hcounts.pending, Option.bind_some, hprevious]

/-- A ban in memory or in the file was there before the call, unless the call flips a vote. -/
theorem banned_step (h : NodeStep κ σ n e n' approved) (hwritten : e.written = .done)
    (hbanned : wallet ∈ n'.coordinator.equivocators ∨ wallet ∈ n'.equivocatorsFile.getD ∅) :
    (wallet ∈ n.coordinator.equivocators ∨ wallet ∈ n.equivocatorsFile.getD ∅) ∨ Flips κ σ n e wallet := by
  -- the file is as it was, or has the bans in memory
  have hmemory : BansWritten n n' e.written → wallet ∈ n'.coordinator.equivocators ∨ wallet ∈ n.equivocatorsFile.getD ∅ := by
    rintro (⟨hkept, -⟩ | hdone)
    · rwa [hkept] at hbanned
    · rw [hdone hwritten, Option.getD_some, or_self] at hbanned
      exact .inl hbanned
  cases h with
  | vote casts counts coordinator file | approve casts counts _ coordinator file =>
    rw [coordinator] at hmemory
    exact (hmemory file).elim (fun h => (banned_recordVote casts counts h).imp_left .inl) (.inl ∘ .inr)
  | restart =>
    rw [new_equivocators] at hbanned
    exact .inl (.inr (hbanned.elim id id))
  | _ => exact .inl hbanned

theorem HasSigned.append (h : HasSigned σ events key message) (rest : List NodeEvent) :
    HasSigned σ (events ++ rest) key message := by
  obtain ⟨e, he, hsigns⟩ := h
  exact ⟨e, List.mem_append_left _ he, hsigns⟩

/-- A wallet whose vote is flipped: its holder has signed both. -/
theorem equivocated_of_flips (hunforgeable : Unforgeable κ σ (events ++ [e]))
    (h : Flips κ σ ((Node.new σ file).run κ σ events) e wallet) : Equivocated κ σ (events ++ [e]) wallet := by
  obtain ⟨result, previous, hcasts, ⟨request, hrequest⟩, rfl, hrecorded, hflip⟩ := h
  obtain ⟨key, hkey, hnew⟩ := signed_of_casts hcasts hunforgeable
  obtain ⟨pre, e', post, rfl, -, -, ⟨key', hkey', hold⟩, -⟩ :=
    firstRecorded_of_recorded file (Unforgeable.of_append hunforgeable) hrecorded
  obtain rfl : key' = key := walletName_inj (hkey'.trans hkey.symm)
  have hold := HasSigned.append hold (post ++ [e])
  rw [List.append_assoc, List.singleton_append, ← List.cons_append, ← List.append_assoc, hrequest] at hold
  rw [hrequest] at hnew
  cases hvote : result.vote with
  | valid =>
    cases hprevious : previous.vote with
    | valid => simp [hvote, hprevious] at hflip
    | invalid reason =>
      rw [hvote] at hnew
      rw [hprevious] at hold
      exact ⟨key', request, _, _, reason, hkey, hnew, hold⟩
  | invalid reason =>
    cases hprevious : previous.vote with
    | valid =>
      rw [hvote] at hnew
      rw [hprevious] at hold
      exact ⟨key', request, _, _, reason, hkey, hold, hnew⟩
    | invalid reason' => simp [hvote, hprevious, VerificationVote.isValid] at hflip

/-- Every ban of a run, in memory or in the file, was there at the start or is of a wallet that has signed both ways. -/
theorem banned_run (hunforgeable : Unforgeable κ σ events) (hwritten : ∀ e ∈ events, e.written = .done)
    (hbanned : wallet ∈ ((Node.new σ file).run κ σ events).coordinator.equivocators ∨
      wallet ∈ ((Node.new σ file).run κ σ events).equivocatorsFile.getD ∅) :
    wallet ∈ file.getD ∅ ∨ Equivocated κ σ events wallet := by
  induction events using List.reverseRecOn with
  | nil =>
    rw [Node.run_nil, new_equivocators] at hbanned
    exact .inl (hbanned.elim id id)
  | append_singleton events e ih =>
    rw [Node.run_snoc] at hbanned
    rcases banned_step (Node.handle_step κ σ _ e) (hwritten e (by simp)) hbanned with hold | hflips
    · refine (ih (Unforgeable.of_append hunforgeable) (fun e' he' => hwritten e' (by simp [he'])) hold).imp_right ?_
      rintro ⟨key, request, nodeId, nodeId', reason, hkey, hvalid, hinvalid⟩
      exact ⟨key, request, nodeId, nodeId', reason, hkey, HasSigned.append hvalid _, HasSigned.append hinvalid _⟩
    · exact .inr (equivocated_of_flips hunforgeable hflips)

end NoFramingAux

/-- In every run in which signatures are not forged and the bans are written: a wallet that is banned, and was not when the node
started first, has signed both ways on one request, and an approval needs no wallet that was banned before. -/
theorem nobody_framed {κ : Crypto} {σ : NodeSettings} (file : Option (Finset String)) {events : List NodeEvent}
    (hunforgeable : Unforgeable κ σ events) (hwritten : ∀ e ∈ events, e.written = .done) :
    (∀ wallet ∈ ((Node.new σ file).run κ σ events).coordinator.equivocators,
      wallet ∈ file.getD ∅ ∨ Equivocated κ σ events wallet) ∧
    ∀ pre e post approved, events = pre ++ e :: post →
      (((Node.new σ file).run κ σ pre).handle κ σ e).2 = some approved →
        NeedsNoBanned κ σ (.new σ file) (pre ++ [e]) approved := by
  refine ⟨fun wallet hbanned => NoFramingAux.banned_run hunforgeable hwritten (.inl hbanned), ?_⟩
  rintro pre e post approved rfl hemits
  have hpart : ∀ e' ∈ pre ++ [e], e'.written = .done := by
    intro e' he'
    refine hwritten e' ?_
    rw [List.append_cons]
    exact List.mem_append_left _ he'
  obtain ⟨-, W, hcard, hvoters, hstake⟩ := emission_voters hpart hemits rfl
  exact ⟨W, hcard, fun w hw => (hvoters w hw).2, hstake⟩

namespace FramingSample

open ApprovalSample

/-- The operator signs whatever it votes. -/
def anyVote : Crypto := { crypto with signMessage := fun _ _ => operatorSignature }

/-- One vote suffices. -/
def lone : NodeSettings := { settings with consensusThresholds := some (1, 3) }

/-- The operator votes both ways, restarts and opens the round again. -/
def flipped : List NodeEvent := opening evenStakes 2000000000 ++
  [.selfVote true .done 1700000003 request.requestId (.invalid "self-verify"), .restart,
    .registerValidator [2] (some (walletName cosigner)), .syncOnchainStakes evenStakes 2000000000, .startVerification 1700000004 request]

end FramingSample

open ApprovalSample FramingSample in
/-- The operator has signed both ways and is banned, and the vote of the cosigner suffices for the request. -/
theorem nobody_framed_flipped : Equivocated anyVote lone (flipped ++ [vote]) (walletName operator) ∧
    NeedsNoBanned anyVote lone (.new lone none) (flipped ++ [vote]) ⟨request⟩ := by
  have hunforgeable : Unforgeable anyVote lone (flipped ++ [vote]) :=
    unforgeable_snoc rfl lone (by simp [flipped, opening]) (by simp [flipped, opening])
  have h := nobody_framed none hunforgeable (by simp [flipped, opening, vote, NodeEvent.written])
  refine ⟨(h.1 _ ?_).resolve_left (by simp), h.2 flipped vote [] _ rfl ?_⟩
  · decide +kernel
  · decide +kernel

/-! ## The evidence -/

/-- The signatures of the evidence verify over the two votes, as votes of the validator that the record names. -/
def Equivocation.standsAlone (κ : Crypto) (σ : NodeSettings) (validator : NodeId) (evidence : Equivocation) : Bool :=
  σ.verifyVoteSignature κ ⟨evidence.requestId, validator, evidence.previousVote, 0, evidence.walletPubkey,
    evidence.previousSignature⟩ &&
  σ.verifyVoteSignature κ ⟨evidence.requestId, validator, evidence.newVote, 0, evidence.walletPubkey, evidence.newSignature⟩

/-- The vote that a call hands to the coordinator. -/
def NodeEvent.cast (κ : Crypto) (σ : NodeSettings) : NodeEvent → Option TransactVerificationResult
  | .voteMessage _ _ source result => if result.validator = source ∧ σ.verifyVoteSignature κ result then some result else none
  | .selfVote _ _ now requestId vote => σ.signedVote κ now requestId vote
  | _ => none

/-- A vote against the recorded one of its wallet always comes from the peer of that one. -/
def Node.flipsInPlace (κ : Crypto) (σ : NodeSettings) (n : Node) : List NodeEvent → Bool
  | [] => true
  | e :: events =>
    decide (∀ result ∈ e.cast κ σ, ∀ previous ∈ n.coordinator.recorded result.requestId result.walletPubkey,
      previous.vote.isValid ≠ result.vote.isValid → previous.nodeId = result.validator) &&
    (n.handle κ σ e).1.flipsInPlace κ σ events

namespace NoFramingAux

/-- What holds of the votes and the evidence of a node. -/
structure Evidenced (κ : Crypto) (σ : NodeSettings) (n : Node) : Prop where
  ids : ∀ id consensus, n.coordinator.pending.lookup id = some consensus → consensus.tally.requestId = id
  votes : ∀ id wallet record, n.coordinator.recorded id wallet = some record →
    σ.verifyVoteSignature κ ⟨id, record.nodeId, record.vote, 0, wallet, record.signature⟩ = true
  tracked : ∀ record ∈ n.coordinator.slashingTracker, record.2.standsAlone κ σ record.1 = true

theorem evidenced_new (σ : NodeSettings) (file : Option (Finset String)) : Evidenced κ σ (.new σ file) := by
  refine ⟨?_, ?_, ?_⟩
  · simp
  · simp [recorded]
  · obtain ⟨_, _, hnew⟩ := coordinator_eq (σ := σ) (file.getD ∅)
    rw [Node.new, hnew]
    intro record hrecord
    cases hrecord

/-- A vote adds at most one record, of a recorded vote and itself. -/
theorem tracked_recordVote {c : TransactVerificationCoordinator} {consensus : TransactConsensus}
    {result : TransactVerificationResult} (h : record ∈ (c.recordVote consensus result).slashingTracker) :
    record ∈ c.slashingTracker ∨ ∃ previous, consensus.tally.votes.lookup result.walletPubkey = some previous ∧
      previous.vote.isValid ≠ result.vote.isValid ∧ record = (result.validator, ⟨consensus.tally.requestId,
        result.walletPubkey, previous.vote, result.vote, previous.signature, result.signature⟩) := by
  unfold recordVote VoteTally.submitVote at h
  cases hprevious : consensus.tally.votes.lookup result.walletPubkey with
  | none => exact .inl (by simpa [hprevious] using h)
  | some previous =>
    by_cases hsame : previous.vote.isValid = result.vote.isValid
    · exact .inl (by simpa [-VerificationVote.isValid_iff, hprevious, hsame] using h)
    · simp only [hprevious, if_neg hsame, List.mem_append, List.mem_singleton] at h
      exact h.imp_right fun hrecord => ⟨previous, rfl, hsame, hrecord⟩

variable {κ : Crypto} {σ : NodeSettings}
  (hsigns : ∀ key ∈ σ.cosignKeypair, ∀ message, signatureIsValid κ key (κ.signMessage key message) message = true)

include hsigns

theorem verified_of_casts {e : NodeEvent} (h : Casts κ σ e result) :
    σ.verifyVoteSignature κ result = true ∧ e.cast κ σ = some result := by
  cases h with
  | message verified => exact ⟨verified, if_pos ⟨rfl, verified⟩⟩
  | own signed =>
    refine ⟨?_, signed⟩
    simp only [NodeSettings.signedVote, Option.map_eq_some_iff] at signed
    obtain ⟨key, hkey, rfl⟩ := signed
    have hdecode : Base58.decode 32 (walletName key) = some key := Base58.decode_eq_some_iff.mpr rfl
    simp only [NodeSettings.verifyVoteSignature, hdecode]
    exact hsigns key hkey _

theorem evidenced_step {e : NodeEvent} (hs : Evidenced κ σ n)
    (hplace : ∀ result ∈ e.cast κ σ, ∀ previous ∈ n.coordinator.recorded result.requestId result.walletPubkey,
      previous.vote.isValid ≠ result.vote.isValid → previous.nodeId = result.validator)
    (h : NodeStep κ σ n e n' approved) : Evidenced κ σ n' := by
  have hvotes : ∀ id wallet record, n'.coordinator.recorded id wallet = some record →
      σ.verifyVoteSignature κ ⟨id, record.nodeId, record.vote, 0, wallet, record.signature⟩ = true := by
    intro id wallet record hrecorded
    rcases recorded_step h hrecorded with hold | ⟨-, -, result, hcasts, rfl, rfl, rfl⟩
    · exact hs.votes id wallet record hold
    · exact (verified_of_casts hsigns hcasts).1
  cases h with
  | quiet | sync | clear => exact ⟨hs.ids, hvotes, hs.tracked⟩
  | start canonical absent =>
    refine ⟨fun id consensus hpending => ?_, hvotes, hs.tracked⟩
    rcases Table.lookup_insert_eq_some.mp hpending with ⟨rfl, rfl⟩ | ⟨-, hold⟩
    · rfl
    · exact hs.ids id consensus hold
  | @vote e n' result consensus casts counts coordinator _ | @approve e n' result consensus casts counts _ coordinator _ =>
    obtain ⟨hverified, hcast⟩ := verified_of_casts hsigns casts
    have hid := hs.ids _ _ counts.pending
    refine ⟨fun id round hround => ?_, hvotes, fun record hrecord => ?_⟩
    · simp only [coordinator, recordVote_pending] at hround
      rcases Table.lookup_insert_eq_some.mp hround with ⟨rfl, rfl⟩ | ⟨-, hold⟩
      · exact (votedTally_frame consensus result).2.trans hid
      · exact hs.ids id round hold
    · rw [coordinator] at hrecord
      rcases tracked_recordVote hrecord with hold | ⟨previous, hprevious, hflip, rfl⟩
      · exact hs.tracked record hold
      · -- the recorded vote was verified for its own peer, which is the peer of this vote
        have hrecorded : n.coordinator.recorded result.requestId result.walletPubkey = some previous := by
          rw [recorded, counts.pending, Option.bind_some, hprevious]
        have hvote := hs.votes _ _ _ hrecorded
        rw [hplace result hcast previous hrecorded hflip] at hvote
        rw [Equivocation.standsAlone, Bool.and_eq_true, hid]
        exact ⟨hvote, hverified⟩
  | sweep =>
    refine ⟨fun id consensus hpending => ?_, hvotes, hs.tracked⟩
    simp only [cleanupTimeouts, Table.lookup_foldl_erase] at hpending
    split at hpending
    · cases hpending
    · exact hs.ids id consensus hpending
  | restart => exact evidenced_new σ _

theorem evidenced_run (hs : Evidenced κ σ n) (hplace : n.flipsInPlace κ σ events = true) :
    Evidenced κ σ (n.run κ σ events) := by
  induction events generalizing n with
  | nil => exact hs
  | cons e events ih =>
    rw [Node.flipsInPlace, Bool.and_eq_true, decide_eq_true_eq] at hplace
    exact ih (evidenced_step hsigns hs hplace.1 (Node.handle_step κ σ n e)) hplace.2

end NoFramingAux

/-- In every run in which a wallet votes against its recorded vote from the peer of that vote only, every record of the slashing
tracker is verified by its own fields. The node's own signatures verify. -/
theorem evidence_stands_alone {κ : Crypto} {σ : NodeSettings} (file : Option (Finset String)) {events : List NodeEvent}
    (hsigns : ∀ key ∈ σ.cosignKeypair, ∀ message, signatureIsValid κ key (κ.signMessage key message) message = true)
    (hplace : (Node.new σ file).flipsInPlace κ σ events = true) :
    ∀ record ∈ ((Node.new σ file).run κ σ events).coordinator.slashingTracker, record.2.standsAlone κ σ record.1 = true :=
  (NoFramingAux.evidenced_run hsigns (NoFramingAux.evidenced_new σ file) hplace).tracked

namespace FramingSample

open ApprovalSample

/-- One signature for everything. -/
def oneSignature : Crypto := { anyVote with verify := fun _ signature _ => signature = operatorSignature }

/-- The signatures of the cosigner over its vote from one peer, and over the opposite vote from another. -/
def twoPeers : Crypto := { crypto with
  verify := fun _ signature bytes => signature = cosignerSignature ∧ bytes = message [2] cosigner ∨
    signature = operatorSignature ∧ bytes = settings.voteBytes request.requestId [3] (.invalid "") (walletName cosigner) }

end FramingSample

open ApprovalSample FramingSample in
/-- The operator votes both ways from its own node. -/
theorem evidence_stands_alone_own :
    ∃ record ∈ ((Node.new lone none).run oneSignature lone (flipped.take 7)).coordinator.slashingTracker,
      record.2.standsAlone oneSignature lone record.1 = true := by
  have hsome : ((Node.new lone none).run oneSignature lone (flipped.take 7)).coordinator.slashingTracker ≠ [] := by
    decide +kernel
  obtain ⟨record, hrecord⟩ := List.exists_mem_of_ne_nil _ hsome
  exact ⟨record, hrecord, evidence_stands_alone none (fun _ _ _ => rfl) (by decide +kernel) record hrecord⟩

open ApprovalSample FramingSample in
/-- The cosigner votes valid from one peer and then invalid from another: the first signature does not verify for the second. -/
theorem evidence_lacks_first_peer : ∃ record ∈ ((Node.new settings none).run twoPeers settings (opening evenStakes 2000000000 ++
      [vote, .voteMessage true .done [3]
        ⟨request.requestId, [3], .invalid "", 1700000004, walletName cosigner, operatorSignature⟩])).coordinator.slashingTracker,
    record.2.standsAlone twoPeers settings record.1 = false := by
  decide +kernel

end Paraloom.OffChain
