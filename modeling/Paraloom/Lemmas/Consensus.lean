import Paraloom.OffChain.Node
import Paraloom.Quorum

/-!
# What the consensus of the node counts and changes

The stake gate counts distinct wallets and clamps the sum of their stakes. A result that is valid has enough distinct eligible
wallets behind it. A vote that is not dropped goes into the open round of its request, and the approval it may complete is of
that request.
-/

namespace Paraloom.OffChain

open TransactVerificationCoordinator List VoteTally

variable {σ : NodeSettings} {c : TransactVerificationCoordinator} {tally : VoteTally}

/-- The wallets whose stake the gate counts: those recorded with a valid vote that are staked, not banned and not the node's
own. -/
def TransactVerificationCoordinator.countedWallets (c : TransactVerificationCoordinator) (localWallet : String)
    (tally : VoteTally) : List String :=
  (tally.votes.entries.filter (c.countsStake localWallet)).map (·.1)

def VoteTally.validWallets (tally : VoteTally) (eligibleWallets : Finset String) : List String :=
  (tally.votes.entries.filter fun e => e.1 ∈ eligibleWallets ∧ e.2.vote.isValid = true).map (·.1)

namespace ConsensusAux

/-! ## Counting -/

theorem wallets_nodup (tally : VoteTally) (p : (Sigma fun _ : String => VoteRecord) → Bool) :
    ((tally.votes.entries.filter p).map (·.1)).Nodup := by
  have hkeys : tally.votes.keys.Nodup := tally.votes.keys_nodup
  rw [AList.keys, keys] at hkeys
  exact hkeys.sublist (filter_sublist.map _)

theorem countedWallets_nodup (c : TransactVerificationCoordinator) (localWallet : String) (tally : VoteTally) :
    (c.countedWallets localWallet tally).Nodup :=
  wallets_nodup tally _

theorem validWallets_nodup (tally : VoteTally) (eligible : Finset String) : (tally.validWallets eligible).Nodup :=
  wallets_nodup tally _

theorem mem_countedWallets {localWallet w : String} : w ∈ c.countedWallets localWallet tally ↔
    ∃ record, tally.votes.lookup w = some record ∧ w ≠ localWallet ∧ record.vote.isValid = true ∧ w ∉ c.equivocators ∧
      (c.onchainStakes.lookup w).isSome := by
  simp only [countedWallets, mem_map, mem_filter, countsStake, decide_eq_true_eq]
  constructor
  · rintro ⟨⟨w, record⟩, ⟨hmem, hcounts⟩, rfl⟩
    exact ⟨record, AList.mem_lookup_iff.mpr hmem, hcounts⟩
  · rintro ⟨record, hrecord, hcounts⟩
    exact ⟨⟨w, record⟩, ⟨AList.mem_lookup_iff.mp hrecord, hcounts⟩, rfl⟩

theorem mem_validWallets : w ∈ tally.validWallets eligible ↔
    w ∈ eligible ∧ ∃ record, tally.votes.lookup w = some record ∧ record.vote.isValid = true := by
  simp only [VoteTally.validWallets, mem_map, mem_filter, decide_eq_true_eq]
  constructor
  · rintro ⟨⟨w, record⟩, ⟨hmem, heligible, hvalid⟩, rfl⟩
    exact ⟨heligible, record, AList.mem_lookup_iff.mpr hmem, hvalid⟩
  · rintro ⟨heligible, record, hrecord, hvalid⟩
    exact ⟨⟨w, record⟩, ⟨AList.mem_lookup_iff.mp hrecord, heligible, hvalid⟩, rfl⟩

/-- The loop adds up the stakes of the wallets that count, clamped at 64 bits. -/
theorem countedStake_eq (c : TransactVerificationCoordinator) (localWallet : String) (tally : VoteTally) :
    c.countedStake localWallet tally = min ((c.countedWallets localWallet tally).map c.onchainStake).sum Checked.u64Max := by
  rw [countedStake, ← foldl_filter,
    Checked.foldl_satAdd (fun vote : Sigma fun _ : String => VoteRecord => c.onchainStake vote.1) _ (Nat.zero_le _),
    Nat.zero_add, countedWallets, map_map]
  rfl

theorem stakeQuorumMet_iff {localWallet : String} (hlocal : c.localWallet = some localWallet) :
    c.stakeQuorumMet tally = true ↔ c.countedStake localWallet tally ≤ c.eligibleStake localWallet ∧
      quorumThreshold (c.eligibleStake localWallet) ≤ c.countedStake localWallet tally := by
  simp only [stakeQuorumMet, hlocal, quorumThreshold]
  split
  · rename_i hzero
    simp only [Bool.false_eq_true, hzero, false_iff]
    omega
  · split
    · simp only [Bool.false_eq_true, false_iff]
      omega
    · simp only [decide_eq_true_eq]
      omega

theorem validCount_eq (tally : VoteTally) (eligible : Finset String) :
    ((tally.eligibleVotes eligible).filter (·.isValid)).length = (tally.validWallets eligible).length := by
  simp only [VoteTally.eligibleVotes, VoteTally.validWallets, filter_map, length_map, filter_filter]
  congr 2
  funext e
  simp [-VerificationVote.isValid_iff, Bool.and_comm]

theorem eligibleVotes_length (tally : VoteTally) (eligible : Finset String) :
    (tally.eligibleVotes eligible).length = tally.countEligibleVotes eligible := by
  rw [VoteTally.eligibleVotes, countEligibleVotes, AList.keys, keys, filter_map, length_map, length_map]
  rfl

theorem le_validWallets (h : tally.consensusResult eligible = .ok .valid) :
    tally.minValidatorsForConsensus ≤ (tally.validWallets eligible).length := by
  unfold consensusResult at h
  dsimp only at h
  split at h
  · cases h
  · split at h
    · rename_i hneed
      rwa [validCount_eq] at hneed
    · cases h

end ConsensusAux

/-! ## Rounds -/

def TransactVerificationCoordinator.recorded (c : TransactVerificationCoordinator) (requestId wallet : String) :
    Option VoteRecord :=
  (c.pending.lookup requestId).bind (·.tally.votes.lookup wallet)

inductive Casts (κ : Crypto) (σ : NodeSettings) : NodeEvent → TransactVerificationResult → Prop where
  | message {received : Bool} {written : FileWrite} {result : TransactVerificationResult}
      (verified : σ.verifyVoteSignature κ result = true) :
      Casts κ σ (.voteMessage received written result.validator result) result
  | own {received : Bool} {written : FileWrite} {now : Nat} {requestId : String} {vote : VerificationVote}
      {result : TransactVerificationResult} (signed : σ.signedVote κ now requestId vote = some result) :
      Casts κ σ (.selfVote received written now requestId vote) result

/-- A vote that counts: it is for an open round under its canonical id. -/
structure Counts (κ : Crypto) (c : TransactVerificationCoordinator) (result : TransactVerificationResult)
    (consensus : TransactConsensus) : Prop where
  pending : c.pending.lookup result.requestId = some consensus
  canonical : result.requestId = consensus.request.canonicalId κ

/-- A vote that is not dropped: its round is open under the canonical id, and it carries a signature and a wallet that may
vote. -/
structure Accepted (κ : Crypto) (c : TransactVerificationCoordinator) (result : TransactVerificationResult) : Prop where
  canonical : ∃ request ∈ (c.pending.lookup result.requestId).map (·.request), result.requestId = request.canonicalId κ
  carried : result.walletPubkey ≠ "" ∧ result.signature ≠ []
  staked : c.onchainWallets.Nonempty → result.walletPubkey ∈ c.onchainWallets

namespace ConsensusAux

def votedTally (consensus : TransactConsensus) (result : TransactVerificationResult) : VoteTally :=
  (consensus.tally.submitVote result.walletPubkey result.validator result.vote result.signature).2

def newBan (c : TransactVerificationCoordinator) (consensus : TransactConsensus) (result : TransactVerificationResult) :
    Option (Finset String) :=
  if (consensus.tally.submitVote result.walletPubkey result.validator result.vote result.signature).1.isSome then
    some (c.recordVote consensus result).equivocators
  else none

/-- A vote is dropped, or it is recorded and may complete an approval. -/
theorem submitResult_cases (κ : Crypto) (received : Bool) (c : TransactVerificationCoordinator)
    (result : TransactVerificationResult) :
    ¬ Accepted κ c result ∧ (∃ r, c.submitResult κ received result = c.dropped r) ∨
      Accepted κ c result ∧ ∃ consensus, Counts κ c result consensus ∧
        (c.submitResult κ received result = ⟨.ok (), c.recordVote consensus result, none, newBan c consensus result⟩ ∨
          (c.recordVote consensus result).approves result.requestId (votedTally consensus result) = true ∧
          c.submitResult κ received result = ⟨.ok (), { c.recordVote consensus result with
            emitted := insert result.requestId (c.recordVote consensus result).emitted }, some ⟨consensus.request⟩,
            newBan c consensus result⟩) := by
  unfold submitResult
  split
  · rename_i hnone
    refine .inl ⟨fun haccepted => ?_, _, rfl⟩
    obtain ⟨request, hrequest, -⟩ := haccepted.canonical
    rw [hnone] at hrequest
    cases hrequest
  rename_i consensus hpending
  split
  · rename_i hid
    refine .inl ⟨fun haccepted => ?_, _, rfl⟩
    obtain ⟨request, hrequest, hcanonical⟩ := haccepted.canonical
    rw [hpending] at hrequest
    obtain rfl := Option.some.inj hrequest
    exact hid hcanonical
  rename_i hid
  split
  · rename_i hempty
    exact .inl ⟨fun haccepted => hempty.elim haccepted.carried.1 haccepted.carried.2, _, rfl⟩
  rename_i hcarried
  split
  · rename_i hstaked
    exact .inl ⟨fun haccepted => hstaked.2 (haccepted.staked hstaked.1), _, rfl⟩
  rename_i hstaked
  have haccepted : Accepted κ c result :=
    ⟨⟨consensus.request, by rw [hpending]; rfl, not_not.mp hid⟩, not_or.mp hcarried, fun h => by_contra fun hw => hstaked ⟨h, hw⟩⟩
  refine .inr ⟨haccepted, consensus, ⟨hpending, not_not.mp hid⟩, ?_⟩
  dsimp only
  split
  · rename_i happroved
    exact .inr ⟨happroved.1, rfl⟩
  · exact .inl rfl

section RecordVote

variable (c : TransactVerificationCoordinator) (consensus : TransactConsensus) (result : TransactVerificationResult)

/-- What a recorded vote changes: the tally of its round, and the banned wallets and the evidence. -/
theorem recordVote_eq : ∃ equivocators slashingTracker, c.recordVote consensus result = { c with
    pending := c.pending.insert result.requestId { consensus with tally := votedTally consensus result }
    equivocators, slashingTracker } := by
  cases hevidence : (consensus.tally.submitVote result.walletPubkey result.validator result.vote result.signature).1 with
  | none => exact ⟨c.equivocators, c.slashingTracker, by simp [recordVote, hevidence, votedTally]⟩
  | some evidence =>
    exact ⟨insert result.walletPubkey c.equivocators, c.slashingTracker ++ [(result.validator, evidence)],
      by simp [recordVote, hevidence, votedTally]⟩

@[simp] theorem recordVote_pending : (c.recordVote consensus result).pending =
    c.pending.insert result.requestId { consensus with tally := votedTally consensus result } := by
  obtain ⟨_, _, hrecord⟩ := recordVote_eq c consensus result
  rw [hrecord]

@[simp] theorem recordVote_emitted : (c.recordVote consensus result).emitted = c.emitted := by
  obtain ⟨_, _, hrecord⟩ := recordVote_eq c consensus result
  rw [hrecord]

@[simp] theorem recordVote_onchainWallets : (c.recordVote consensus result).onchainWallets = c.onchainWallets := by
  obtain ⟨_, _, hrecord⟩ := recordVote_eq c consensus result
  rw [hrecord]

@[simp] theorem recordVote_onchainStakes : (c.recordVote consensus result).onchainStakes = c.onchainStakes := by
  obtain ⟨_, _, hrecord⟩ := recordVote_eq c consensus result
  rw [hrecord]

@[simp] theorem recordVote_onchainRegistryTotal :
    (c.recordVote consensus result).onchainRegistryTotal = c.onchainRegistryTotal := by
  obtain ⟨_, _, hrecord⟩ := recordVote_eq c consensus result
  rw [hrecord]

@[simp] theorem recordVote_localWallet : (c.recordVote consensus result).localWallet = c.localWallet := by
  obtain ⟨_, _, hrecord⟩ := recordVote_eq c consensus result
  rw [hrecord]

@[simp] theorem recordVote_minValidatorsForConsensus :
    (c.recordVote consensus result).minValidatorsForConsensus = c.minValidatorsForConsensus := by
  obtain ⟨_, _, hrecord⟩ := recordVote_eq c consensus result
  rw [hrecord]

/-- A vote bans nobody, and nothing is written, or the banned wallets are written. -/
theorem recordVote_equivocators : c.equivocators ⊆ (c.recordVote consensus result).equivocators ∧
    (newBan c consensus result = none ∧ (c.recordVote consensus result).equivocators = c.equivocators ∨
      newBan c consensus result = some (c.recordVote consensus result).equivocators) := by
  cases hevidence : (consensus.tally.submitVote result.walletPubkey result.validator result.vote result.signature).1 with
  | none | some evidence => simp [recordVote, newBan, hevidence]

variable {c consensus result} in
theorem mem_equivocators_recordVote (h : wallet ∈ (c.recordVote consensus result).equivocators) :
    wallet ∈ c.equivocators ∨ wallet = result.walletPubkey ∧
      ∃ previous, consensus.tally.votes.lookup wallet = some previous ∧ previous.vote.isValid ≠ result.vote.isValid := by
  cases hprevious : consensus.tally.votes.lookup result.walletPubkey with
  | none => exact .inl (by simpa [recordVote, submitVote, hprevious] using h)
  | some previous =>
    by_cases hsame : previous.vote.isValid = result.vote.isValid
    · exact .inl (by simpa [-VerificationVote.isValid_iff, recordVote, submitVote, hprevious, hsame] using h)
    · have hmem : wallet = result.walletPubkey ∨ wallet ∈ c.equivocators := by
        simpa [-VerificationVote.isValid_iff, recordVote, submitVote, hprevious, hsame] using h
      rcases hmem with rfl | hmem
      · exact .inr ⟨rfl, previous, hprevious, hsame⟩
      · exact .inl hmem

end RecordVote

/-- The votes of a round after one more: a wallet keeps its vote, and the voter has a new one if it had none. -/
theorem lookup_votedTally (consensus : TransactConsensus) (result : TransactVerificationResult) (w : String) :
    (votedTally consensus result).votes.lookup w = consensus.tally.votes.lookup w ∨
      consensus.tally.votes.lookup w = none ∧ w = result.walletPubkey ∧
        (votedTally consensus result).votes.lookup w = some ⟨result.vote, result.validator, result.signature⟩ := by
  unfold votedTally submitVote
  split
  · split
    · exact .inl rfl
    · exact .inl rfl
  · rename_i hnone
    dsimp only
    rw [Table.lookup_insert_if]
    split
    · rename_i hw
      exact .inr ⟨hw ▸ hnone, hw, rfl⟩
    · exact .inl rfl

/-- A vote changes neither the threshold of its round nor the id. -/
theorem votedTally_frame (consensus : TransactConsensus) (result : TransactVerificationResult) :
    (votedTally consensus result).minValidatorsForConsensus = consensus.tally.minValidatorsForConsensus ∧
      (votedTally consensus result).requestId = consensus.tally.requestId := by
  unfold votedTally submitVote
  split
  · split <;> exact ⟨rfl, rfl⟩
  · exact ⟨rfl, rfl⟩

end ConsensusAux

/-! ## The calls -/

/-- How the write of the banned wallets ends that an event may lead to. -/
def NodeEvent.written : NodeEvent → FileWrite
  | .voteMessage _ written _ _ => written
  | .selfVote _ written _ _ _ => written
  | _ => .done

/-- The file after a vote: nothing is written if nobody is banned, and a write that is done writes the banned wallets. -/
def BansWritten (n n' : Node) (written : FileWrite) : Prop :=
  n'.equivocatorsFile = n.equivocatorsFile ∧ n'.coordinator.equivocators = n.coordinator.equivocators ∨
    (written = .done → n'.equivocatorsFile = some n'.coordinator.equivocators)

/-- The calls by what they do to the rounds, the snapshot and the bans. -/
inductive NodeStep (κ : Crypto) (σ : NodeSettings) (n : Node) : NodeEvent → Node → Option ApprovedTransact → Prop where
  | quiet {e : NodeEvent} (validators : List NodeId) (leaderSelector : Table NodeId ValidatorInfo) :
      NodeStep κ σ n e { n with coordinator := { n.coordinator with validators, leaderSelector } } none
  | start {now : Nat} {request : TransactVerificationRequest} (canonical : request.requestId = request.canonicalId κ)
      (absent : n.coordinator.pending.lookup request.requestId = none) :
      NodeStep κ σ n (.startVerification now request) { n with coordinator := { n.coordinator with
        pending := n.coordinator.pending.insert request.requestId
          (.new now request n.coordinator.minValidatorsForConsensus n.coordinator.totalValidators) } } none
  | vote {e : NodeEvent} {n' : Node} {result : TransactVerificationResult} {consensus : TransactConsensus}
      (casts : Casts κ σ e result) (counts : Counts κ n.coordinator result consensus)
      (coordinator : n'.coordinator = n.coordinator.recordVote consensus result)
      (file : BansWritten n n' e.written) :
      NodeStep κ σ n e n' none
  | approve {e : NodeEvent} {n' : Node} {result : TransactVerificationResult} {consensus : TransactConsensus}
      (casts : Casts κ σ e result) (counts : Counts κ n.coordinator result consensus)
      (approves : (n.coordinator.recordVote consensus result).approves result.requestId
        (ConsensusAux.votedTally consensus result) = true)
      (coordinator : n'.coordinator = { n.coordinator.recordVote consensus result with
        emitted := insert result.requestId (n.coordinator.recordVote consensus result).emitted })
      (file : BansWritten n n' e.written) :
      NodeStep κ σ n e n' (some ⟨consensus.request⟩)
  | sync {stakes : Table String Nat} {total : Nat} (leaderSelector : Table NodeId ValidatorInfo) :
      NodeStep κ σ n (.syncOnchainStakes stakes total) { n with coordinator := { n.coordinator with
        onchainWallets := stakes.keys.toFinset, onchainRegistryTotal := total, onchainStakes := stakes, leaderSelector } } none
  | sweep {now : Nat} :
      NodeStep κ σ n (.cleanupTimeouts now) { n with coordinator := n.coordinator.cleanupTimeouts now } none
  | clear {requestId : String} :
      NodeStep κ σ n (.clearEmitted requestId) { n with coordinator := n.coordinator.clearEmitted requestId } none
  | restart : NodeStep κ σ n .restart (.new σ n.equivocatorsFile) none

namespace ConsensusAux

/-- A node starts without rounds, marks and snapshot. -/
theorem coordinator_eq (equivocators : Finset String) : ∃ min total, σ.coordinator equivocators = { newWithApprovals with
      localWallet := σ.cosignKeypair.map walletName
      equivocators
      minValidatorsForConsensus := min
      totalValidators := total } := by
  unfold NodeSettings.coordinator
  split
  · unfold setConsensusThresholds
    split
    · exact ⟨_, _, rfl⟩
    · exact ⟨_, _, rfl⟩
  · exact ⟨_, _, rfl⟩

section New

variable (σ : NodeSettings) (file : Option (Finset String))

@[simp] theorem new_pending : (Node.new σ file).coordinator.pending = ∅ := by
  obtain ⟨_, _, hnew⟩ := coordinator_eq (file.getD ∅)
  rw [Node.new, hnew]
  rfl

@[simp] theorem new_onchainWallets : (Node.new σ file).coordinator.onchainWallets = ∅ := by
  obtain ⟨_, _, hnew⟩ := coordinator_eq (file.getD ∅)
  rw [Node.new, hnew]
  rfl

@[simp] theorem new_onchainStakes : (Node.new σ file).coordinator.onchainStakes = ∅ := by
  obtain ⟨_, _, hnew⟩ := coordinator_eq (file.getD ∅)
  rw [Node.new, hnew]
  rfl

@[simp] theorem new_onchainRegistryTotal : (Node.new σ file).coordinator.onchainRegistryTotal = 0 := by
  obtain ⟨_, _, hnew⟩ := coordinator_eq (file.getD ∅)
  rw [Node.new, hnew]
  rfl

@[simp] theorem new_localWallet : (Node.new σ file).coordinator.localWallet = σ.cosignKeypair.map walletName := by
  obtain ⟨_, _, hnew⟩ := coordinator_eq (file.getD ∅)
  rw [Node.new, hnew]

@[simp] theorem new_equivocators : (Node.new σ file).coordinator.equivocators = file.getD ∅ := by
  obtain ⟨_, _, hnew⟩ := coordinator_eq (file.getD ∅)
  rw [Node.new, hnew]

end New

theorem startVerification_ok (h : c.startVerification κ now request = .ok started) :
    request.requestId = request.canonicalId κ ∧ started = (request.requestId, { c with
      pending := if (c.pending.lookup request.requestId).isSome then c.pending
        else c.pending.insert request.requestId (.new now request c.minValidatorsForConsensus c.totalValidators) }) := by
  unfold startVerification at h
  split at h
  · cases h
  rename_i hcanonical
  split at h
  · cases h
  split at h
  · cases h
  exact ⟨not_not.mp hcanonical, (Except.ok.inj h).symm⟩

theorem submit_recorded (written : FileWrite)
    (h : n.coordinator.submitResult κ received result = ⟨.ok (), c', approved, newBan n.coordinator consensus result⟩)
    (hc' : c'.equivocators = (n.coordinator.recordVote consensus result).equivocators) :
    ∃ n', n.submit κ received written result = (n', approved) ∧ n'.coordinator = c' ∧ BansWritten n n' written := by
  rcases (recordVote_equivocators n.coordinator consensus result).2 with ⟨hnone, hsame⟩ | hsome
  · refine ⟨⟨c', n.equivocatorsFile⟩, ?_, rfl, Or.inl ⟨rfl, hc'.trans hsame⟩⟩
    simp [Node.submit, h, hnone]
  · refine ⟨Node.persist ⟨c', n.equivocatorsFile⟩ written (n.coordinator.recordVote consensus result).equivocators,
      ?_, ?_, Or.inr ?_⟩
    · simp [Node.submit, h, hsome]
    · cases written <;> rfl
    · rintro rfl
      exact congrArg some hc'.symm

/-- What a vote does that reaches the coordinator. -/
theorem submit_step (casts : Casts κ σ e result) (hwritten : e.written = written) :
    NodeStep κ σ n e (n.submit κ received written result).1 (n.submit κ received written result).2 := by
  rcases submitResult_cases κ received n.coordinator result with
    ⟨-, r, hdropped⟩ | ⟨-, consensus, counts, hvote | ⟨happroves, hvote⟩⟩
  · rw [Node.submit, hdropped]
    exact .quiet n.coordinator.validators n.coordinator.leaderSelector
  · obtain ⟨n', hsubmit, hcoordinator, hfile⟩ := submit_recorded written hvote rfl
    rw [hsubmit]
    exact .vote casts counts hcoordinator (hwritten ▸ hfile)
  · obtain ⟨n', hsubmit, hcoordinator, hfile⟩ := submit_recorded written hvote rfl
    rw [hsubmit]
    exact .approve casts counts happroves hcoordinator (hwritten ▸ hfile)

end ConsensusAux

open ConsensusAux

/-- Every call is one of these. -/
theorem Node.handle_step (κ : Crypto) (σ : NodeSettings) (n : Node) (e : NodeEvent) :
    NodeStep κ σ n e (n.handle κ σ e).1 (n.handle κ σ e).2 := by
  have hquiet : NodeStep κ σ n e n none := .quiet n.coordinator.validators n.coordinator.leaderSelector
  cases e with
  | startVerification now request =>
    cases hstarted : n.coordinator.startVerification κ now request with
    | error _ =>
      simp only [Node.handle, hstarted]
      exact hquiet
    | ok started =>
      obtain ⟨canonical, rfl⟩ := startVerification_ok hstarted
      simp only [Node.handle, hstarted]
      cases hpending : n.coordinator.pending.lookup request.requestId with
      | some _ =>
        simp only [Option.isSome_some, if_true]
        exact hquiet
      | none =>
        simp only [Option.isSome_none, Bool.false_eq_true, if_false]
        exact .start canonical hpending
  | voteMessage received written source result =>
    simp only [Node.handle]
    split
    · exact hquiet
    rename_i hsource
    split
    · exact hquiet
    rename_i hverified
    obtain rfl := not_not.mp hsource
    exact submit_step (.message (by simpa using hverified)) rfl
  | selfVote received written now requestId vote =>
    simp only [Node.handle]
    split
    · rename_i result hsigned
      exact submit_step (.own hsigned) rfl
    · exact hquiet
  | syncOnchainStakes stakes total =>
    by_cases hempty : stakes.entries = []
    · simp only [Node.handle, syncOnchainStakes, if_pos hempty]
      exact .quiet n.coordinator.validators _
    · simp only [Node.handle, syncOnchainStakes, if_neg hempty]
      exact .sync _
  | registerValidator validator wallet =>
    simp only [Node.handle, registerValidatorWithWallet]
    split
    · exact hquiet
    · exact .quiet _ _
  | unregisterValidator validator => exact .quiet _ _
  | cleanupTimeouts now => exact .sweep
  | clearEmitted requestId => exact .clear
  | restart => exact .restart
  | signs wallet message => exact hquiet

/-- An invariant of the calls holds after every sequence of them. -/
theorem Node.run_invariant {P : Node → Prop} {A : NodeEvent → Prop} (hstart : P n)
    (hstep : ∀ {n e n' approved}, A e → P n → NodeStep κ σ n e n' approved → P n') (hallowed : ∀ e ∈ events, A e) :
    P (n.run κ σ events) := by
  refine foldlRecOn events _ hstart fun n hn e he => ?_
  exact hstep (hallowed e he) hn (Node.handle_step κ σ n e)

end Paraloom.OffChain
