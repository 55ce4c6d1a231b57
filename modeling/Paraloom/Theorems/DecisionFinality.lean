import Paraloom.Theorems.ApprovalSoundness

/-!
# Whether a decision stays

The answer of `check_consensus` does not depend on the order of the votes. It is no decision that stays, though: a later valid
vote turns a rejection into an approval, and an approval is withdrawn when the stake behind it grows past the total of the
registry.
-/

namespace Paraloom.OffChain

open TransactVerificationCoordinator List VerificationVote

/-! ## What was voted -/

def TransactVerificationCoordinator.arrive (κ : Crypto) (c : TransactVerificationCoordinator)
    (votes : List (Bool × TransactVerificationResult)) : TransactVerificationCoordinator :=
  votes.foldl (fun c v => (c.submitResult κ v.1 v.2).coordinator) c

/-- The decision of a wallet in a round. -/
def TransactVerificationCoordinator.decided (c : TransactVerificationCoordinator) (requestId wallet : String) : Option Bool :=
  (c.recorded requestId wallet).map (·.vote.isValid)

/-- A decision of a wallet in a round that was recorded before or arrives with the votes. -/
def Seen (κ : Crypto) (c : TransactVerificationCoordinator) (votes : List (Bool × TransactVerificationResult))
    (wallet requestId : String) (decision : Bool) : Prop :=
  c.decided requestId wallet = some decision ∨
    ∃ v ∈ votes, Accepted κ c v.2 ∧ v.2.walletPubkey = wallet ∧ v.2.requestId = requestId ∧ v.2.vote.isValid = decision

/-- What no vote changes: the open rounds with their requests, deadlines and thresholds, and the snapshot of the chain. -/
structure SameFrame (c c' : TransactVerificationCoordinator) : Prop where
  rounds : ∀ id, (c'.pending.lookup id).map (fun r => (r.request, r.tally.deadline, r.tally.minValidatorsForConsensus)) =
    (c.pending.lookup id).map fun r => (r.request, r.tally.deadline, r.tally.minValidatorsForConsensus)
  wallets : c'.onchainWallets = c.onchainWallets
  stakes : c'.onchainStakes = c.onchainStakes
  total : c'.onchainRegistryTotal = c.onchainRegistryTotal
  localWallet : c'.localWallet = c.localWallet

/-- What the votes leave: a wallet that was seen both ways in a round is banned, and the others have the decisions that were
seen. -/
structure Polled (κ : Crypto) (c : TransactVerificationCoordinator) (votes : List (Bool × TransactVerificationResult))
    (c' : TransactVerificationCoordinator) : Prop where
  frame : SameFrame c c'
  banned : ∀ w, w ∈ c'.equivocators ↔ w ∈ c.equivocators ∨ ∃ id, ∀ decision, Seen κ c votes w id decision
  decided : ∀ w, w ∉ c'.equivocators → ∀ id decision, c'.decided id w = some decision ↔ Seen κ c votes w id decision

namespace TransactVerificationCoordinator

def voters (c : TransactVerificationCoordinator) (requestId : String) : Finset String :=
  c.eligibleWallets.filter fun w => (c.decided requestId w).isSome

def validVoterWallets (c : TransactVerificationCoordinator) (requestId : String) : Finset String :=
  c.eligibleWallets.filter fun w => c.decided requestId w = some true

/-- The wallets whose stake counts in a round. -/
def stakeVoters (c : TransactVerificationCoordinator) (requestId localWallet : String) : Finset String :=
  c.onchainStakes.keys.toFinset.filter fun w => w ≠ localWallet ∧ w ∉ c.equivocators ∧ c.decided requestId w = some true

end TransactVerificationCoordinator

open ConsensusAux

variable {c c' : TransactVerificationCoordinator}
  {id w : String}

theorem SameFrame.refl (c : TransactVerificationCoordinator) : SameFrame c c := ⟨fun _ => rfl, rfl, rfl, rfl, rfl⟩

theorem submitResult_recorded : ¬ Accepted κ c result ∧ (c.submitResult κ received result).coordinator = c ∨
      Accepted κ c result ∧ ∃ consensus emitted, c.pending.lookup result.requestId = some consensus ∧
        (c.submitResult κ received result).coordinator = { c.recordVote consensus result with emitted := emitted } := by
  rcases submitResult_cases κ received c result with
    ⟨hdropped, r, hsame⟩ | ⟨haccepted, consensus, counts, hvote | ⟨-, hvote⟩⟩
  · exact .inl ⟨hdropped, by rw [hsame]; rfl⟩
  · exact .inr ⟨haccepted, consensus, _, counts.pending, by rw [hvote]⟩
  · exact .inr ⟨haccepted, consensus, _, counts.pending, by rw [hvote]⟩

theorem sameFrame_recordVote (hpending : c.pending.lookup result.requestId = some consensus) (emitted : Finset String) :
    SameFrame c { c.recordVote consensus result with emitted := emitted } := by
  refine ⟨fun id => ?_, by simp, by simp, by simp, by simp⟩
  simp only [recordVote_pending, Table.lookup_insert_if]
  split
  · rename_i hid
    have hdeadline : (votedTally consensus result).deadline = consensus.tally.deadline := by
      unfold votedTally VoteTally.submitVote
      split
      · split <;> rfl
      · rfl
    rw [hid, hpending, Option.map_some, Option.map_some, hdeadline, (votedTally_frame _ _).1]
  · rfl

theorem SameFrame.trans (h : SameFrame c c') (h' : SameFrame c' c'') : SameFrame c c'' :=
  ⟨fun id => (h'.rounds id).trans (h.rounds id), h'.wallets.trans h.wallets, h'.stakes.trans h.stakes,
    h'.total.trans h.total, h'.localWallet.trans h.localWallet⟩

/-- The votes that count are those of the frame. -/
theorem SameFrame.accepted (h : SameFrame c c') (result : TransactVerificationResult) :
    Accepted κ c' result ↔ Accepted κ c result := by
  have hrequest : (c'.pending.lookup result.requestId).map (·.request) =
      (c.pending.lookup result.requestId).map (·.request) := by
    simpa [Function.comp_def] using congrArg (Option.map Prod.fst) (h.rounds result.requestId)
  constructor
  · rintro ⟨hcanonical, hcarried, hstaked⟩
    rw [hrequest] at hcanonical
    rw [h.wallets] at hstaked
    exact ⟨hcanonical, hcarried, hstaked⟩
  · rintro ⟨hcanonical, hcarried, hstaked⟩
    rw [← hrequest] at hcanonical
    rw [← h.wallets] at hstaked
    exact ⟨hcanonical, hcarried, hstaked⟩

theorem decided_of_pending (hround : c.pending.lookup id = some consensus) (w : String) :
    c.decided id w = (consensus.tally.votes.lookup w).map (·.vote.isValid) := by
  rw [decided, recorded, hround, Option.bind_some]

theorem recordVote_decided (hpending : c.pending.lookup result.requestId = some consensus) :
    c.decided result.requestId result.walletPubkey = none ∧
        (c.recordVote consensus result).equivocators = c.equivocators ∧
        (∀ id w, (c.recordVote consensus result).decided id w =
          if id = result.requestId ∧ w = result.walletPubkey then some result.vote.isValid else c.decided id w) ∨
      (∀ id w, (c.recordVote consensus result).decided id w = c.decided id w) ∧
        (c.decided result.requestId result.walletPubkey = some result.vote.isValid ∧
            (c.recordVote consensus result).equivocators = c.equivocators ∨
          c.decided result.requestId result.walletPubkey = some (!result.vote.isValid) ∧
            (c.recordVote consensus result).equivocators = insert result.walletPubkey c.equivocators) := by
  have hdecided := decided_of_pending hpending
  have hafter : ∀ id w, (c.recordVote consensus result).decided id w = if id = result.requestId then
      ((votedTally consensus result).votes.lookup w).map (·.vote.isValid) else c.decided id w := by
    intro id w
    simp only [decided, recorded, recordVote_pending, Table.lookup_insert_if]
    split <;> rfl
  cases hlookup : consensus.tally.votes.lookup result.walletPubkey with
  | none =>
    refine .inl ⟨by rw [hdecided, hlookup]; rfl, by simp [recordVote, VoteTally.submitVote, hlookup], fun id w => ?_⟩
    rw [hafter]
    by_cases hid : id = result.requestId
    · subst hid
      simp only [votedTally, VoteTally.submitVote, hlookup, Table.lookup_insert_if, if_true, true_and]
      split
      · rfl
      · rw [hdecided]
    · simp [hid]
  | some previous =>
    have hsame : votedTally consensus result = consensus.tally := by
      simp only [votedTally, VoteTally.submitVote, hlookup]
      split <;> rfl
    refine .inr ⟨fun id w => ?_, ?_⟩
    · rw [hafter, hsame]
      split
      · rename_i hid
        rw [hid, hdecided]
      · rfl
    · rw [hdecided, hlookup, Option.map_some, Option.some.injEq, Option.some.injEq]
      by_cases hbit : previous.vote.isValid = result.vote.isValid
      · exact .inl ⟨hbit, by simp [recordVote, VoteTally.submitVote, hlookup, hbit]⟩
      · refine .inr ⟨?_, by simp [recordVote, VoteTally.submitVote, hlookup, hbit]⟩
        revert hbit
        cases previous.vote.isValid <;> cases result.vote.isValid <;> simp

theorem seen_snoc : Seen κ c (votes ++ [v]) w id decision ↔ Seen κ c votes w id decision ∨
      Accepted κ c v.2 ∧ v.2.walletPubkey = w ∧ v.2.requestId = id ∧ v.2.vote.isValid = decision := by
  simp only [Seen, mem_append, mem_singleton, or_and_right, exists_or, exists_eq_left, or_assoc]

theorem polled_nil : Polled κ c [] c := by
  have hseen : ∀ w id decision, Seen κ c [] w id decision ↔ c.decided id w = some decision := by
    intro w id decision
    simp [Seen]
  refine ⟨SameFrame.refl c, fun w => ?_, fun w _ id decision => (hseen w id decision).symm⟩
  simp only [hseen, iff_self_or]
  rintro ⟨id, hboth⟩
  have htrue := hboth true
  rw [hboth false] at htrue
  cases htrue

/-- A wallet that is not banned was seen both ways after one more accepted vote if the vote flips its decision. -/
theorem Polled.flip_iff (h : Polled κ c votes c') (haccepted : Accepted κ c v.2) (hw : v.2.walletPubkey ∉ c'.equivocators) :
    (∃ id, ∀ decision, Seen κ c (votes ++ [v]) v.2.walletPubkey id decision) ↔
      c'.decided v.2.requestId v.2.walletPubkey = some (!v.2.vote.isValid) := by
  constructor
  · rintro ⟨id, hboth⟩
    have hflip : c'.decided id v.2.walletPubkey = some (!v.2.vote.isValid) := by
      rcases (seen_snoc).mp (hboth (!v.2.vote.isValid)) with hold | ⟨-, -, -, hnew⟩
      · exact (h.decided _ hw id _).mpr hold
      · simp at hnew
    rcases (seen_snoc).mp (hboth v.2.vote.isValid) with hold | ⟨-, -, rfl, -⟩
    · rw [(h.decided _ hw id _).mpr hold, Option.some.injEq] at hflip
      simp at hflip
    · exact hflip
  · intro hflip
    refine ⟨v.2.requestId, fun decision => (seen_snoc).mpr ?_⟩
    by_cases hdecision : v.2.vote.isValid = decision
    · exact .inr ⟨haccepted, rfl, rfl, hdecision⟩
    · refine .inl ((h.decided _ hw _ _).mp (hflip.trans ?_))
      rw [Bool.eq_not_of_ne hdecision, Bool.not_not]

theorem Polled.step (h : Polled κ c votes c') (v : Bool × TransactVerificationResult) :
    Polled κ c (votes ++ [v]) (c'.submitResult κ v.1 v.2).coordinator := by
  rcases submitResult_recorded with ⟨hdropped, hsame⟩ | ⟨haccepted, consensus, emitted, hpending, hsame⟩
  · have hseen : ∀ w id decision, Seen κ c (votes ++ [v]) w id decision ↔ Seen κ c votes w id decision := by
      intro w id decision
      rw [seen_snoc, or_iff_left]
      exact fun hnew => hdropped ((h.frame.accepted v.2).mpr hnew.1)
    rw [hsame]
    refine ⟨h.frame, fun w => ?_, fun w hw id decision => ?_⟩
    · simp only [h.banned, hseen]
    · rw [h.decided w hw, hseen]
  rw [h.frame.accepted] at haccepted
  have hother : ∀ w, w ≠ v.2.walletPubkey → ∀ id decision,
      Seen κ c (votes ++ [v]) w id decision ↔ Seen κ c votes w id decision := by
    intro w hw id decision
    rw [seen_snoc, or_iff_left]
    exact fun hnew => hw hnew.2.1.symm
  rw [hsame]
  refine ⟨h.frame.trans (sameFrame_recordVote hpending emitted), fun w => ?_, fun w hw id decision => ?_⟩
  · change w ∈ (c'.recordVote consensus v.2).equivocators ↔ _
    by_cases hw : w = v.2.walletPubkey
    · subst hw
      by_cases hbanned : v.2.walletPubkey ∈ c'.equivocators
      · -- a ban stays, and what was seen stays seen
        refine iff_of_true ((recordVote_equivocators c' consensus v.2).1 hbanned) ?_
        refine ((h.banned _).mp hbanned).imp_right ?_
        rintro ⟨id, hboth⟩
        exact ⟨id, fun decision => (seen_snoc).mpr (.inl (hboth decision))⟩
      · have hstart : v.2.walletPubkey ∉ c.equivocators := fun hc => hbanned ((h.banned _).mpr (.inl hc))
        rw [or_iff_right hstart, h.flip_iff haccepted hbanned]
        rcases recordVote_decided hpending with ⟨hnone, hbans, -⟩ | ⟨-, ⟨hkept, hbans⟩ | ⟨hflip, hbans⟩⟩
        · rw [hbans, hnone]
          exact iff_of_false hbanned (by simp)
        · rw [hbans, hkept]
          exact iff_of_false hbanned (by simp)
        · rw [hbans, hflip]
          exact iff_of_true (Finset.mem_insert_self _ _) rfl
    · simp only [hother w hw, ← h.banned]
      rcases recordVote_decided hpending with ⟨-, hbans, -⟩ | ⟨-, ⟨-, hbans⟩ | ⟨-, hbans⟩⟩
      · rw [hbans]
      · rw [hbans]
      · rw [hbans, Finset.mem_insert, or_iff_right hw]
  · change (c'.recordVote consensus v.2).decided id w = some decision ↔ _
    have hbefore : w ∉ c'.equivocators := fun hc => hw ((recordVote_equivocators c' consensus v.2).1 hc)
    rw [seen_snoc, ← h.decided w hbefore, and_iff_right haccepted]
    rcases recordVote_decided hpending with ⟨hnone, -, hafter⟩ | ⟨hafter, ⟨hkept, -⟩ | ⟨-, hbans⟩⟩
    · rw [hafter]
      split
      · rename_i hnew
        obtain ⟨rfl, rfl⟩ := hnew
        simp [hnone]
      · rename_i hnew
        rw [or_iff_left]
        rintro ⟨rfl, rfl, -⟩
        exact hnew ⟨rfl, rfl⟩
    · rw [hafter, iff_self_or]
      rintro ⟨rfl, rfl, rfl⟩
      exact hkept
    · rw [hafter, iff_self_or]
      rintro ⟨rfl, -⟩
      refine absurd ?_ hw
      change v.2.walletPubkey ∈ (c'.recordVote consensus v.2).equivocators
      rw [hbans]
      exact Finset.mem_insert_self _ _

theorem polled_arrive (κ : Crypto) (c : TransactVerificationCoordinator) (votes : List (Bool × TransactVerificationResult)) :
    Polled κ c votes (c.arrive κ votes) := by
  induction votes using reverseRecOn with
  | nil => exact polled_nil
  | append_singleton votes v ih =>
    rw [arrive, foldl_append]
    exact ih.step v

/-! ## The answer by what was voted -/

section Round

variable (hround : c.pending.lookup id = some consensus)
include hround

theorem countEligibleVotes_eq : consensus.tally.countEligibleVotes c.eligibleWallets = (c.voters id).card := by
  rw [VoteTally.countEligibleVotes, ← toFinset_card_of_nodup (consensus.tally.votes.keys_nodup.filter _)]
  congr 1
  ext w
  simp only [mem_toFinset, mem_filter, decide_eq_true_eq, voters, Finset.mem_filter, decided_of_pending hround,
    Option.isSome_map, AList.lookup_isSome, AList.mem_keys]
  exact and_comm

theorem validWallets_eq : (consensus.tally.validWallets c.eligibleWallets).length = (c.validVoterWallets id).card := by
  rw [← toFinset_card_of_nodup (validWallets_nodup _ _)]
  congr 1
  ext w
  simp only [mem_toFinset, mem_validWallets, validVoterWallets, Finset.mem_filter, decided_of_pending hround,
    Option.map_eq_some_iff]

theorem countedStake_eq (localWallet : String) : c.countedStake localWallet consensus.tally =
      min (∑ w ∈ c.stakeVoters id localWallet, c.onchainStake w) Checked.u64Max := by
  have hset : (c.countedWallets localWallet consensus.tally).toFinset = c.stakeVoters id localWallet := by
    ext w
    simp only [mem_toFinset, mem_countedWallets, stakeVoters, Finset.mem_filter,
      decided_of_pending hround, Option.map_eq_some_iff, AList.lookup_isSome, ← AList.mem_keys]
    tauto
  rw [ConsensusAux.countedStake_eq, ← hset]
  congr 1
  exact (sum_toFinset _ (countedWallets_nodup c localWallet consensus.tally)).symm

def rejection (valid invalid need : Nat) : String := s!"Consensus rejected: {valid} valid, {invalid} invalid (need {need})"

theorem checkConsensus_eq (hopen : consensus.tally.isTimedOut now = false) : c.checkConsensus now id =
      .ok (if consensus.tally.minValidatorsForConsensus ≤ (c.voters id).card then
        if consensus.tally.minValidatorsForConsensus ≤ (c.validVoterWallets id).card then
          if c.stakeQuorumMet consensus.tally then some .valid else none
        else some (.invalid (rejection (c.validVoterWallets id).card ((c.voters id).card - (c.validVoterWallets id).card)
          consensus.tally.minValidatorsForConsensus))
      else none) := by
  have hlength := eligibleVotes_length consensus.tally c.eligibleWallets
  have hvalid := validCount_eq consensus.tally c.eligibleWallets
  rw [countEligibleVotes_eq hround] at hlength
  rw [validWallets_eq hround] at hvalid
  simp only [checkConsensus, hround, hopen, Bool.false_eq_true, if_false, VoteTally.hasConsensus, decide_eq_true_eq,
    countEligibleVotes_eq hround, VoteTally.consensusResult, hlength, hvalid]
  by_cases henough : consensus.tally.minValidatorsForConsensus ≤ (c.voters id).card
  · simp only [henough, if_true, if_neg (Nat.not_lt.mpr henough)]
    by_cases hneed : consensus.tally.minValidatorsForConsensus ≤ (c.validVoterWallets id).card
    · simp only [hneed, if_true]
      split <;> rfl
    · simp only [hneed, if_false]
      rfl
  · simp only [henough, if_false]

end Round

/-! ## The order of the votes -/

theorem SameFrame.round (h : SameFrame c c') (hround : c.pending.lookup id = some consensus) :
    ∃ consensus', c'.pending.lookup id = some consensus' ∧
      (∀ now, consensus'.tally.isTimedOut now = consensus.tally.isTimedOut now) ∧
      consensus'.tally.minValidatorsForConsensus = consensus.tally.minValidatorsForConsensus := by
  have hrounds := h.rounds id
  rw [hround, Option.map_some, Option.map_eq_some_iff] at hrounds
  obtain ⟨consensus', hround', hsame⟩ := hrounds
  simp only [Prod.mk.injEq] at hsame
  obtain ⟨-, hdeadline, hmin⟩ := hsame
  refine ⟨consensus', hround', fun now => ?_, hmin⟩
  rw [VoteTally.isTimedOut, VoteTally.isTimedOut, hdeadline]

theorem SameFrame.onchainStake (h : SameFrame c c') : c'.onchainStake = c.onchainStake := by
  funext w
  rw [TransactVerificationCoordinator.onchainStake, TransactVerificationCoordinator.onchainStake, h.stakes]

theorem SameFrame.eligibleStake (h : SameFrame c c') : c'.eligibleStake = c.eligibleStake := by
  funext w
  rw [TransactVerificationCoordinator.eligibleStake, TransactVerificationCoordinator.eligibleStake, h.onchainStake, h.total]

theorem SameFrame.symm (h : SameFrame c c') : SameFrame c' c :=
  ⟨fun id => (h.rounds id).symm, h.wallets.symm, h.stakes.symm, h.total.symm, h.localWallet.symm⟩

theorem stakeQuorumMet_congr (hframe : SameFrame c c')
    (hcounted : ∀ localWallet, c'.countedStake localWallet tally' = c.countedStake localWallet tally) :
    c'.stakeQuorumMet tally' = c.stakeQuorumMet tally := by
  cases hlocal : c.localWallet with
  | none => simp only [stakeQuorumMet, hframe.localWallet, hlocal]
  | some localWallet => simp only [stakeQuorumMet, hframe.localWallet, hlocal, hcounted, hframe.eligibleStake]

/-- The answer looks at the frame, the bans and the decisions of the wallets that are not banned. -/
theorem checkConsensus_congr (hframe : SameFrame c c') (hbans : c'.equivocators = c.equivocators)
    (hdecided : ∀ w, w ∉ c.equivocators → ∀ id, c'.decided id w = c.decided id w) :
    c'.checkConsensus now id = c.checkConsensus now id := by
  have heligible : c'.eligibleWallets = c.eligibleWallets := by
    rw [eligibleWallets, eligibleWallets, hframe.wallets, hbans]
  have hunbanned : ∀ w ∈ c.eligibleWallets, w ∉ c.equivocators := fun w hw => (Finset.mem_sdiff.mp hw).2
  have hvoters : c'.voters id = c.voters id := by
    rw [voters, voters, heligible]
    exact Finset.filter_congr fun w hw => by rw [hdecided w (hunbanned w hw)]
  have hvalid : c'.validVoterWallets id = c.validVoterWallets id := by
    rw [validVoterWallets, validVoterWallets, heligible]
    exact Finset.filter_congr fun w hw => by rw [hdecided w (hunbanned w hw)]
  have hstake : ∀ localWallet, c'.stakeVoters id localWallet = c.stakeVoters id localWallet := by
    intro localWallet
    rw [stakeVoters, stakeVoters, hframe.stakes, hbans]
    refine Finset.filter_congr fun w _ => ?_
    by_cases hw : w ∈ c.equivocators
    · simp [hw]
    · rw [hdecided w hw]
  cases hround : c.pending.lookup id with
  | none =>
    have hrounds := hframe.rounds id
    rw [hround, Option.map_none, Option.map_eq_none_iff] at hrounds
    simp only [checkConsensus, hround, hrounds]
  | some consensus =>
    obtain ⟨consensus', hround', hsame, hmin⟩ := hframe.round hround
    cases hopen : consensus.tally.isTimedOut now with
    | true => simp only [checkConsensus, hround, hround', hsame, hopen, if_true]
    | false =>
      have hgate : c'.stakeQuorumMet consensus'.tally = c.stakeQuorumMet consensus.tally := by
        refine stakeQuorumMet_congr hframe fun localWallet => ?_
        rw [countedStake_eq hround', countedStake_eq hround, hstake, hframe.onchainStake]
      rw [checkConsensus_eq hround hopen, checkConsensus_eq hround' ((hsame now).trans hopen), hvoters, hvalid, hmin, hgate]

theorem checkConsensus_perm (hperm : votes.Perm votes') :
    (c.arrive κ votes').checkConsensus now id = (c.arrive κ votes).checkConsensus now id := by
  have hpolled := polled_arrive κ c votes
  have hpolled' := polled_arrive κ c votes'
  have hseen : ∀ w id decision, Seen κ c votes' w id decision ↔ Seen κ c votes w id decision := by
    intro w id decision
    simp only [Seen, hperm.mem_iff]
  have hbans : (c.arrive κ votes').equivocators = (c.arrive κ votes).equivocators := by
    ext w
    simp only [hpolled.banned, hpolled'.banned, hseen]
  refine checkConsensus_congr (hpolled.frame.symm.trans hpolled'.frame) hbans (fun w hw id => ?_)
  refine Option.ext fun decision => ?_
  rw [hpolled.decided w hw, hpolled'.decided w (hbans ▸ hw), hseen]

/-! ## Further votes -/

/-- Further votes of a round: they carry a signature, come from eligible wallets that have no vote in the round, and those of
one wallet agree. -/
@[mk_iff] structure FurtherVotes (κ : Crypto) (c : TransactVerificationCoordinator) (consensus : TransactConsensus)
    (requestId : String) (votes : List (Bool × TransactVerificationResult)) : Prop where
  canonical : requestId = consensus.request.canonicalId κ
  round : ∀ v ∈ votes, v.2.requestId = requestId
  carried : ∀ v ∈ votes, v.2.walletPubkey ≠ "" ∧ v.2.signature ≠ []
  eligible : ∀ v ∈ votes, v.2.walletPubkey ∈ c.eligibleWallets
  first : ∀ v ∈ votes, c.recorded requestId v.2.walletPubkey = none
  agree : ∀ v ∈ votes, ∀ v' ∈ votes, v.2.walletPubkey = v'.2.walletPubkey → v.2.vote.isValid = v'.2.vote.isValid

def validAfter (c : TransactVerificationCoordinator) (requestId : String) (votes : List (Bool × TransactVerificationResult)) :
    Finset String :=
  c.validVoterWallets requestId ∪ ((votes.filter (·.2.vote.isValid)).map (·.2.walletPubkey)).toFinset

/-- When a decision stays: a valid one as long as the stake behind it is no more than the eligible stake, a rejection as long
as there are too few valid votes. -/
def Stays (c : TransactVerificationCoordinator) (consensus : TransactConsensus) (requestId : String)
    (votes : List (Bool × TransactVerificationResult)) (decision : VerificationVote) : Prop :=
  if decision.isValid then ∀ localWallet ∈ c.localWallet,
    min (∑ w ∈ (validAfter c requestId votes).erase localWallet, c.onchainStake w) Checked.u64Max ≤ c.eligibleStake localWallet
  else (validAfter c requestId votes).card < consensus.tally.minValidatorsForConsensus

theorem stakeVoters_eq (hsnapshot : c.onchainWallets = c.onchainStakes.keys.toFinset) (localWallet : String) :
    c.stakeVoters id localWallet = (c.validVoterWallets id).erase localWallet := by
  ext w
  simp only [stakeVoters, validVoterWallets, TransactVerificationCoordinator.eligibleWallets, hsnapshot, Finset.mem_filter,
    Finset.mem_erase, Finset.mem_sdiff]
  tauto

section FurtherVotes

variable (h : FurtherVotes κ c consensus id votes)
include h

theorem FurtherVotes.accepted (hround : c.pending.lookup id = some consensus) (hv : v ∈ votes) : Accepted κ c v.2 := by
  refine ⟨⟨consensus.request, ?_, ?_⟩, h.carried v hv, fun _ => (Finset.mem_sdiff.mp (h.eligible v hv)).1⟩
  · rw [h.round v hv, hround]
    rfl
  · rw [h.round v hv]
    exact h.canonical

theorem FurtherVotes.equivocators : (c.arrive κ votes).equivocators = c.equivocators := by
  ext w
  rw [(polled_arrive κ c votes).banned, or_iff_left]
  rintro ⟨id', hboth⟩
  -- a wallet votes in this round only if it has not, and then one way
  rcases hboth true with htrue | ⟨v, hv, -, hw, hid, hvalid⟩
  · rcases hboth false with hfalse | ⟨v, hv, -, rfl, rfl, -⟩
    · rw [htrue] at hfalse
      cases hfalse
    · rw [decided, h.round v hv, h.first v hv] at htrue
      cases htrue
  · subst hw hid
    rcases hboth false with hfalse | ⟨v', hv', -, hw', -, hinvalid⟩
    · rw [decided, h.round v hv, h.first v hv] at hfalse
      cases hfalse
    · rw [h.agree v' hv' v hv hw', hvalid] at hinvalid
      cases hinvalid

theorem FurtherVotes.eligibleWallets : (c.arrive κ votes).eligibleWallets = c.eligibleWallets := by
  rw [TransactVerificationCoordinator.eligibleWallets, TransactVerificationCoordinator.eligibleWallets,
    (polled_arrive κ c votes).frame.wallets, h.equivocators]

theorem FurtherVotes.decided_iff (hw : w ∈ c.eligibleWallets) (decision : Bool) :
    (c.arrive κ votes).decided id w = some decision ↔ Seen κ c votes w id decision := by
  refine (polled_arrive κ c votes).decided w ?_ id decision
  rw [h.equivocators]
  exact (Finset.mem_sdiff.mp hw).2

theorem FurtherVotes.validVoterWallets_eq (hround : c.pending.lookup id = some consensus) :
    (c.arrive κ votes).validVoterWallets id = validAfter c id votes := by
  ext w
  simp only [validVoterWallets, validAfter, h.eligibleWallets, Finset.mem_filter, Finset.mem_union,
    mem_toFinset, mem_map, mem_filter]
  constructor
  · rintro ⟨hw, hdecided⟩
    rcases (h.decided_iff hw true).mp hdecided with hold | ⟨v, hv, -, hwallet, -, hvalid⟩
    · exact .inl ⟨hw, hold⟩
    · exact .inr ⟨v, ⟨hv, hvalid⟩, hwallet⟩
  · rintro (⟨hw, hold⟩ | ⟨v, ⟨hv, hvalid⟩, rfl⟩)
    · exact ⟨hw, (h.decided_iff hw true).mpr (.inl hold)⟩
    · refine ⟨h.eligible v hv, (h.decided_iff (h.eligible v hv) true).mpr ?_⟩
      exact .inr ⟨v, hv, h.accepted hround hv, rfl, h.round v hv, hvalid⟩

theorem FurtherVotes.voters_subset : c.voters id ⊆ (c.arrive κ votes).voters id := by
  intro w hw
  obtain ⟨hw, hvoted⟩ := Finset.mem_filter.mp hw
  obtain ⟨decision, hdecision⟩ := Option.isSome_iff_exists.mp hvoted
  have hafter := (h.decided_iff hw decision).mpr (.inl hdecision)
  exact Finset.mem_filter.mpr ⟨by rwa [h.eligibleWallets], by rw [hafter]; rfl⟩

theorem FurtherVotes.checkConsensus_after (hround : c.pending.lookup id = some consensus)
    (hround' : (c.arrive κ votes).pending.lookup id = some consensus') (hopen : consensus'.tally.isTimedOut now = false)
    (henough : consensus'.tally.minValidatorsForConsensus ≤ (c.voters id).card) :
    (c.arrive κ votes).checkConsensus now id =
      .ok (if consensus'.tally.minValidatorsForConsensus ≤ (validAfter c id votes).card then
        if (c.arrive κ votes).stakeQuorumMet consensus'.tally then some .valid else none
      else some (.invalid (rejection (validAfter c id votes).card
        (((c.arrive κ votes).voters id).card - (validAfter c id votes).card)
        consensus'.tally.minValidatorsForConsensus))) := by
  have hmore := Finset.card_le_card h.voters_subset
  rw [checkConsensus_eq hround' hopen, if_pos (henough.trans hmore), h.validVoterWallets_eq hround]

/-- The gate after further votes: it was met, so only the ceiling can fail. -/
theorem FurtherVotes.gate_iff (hround : c.pending.lookup id = some consensus)
    (hsnapshot : c.onchainWallets = c.onchainStakes.keys.toFinset) (hmet : c.stakeQuorumMet consensus.tally = true)
    (hround' : (c.arrive κ votes).pending.lookup id = some consensus') :
    (c.arrive κ votes).stakeQuorumMet consensus'.tally = true ↔ ∀ localWallet ∈ c.localWallet,
      min (∑ w ∈ (validAfter c id votes).erase localWallet, c.onchainStake w) Checked.u64Max ≤ c.eligibleStake localWallet := by
  have hframe := (polled_arrive κ c votes).frame
  cases hlocal : c.localWallet with
  | none => simp [stakeQuorumMet, hframe.localWallet, hlocal]
  | some localWallet =>
    have hsnapshot' : (c.arrive κ votes).onchainWallets = (c.arrive κ votes).onchainStakes.keys.toFinset := by
      rw [hframe.wallets, hframe.stakes, hsnapshot]
    have hgrows : ∑ w ∈ (c.validVoterWallets id).erase localWallet, c.onchainStake w ≤
        ∑ w ∈ (validAfter c id votes).erase localWallet, c.onchainStake w :=
      Finset.sum_le_sum_of_subset (Finset.erase_subset_erase _ Finset.subset_union_left)
    obtain ⟨-, hthreshold⟩ := (stakeQuorumMet_iff hlocal).mp hmet
    rw [countedStake_eq hround, stakeVoters_eq hsnapshot] at hthreshold
    rw [stakeQuorumMet_iff (hframe.localWallet.trans hlocal), countedStake_eq hround', stakeVoters_eq hsnapshot',
      h.validVoterWallets_eq hround, hframe.onchainStake, hframe.eligibleStake]
    simp only [Option.mem_def, Option.some.injEq, forall_eq']
    omega

end FurtherVotes

/-- A decision stays after further votes if and only if the stake behind an approval keeps within the eligible stake, and a
rejection keeps too few valid votes. The order of the votes never shows. -/
theorem decision_stays_iff (κ : Crypto) :
    (∀ (c : TransactVerificationCoordinator) id consensus now decision votes, c.pending.lookup id = some consensus →
      c.onchainWallets = c.onchainStakes.keys.toFinset → c.checkConsensus now id = .ok (some decision) →
      FurtherVotes κ c consensus id votes →
        ((∀ now', consensus.tally.isTimedOut now' = false →
          ∃ decision', (c.arrive κ votes).checkConsensus now' id = .ok (some decision') ∧
            decision'.isValid = decision.isValid) ↔ Stays c consensus id votes decision)) ∧
    ∀ (c : TransactVerificationCoordinator) votes votes' now id, votes.Perm votes' →
      (c.arrive κ votes').checkConsensus now id = (c.arrive κ votes).checkConsensus now id := by
  refine ⟨fun c id consensus now decision votes hround hsnapshot hdecided h => ?_,
    fun c votes votes' now id hperm => checkConsensus_perm hperm⟩
  have hopen : consensus.tally.isTimedOut now = false := by
    cases htimeout : consensus.tally.isTimedOut now with
    | false => rfl
    | true => simp [checkConsensus, hround, htimeout] at hdecided
  obtain ⟨consensus', hround', hopen', hmin⟩ := (polled_arrive κ c votes).frame.round hround
  have hvalid : (c.validVoterWallets id).card ≤ (validAfter c id votes).card := Finset.card_le_card Finset.subset_union_left
  rw [checkConsensus_eq hround hopen] at hdecided
  split at hdecided
  swap
  · cases hdecided
  rename_i henough
  rw [← hmin] at henough
  have hafter := fun now' (hnow' : consensus.tally.isTimedOut now' = false) =>
    h.checkConsensus_after hround hround' ((hopen' now').trans hnow') henough
  rw [hmin] at hafter
  split at hdecided
  · -- an approval: the votes still suffice, and the gate has to stay met
    rename_i hneed
    split at hdecided
    swap
    · cases hdecided
    rename_i hmet
    obtain rfl : VerificationVote.valid = decision := by simpa using hdecided
    have hgate := h.gate_iff hround hsnapshot hmet hround'
    simp only [Stays, VerificationVote.isValid, if_true, ← hgate]
    constructor
    · intro hstays
      obtain ⟨decision', hcheck, -⟩ := hstays now hopen
      rw [hafter now hopen, if_pos (hneed.trans hvalid)] at hcheck
      by_contra hfails
      rw [if_neg hfails] at hcheck
      cases hcheck
    · intro hmet' now' hnow'
      exact ⟨.valid, by rw [hafter now' hnow', if_pos (hneed.trans hvalid), if_pos hmet'], rfl⟩
  · -- a rejection: it stays while the valid votes do not suffice
    rename_i hneed
    obtain ⟨reason, rfl⟩ : ∃ reason, decision = .invalid reason := ⟨_, (Option.some.inj (Except.ok.inj hdecided)).symm⟩
    simp only [Stays, VerificationVote.isValid, Bool.false_eq_true, if_false]
    constructor
    · intro hstays
      obtain ⟨decision', hcheck, hinvalid⟩ := hstays now hopen
      by_contra hfails
      rw [hafter now hopen, if_pos (Nat.not_lt.mp hfails)] at hcheck
      split at hcheck
      · obtain rfl : VerificationVote.valid = decision' := by simpa using hcheck
        cases hinvalid
      · cases hcheck
    · intro hfew now' hnow'
      exact ⟨_, by rw [hafter now' hnow', if_neg (Nat.not_le.mpr hfew)], rfl⟩

namespace FinalitySample

open ApprovalSample

/-- An open round in which two of three validators have to agree, and one of them holds most of the stake. -/
def round : TransactVerificationCoordinator :=
  syncOnchainStakes { newWithApprovals.setConsensusThresholds 2 3 with
      localWallet := some (walletName operator)
      pending := (∅ : Table String TransactConsensus).insert request.requestId (.new 1700000001 request 2 3) }
    ((((∅ : Table String Nat).insert (walletName operator) 1).insert (walletName cosigner) 1).insert (walletName absent) 3) 5

def voteOf (peer : NodeId) (wallet : Bytes32) (vote : VerificationVote) : Bool × TransactVerificationResult :=
  (true, ⟨request.requestId, peer, vote, 1700000002, walletName wallet, cosignerSignature⟩)

/-- The two validators that agree have voted. -/
def approved : TransactVerificationCoordinator :=
  round.arrive crypto [voteOf [1] operator .valid, voteOf [3] absent .valid]

def rejected : TransactVerificationCoordinator :=
  round.arrive crypto [voteOf [1] operator .valid, voteOf [2] cosigner (.invalid "self-verify")]

end FinalitySample

open ApprovalSample FinalitySample in
/-- An approval stays when the third validator rejects. -/
theorem approval_stays_rejected : ∃ decision,
    (approved.arrive crypto [voteOf [2] cosigner (.invalid "proof")]).checkConsensus 1700000009 request.requestId =
      .ok (some decision) ∧ decision.isValid = true := by
  have hround : ∃ consensus ∈ approved.pending.lookup request.requestId,
      request.requestId = consensus.request.canonicalId crypto ∧ consensus.tally.isTimedOut 1700000009 = false := by
    decide +kernel
  obtain ⟨consensus, hround, hcanonical, hopen⟩ := hround
  have hfurther : FurtherVotes crypto approved consensus request.requestId [voteOf [2] cosigner (.invalid "proof")] :=
    (furtherVotes_iff ..).mpr ⟨hcanonical, by decide +kernel⟩
  obtain ⟨hdecided, hsnapshot⟩ : approved.checkConsensus 1700000009 request.requestId = .ok (some .valid) ∧
      approved.onchainWallets = approved.onchainStakes.keys.toFinset := by decide +kernel
  have hstays : Stays approved consensus request.requestId [voteOf [2] cosigner (.invalid "proof")] .valid := by
    simp only [Stays, VerificationVote.isValid, if_true]
    decide +kernel
  exact ((decision_stays_iff crypto).1 approved _ consensus _ .valid _ hround hsnapshot hdecided hfurther).mpr hstays _ hopen

open ApprovalSample FinalitySample in
/-- A round that was called rejected is approved by the next vote, which comes from an eligible wallet that had not voted. -/
theorem rejection_overturned : (∃ consensus ∈ rejected.pending.lookup request.requestId,
      FurtherVotes crypto rejected consensus request.requestId [voteOf [3] absent .valid]) ∧
    rejected.checkConsensus 1700000009 request.requestId =
      .ok (some (.invalid "Consensus rejected: 1 valid, 1 invalid (need 2)")) ∧
    (rejected.arrive crypto [voteOf [3] absent .valid]).checkConsensus 1700000009 request.requestId = .ok (some .valid) := by
  refine ⟨?_, by decide +kernel⟩
  have hround : ∃ consensus ∈ rejected.pending.lookup request.requestId,
      request.requestId = consensus.request.canonicalId crypto := by decide +kernel
  obtain ⟨consensus, hround, hcanonical⟩ := hround
  exact ⟨consensus, hround, (furtherVotes_iff ..).mpr ⟨hcanonical, by decide +kernel⟩⟩

end Paraloom.OffChain
