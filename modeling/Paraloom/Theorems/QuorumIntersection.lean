import Paraloom.Lemmas.Quorum

/-!
# Quorums and their intersection

An accepted quorum is a set of distinct active co-signers with strictly more than two thirds of the eligible stake, as long
as doubling that stake stays within 64 bits. Beyond `2 ^ 63` the threshold is computed from a clamped product and falls
behind two thirds.
-/

namespace Paraloom

open QuorumAux

/-- The named accounts pass as a quorum of the registry for the authority. -/
def AcceptedQuorum (s : State) (registry : ValidatorRegistry) (authority : Pubkey) (metas : List AccountMeta) : Prop :=
  verifyValidatorQuorum registry authority (s.activeStakeOf authority) (metas.map s.accountInfo) = .ok ()

/-- A supermajority: the counted wallets are distinct active co-signers other than the authority and hold strictly more than
two thirds of the eligible stake `E`, and at most all of it. -/
structure Supermajority (s : State) (authority : Pubkey) (E : Nat) (metas : List AccountMeta) : Prop where
  nodup : (s.countedWallets authority metas).Nodup
  cosigners : ∀ w ∈ s.countedWallets authority metas, Cosigner s authority metas w
  more_than_two_thirds : 2 * E < 3 * s.countedStakeSum authority metas
  at_most : s.countedStakeSum authority metas ≤ E

/-- The wallets that both lists count hold strictly more than a third of `E`. -/
def MeetInThird (s : State) (authority : Pubkey) (E : Nat) (metas₁ metas₂ : List AccountMeta) : Prop :=
  E < 3 * ∑ w ∈ (s.countedWallets authority metas₁).toFinset ∩ (s.countedWallets authority metas₂).toFinset, s.stakeOf w

/-- The wallets of the pairs that prove a validator. -/
def provenWallets (authority : Pubkey) : List AccountInfo → Finset Pubkey
  | wallet :: pda :: rest =>
    if (provenValidator authority wallet pda).isSome then insert wallet.key (provenWallets authority rest)
    else provenWallets authority rest
  | _ => ∅

namespace QuorumIntersectionAux

def activeValidator (wallet : Pubkey) (stake : Nat) : ProgramAccount ValidatorAccount where
  data := {
    validator := wallet, stakeAmount := stake, reputationScore := 1000, totalTasksVerified := 0,
    successfulVerifications := 0, registeredAt := 0, lastActive := 0, isActive := true, pendingRewards := 0,
    totalEarnings := 0, timesSlashed := 0, unbondingAmount := 0, unbondingSlot := 0, tokenStakeAmount := 0,
    tokenUnbondingAmount := 0 }
  dataLen := validatorAccountSpace

def authorityWallet : Pubkey := .key (LittleEndian.vec 32 1)

def otherWallet : Pubkey := .key (LittleEndian.vec 32 2)

/-- The largest threshold the program computes: two thirds of the largest 64-bit number, plus one. -/
def clampedThreshold : Nat := 6148914691236517206

def clampedState (authorityStake : Nat) : State :=
  { State.genesis ⟨bpfLoaderUpgradeable, []⟩ ∅ ∅ with
    validators := (AList.singleton otherWallet (activeValidator otherWallet clampedThreshold)).insert authorityWallet
      (activeValidator authorityWallet authorityStake) }

/-- The other wallet signs alone. -/
def clampedQuorum : List AccountMeta := [⟨otherWallet, true⟩, ⟨.validator otherWallet, false⟩]

theorem activeStakeOf_clampedState : (clampedState a).activeStakeOf authorityWallet = a := by
  simp [clampedState, State.activeStakeOf, Table.weight, State.activeStakeWeight, activeValidator]

/-- The loop counts the other wallet and its stake. -/
theorem tally_clampedState :
    tallyQuorum authorityWallet (clampedQuorum.map (clampedState a).accountInfo) = ⟨clampedThreshold, [otherWallet]⟩ := by
  have hne : otherWallet ≠ authorityWallet := by decide
  have hlookup : (clampedState a).validators.lookup otherWallet = some (activeValidator otherWallet clampedThreshold) := by
    rw [clampedState, AList.lookup_insert_ne hne]
    rfl
  have hproven : provenValidator authorityWallet ((clampedState a).accountInfo ⟨otherWallet, true⟩)
      ((clampedState a).accountInfo ⟨.validator otherWallet, false⟩) =
        some (activeValidator otherWallet clampedThreshold).data := by
    rw [provenValidator_some_iff]
    refine ⟨rfl, hne, ?_, rfl, ?_, rfl, rfl⟩
    · simp [State.accountInfo, State.owner, State.hasAccount, hlookup]
    · simp [State.accountInfo, State.deserializeValidator, hlookup, activeValidator]
  simp only [clampedQuorum, List.map_cons, List.map_nil, tallyQuorum, countPairs, countPair, hproven]
  rfl

/-- Beyond `2 ^ 63` the lone wallet is a quorum. -/
theorem accepted_clampedQuorum (h : 2 ^ 63 < eligibleStake registry a) :
    AcceptedQuorum (clampedState a) registry authorityWallet clampedQuorum := by
  rw [AcceptedQuorum, verifyValidatorQuorum_ok_iff, tally_clampedState, activeStakeOf_clampedState]
  simp only [clampedThreshold, quorumThreshold, Checked.satMul, Checked.u64Max]
  omega

theorem countedStakeSum_clampedQuorum (a : Nat) :
    (clampedState a).countedStakeSum authorityWallet clampedQuorum ≤ clampedThreshold := by
  have hstake := (counted_tally (clampedState a) authorityWallet clampedQuorum).stake
  simp only [State.countedStakeSum, State.countedWallets]
  rw [tally_clampedState] at hstake ⊢
  simp only [clampedThreshold, Checked.u64Max] at hstake ⊢
  omega

theorem sum_inter_stakeOf (s : State) (authority : Pubkey) (metas₁ : List AccountMeta) :
    ∑ w ∈ (s.countedWallets authority metas₁).toFinset ∩ (s.countedWallets authority metas₂).toFinset, s.stakeOf w =
      ∑ w ∈ (s.countedWallets authority metas₁).toFinset ∩ (s.countedWallets authority metas₂).toFinset, s.activeStakeOf w := by
  apply Finset.sum_congr rfl
  intro w hw
  have hmem := List.mem_toFinset.mp (Finset.mem_inter.mp hw).1
  exact ((counted_tally s authority metas₁).cosigners w hmem).stakeOf_eq

theorem seen_countPairs : ∀ (infos : List AccountInfo) (tally : QuorumTally),
    (countPairs authority tally infos).seen.toFinset = tally.seen.toFinset ∪ provenWallets authority infos
  | [], _ | [_], _ => by simp [countPairs, provenWallets]
  | wallet :: pda :: rest, tally => by
    rw [countPairs, seen_countPairs rest, provenWallets, countPair]
    cases provenValidator authority wallet pda with
    | none => rfl
    | some v =>
      by_cases hseen : wallet.key ∈ tally.seen
      · have hmem : wallet.key ∈ tally.seen.toFinset ∪ provenWallets authority rest := by simp [hseen]
        simp [hseen, Finset.insert_eq_of_mem hmem]
      · simp [hseen]

end QuorumIntersectionAux

open QuorumIntersectionAux

/-- Every accepted quorum for an authority with active stake `a` is a supermajority of the eligible stake, and any two of them
over the same accounts meet in more than a third of it when the registry total is the sum of the active stakes and below
`2 ^ 63`, exactly when the eligible stake is at most `2 ^ 63`. -/
theorem quorum_supermajority_iff (registry : ValidatorRegistry) (a : Nat) :
    (∀ (s : State) (authority : Pubkey), s.activeStakeOf authority = a → ∀ metas₁ metas₂ : List AccountMeta,
      AcceptedQuorum s registry authority metas₁ → AcceptedQuorum s registry authority metas₂ →
        Supermajority s authority (eligibleStake registry a) metas₁ ∧
        Supermajority s authority (eligibleStake registry a) metas₂ ∧
        (registry.totalActiveStake = s.activeStakeSum → registry.totalActiveStake < 2 ^ 63 →
          MeetInThird s authority (eligibleStake registry a) metas₁ metas₂)) ↔
      eligibleStake registry a ≤ 2 ^ 63 := by
  constructor
  · intro h
    by_contra hbig
    have haccept := accepted_clampedQuorum (Nat.lt_of_not_le hbig)
    have hbound := (h _ _ (activeStakeOf_clampedState) _ _ haccept haccept).1.more_than_two_thirds
    have hsum := countedStakeSum_clampedQuorum a
    simp only [clampedThreshold] at hsum
    omega
  · rintro hE s authority rfl metas₁ metas₂ h₁ h₂
    have hb₁ := accepted_bounds h₁ hE
    have hb₂ := accepted_bounds h₂ hE
    have hc₁ := counted_tally s authority metas₁
    have hc₂ := counted_tally s authority metas₂
    refine ⟨⟨hc₁.nodup, hc₁.cosigners, hb₁.1, hb₁.2⟩, ⟨hc₂.nodup, hc₂.cosigners, hb₂.1, hb₂.2⟩, ?_⟩
    intro hsum _
    rw [MeetInThird, sum_inter_stakeOf]
    apply inter_weight_gt
    · rw [← countedStakeSum_eq]
      exact hb₁.1
    · rw [← countedStakeSum_eq]
      exact hb₂.1
    · exact union_stake_le hsum metas₁ metas₂

/-- A registry whose total is one above `2 ^ 63`. -/
def QuorumIntersectionAux.clampedRegistry : ValidatorRegistry where
  authority := authorityWallet
  totalValidators := 2
  activeValidators := 2
  minimumStake := 1000000000
  totalActiveStake := 2 ^ 63 + 1
  stakeMint := .key zero32
  minTokenStake := 0

/-- With a total one above `2 ^ 63` a lone wallet that holds exactly two thirds of the eligible stake passes as a quorum. -/
theorem quorum_exactly_two_thirds_accepted : AcceptedQuorum (clampedState 0) clampedRegistry authorityWallet clampedQuorum ∧
      ¬ Supermajority (clampedState 0) authorityWallet (eligibleStake clampedRegistry 0) clampedQuorum := by
  refine ⟨accepted_clampedQuorum (by decide), fun h => ?_⟩
  have hbound := h.more_than_two_thirds
  have hsum := countedStakeSum_clampedQuorum 0
  have hE : eligibleStake clampedRegistry 0 = 2 ^ 63 + 1 := rfl
  simp only [clampedThreshold] at hsum
  omega

/-- The verdict depends on the set of wallets that the pairs prove, and neither on their order nor on a pair that is repeated or
that proves nothing. -/
theorem quorum_verdict_iff (s : State) (registry : ValidatorRegistry) (authority : Pubkey) (stake : Nat)
    (metas : List AccountMeta) :
    verifyValidatorQuorum registry authority stake (metas.map s.accountInfo) = .ok () ↔
      let counted := min (∑ w ∈ provenWallets authority (metas.map s.accountInfo), s.stakeOf w) Checked.u64Max
      counted ≤ eligibleStake registry stake ∧ quorumThreshold (eligibleStake registry stake) ≤ counted := by
  have hcounted := counted_tally s authority metas
  rw [verifyValidatorQuorum_ok_iff, hcounted.stake, ← List.sum_toFinset _ hcounted.nodup, tallyQuorum, seen_countPairs]
  simp

end Paraloom
