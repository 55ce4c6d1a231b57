import Paraloom.Quorum

/-!
# What the quorum loop counts

Whatever accounts a transaction names, the loop counts distinct wallets that signed it, are not the settlement authority and
own an active validator account, and the stake it counts is the sum of their stakes, clamped at 64 bits.
-/

namespace Paraloom

open List

def State.stakeOf (s : State) (wallet : Pubkey) : Nat :=
  (s.deserializeValidator (findValidatorAddress wallet)).elim 0 ValidatorAccount.stakeAmount

structure Cosigner (s : State) (authority : Pubkey) (metas : List AccountMeta) (wallet : Pubkey) : Prop where
  signed : ⟨wallet, true⟩ ∈ metas
  ne_authority : wallet ≠ authority
  active : ∃ v, s.deserializeValidator (findValidatorAddress wallet) = some v ∧ v.isActive = true ∧ v.validator = wallet

def State.countedWallets (s : State) (authority : Pubkey) (metas : List AccountMeta) : List Pubkey :=
  (tallyQuorum authority (metas.map s.accountInfo)).seen

namespace QuorumAux

/-- A property that every pair keeps holds after the loop. -/
theorem countPairs_induction {P : QuorumTally → Prop} : ∀ (infos : List AccountInfo) (tally : QuorumTally),
    P tally → (∀ t, ∀ w ∈ infos, ∀ p ∈ infos, P t → P (countPair authority t w p)) → P (countPairs authority tally infos)
  | [], _, h, _ => h
  | [_], _, h, _ => h
  | w :: p :: rest, tally, h, hstep => by
    rw [countPairs]
    apply countPairs_induction rest
    · exact hstep tally w (by simp) p (by simp) h
    · intro t w' hw' p' hp' ht
      exact hstep t w' (by simp [hw']) p' (by simp [hp']) ht

theorem countPair_cases (hm : m ∈ metas) : countPair authority tally (s.accountInfo m) (s.accountInfo p) = tally ∨
      (m.key ∉ tally.seen ∧ Cosigner s authority metas m.key ∧
        countPair authority tally (s.accountInfo m) (s.accountInfo p) =
          ⟨Checked.satAdd tally.countedStake (s.stakeOf m.key), tally.seen ++ [m.key]⟩) := by
  cases hv : provenValidator authority (s.accountInfo m) (s.accountInfo p) with
  | none => exact .inl (by rw [countPair, hv])
  | some v =>
    obtain ⟨hsigner, hauth, -, hkey, hdata, hactive, hval⟩ := provenValidator_some_iff.mp hv
    by_cases hseen : m.key ∈ tally.seen
    · exact .inl (by rw [countPair, hv]; exact if_pos hseen)
    · have hmeta : (⟨m.key, true⟩ : AccountMeta) ∈ metas := by
        have hm' : m = ⟨m.key, true⟩ := by rw [← hsigner]; rfl
        exact hm' ▸ hm
      have hdata' : s.deserializeValidator (findValidatorAddress m.key) = some v := hkey ▸ hdata
      refine .inr ⟨hseen, ⟨hmeta, hauth, v, hdata', hactive, hval⟩, ?_⟩
      rw [countPair, hv, State.stakeOf, hdata']
      exact if_neg hseen

/-- What the loop has counted: distinct co-signers and the sum of their stakes. -/
structure Counted (s : State) (authority : Pubkey) (metas : List AccountMeta) (tally : QuorumTally) : Prop where
  nodup : tally.seen.Nodup
  cosigners : ∀ w ∈ tally.seen, Cosigner s authority metas w
  stake : tally.countedStake = min (tally.seen.map s.stakeOf).sum Checked.u64Max

theorem Counted.countPair (h : Counted s authority metas tally) (hm : m ∈ metas) :
    Counted s authority metas (countPair authority tally (s.accountInfo m) (s.accountInfo p)) := by
  rcases countPair_cases (p := p) hm with hskip | ⟨hnew, hcosigner, hadd⟩
  · rwa [hskip]
  · rw [hadd]
    refine ⟨?_, ?_, ?_⟩
    · simpa [nodup_append, h.nodup] using fun w hw (e : w = m.key) => hnew (e ▸ hw)
    · intro w hw
      rcases mem_append.mp hw with hw | hw
      · exact h.cosigners w hw
      · rw [mem_singleton.mp hw]
        exact hcosigner
    · simp only [Checked.satAdd, h.stake, map_append, sum_append, map_cons, map_nil, sum_cons,
        sum_nil]
      omega

/-- The loop counts right, whatever accounts it is given. -/
theorem counted_tally (s : State) (authority : Pubkey) (metas : List AccountMeta) :
    Counted s authority metas (tallyQuorum authority (metas.map s.accountInfo)) := by
  apply countPairs_induction
  · exact ⟨nodup_nil, by simp, by simp⟩
  · intro t w hw p hp ht
    obtain ⟨m, hm, rfl⟩ := mem_map.mp hw
    obtain ⟨q, -, rfl⟩ := mem_map.mp hp
    exact ht.countPair hm

end QuorumAux

open QuorumAux

def State.countedStakeSum (s : State) (authority : Pubkey) (metas : List AccountMeta) : Nat :=
  ((s.countedWallets authority metas).map s.stakeOf).sum

/-- Up to an eligible stake of `2 ^ 63` the threshold is exact, and an accepted list counts more than two thirds of it. -/
theorem accepted_bounds {s : State} (h : verifyValidatorQuorum registry authority stake (metas.map s.accountInfo) = .ok ())
    (hE : eligibleStake registry stake ≤ 2 ^ 63) :
    2 * eligibleStake registry stake < 3 * s.countedStakeSum authority metas ∧
      s.countedStakeSum authority metas ≤ eligibleStake registry stake := by
  obtain ⟨hle, hge⟩ := verifyValidatorQuorum_ok_iff.mp h
  have hstake := (counted_tally s authority metas).stake
  rw [hstake] at hle hge
  simp only [quorumThreshold, Checked.satMul, Checked.u64Max] at hle hge
  simp only [State.countedStakeSum, State.countedWallets]
  omega

theorem Cosigner.stakeOf_eq (h : Cosigner s authority metas w) : s.stakeOf w = s.activeStakeOf w := by
  obtain ⟨v, hv, hactive, -⟩ := h.active
  rw [State.stakeOf, hv, State.activeStakeOf, Table.weight]
  simp only [State.deserializeValidator, findValidatorAddress] at hv
  cases ha : s.validators.lookup w with
  | none => simp [ha] at hv
  | some a =>
    simp only [ha, Option.bind_some, Option.ite_none_right_eq_some, Option.some.injEq] at hv
    simp [State.activeStakeWeight, hv.2, hactive]

/-- Two sets that each weigh more than two thirds of a bound on their union meet in more than a third of it. -/
theorem inter_weight_gt [DecidableEq K] (f : K → Nat) (A B : Finset K) (hA : 2 * E < 3 * ∑ k ∈ A, f k)
    (hB : 2 * E < 3 * ∑ k ∈ B, f k) (hU : ∑ k ∈ A ∪ B, f k ≤ E) : E < 3 * ∑ k ∈ A ∩ B, f k := by
  have hsplit : ∑ k ∈ A ∪ B, f k + ∑ k ∈ A ∩ B, f k = ∑ k ∈ A, f k + ∑ k ∈ B, f k := Finset.sum_union_inter
  omega

/-- The wallets two lists count together hold no more than the eligible stake, if the registry total is the sum of the active
stakes. -/
theorem union_stake_le {s : State} (hsum : registry.totalActiveStake = s.activeStakeSum) (metas₁ metas₂ : List AccountMeta) :
    ∑ w ∈ (s.countedWallets authority metas₁).toFinset ∪ (s.countedWallets authority metas₂).toFinset, s.activeStakeOf w ≤
      eligibleStake registry (s.activeStakeOf authority) := by
  have hnot : authority ∉ (s.countedWallets authority metas₁).toFinset ∪ (s.countedWallets authority metas₂).toFinset := by
    simp only [Finset.mem_union, mem_toFinset, not_or]
    exact ⟨fun h => ((counted_tally s authority metas₁).cosigners _ h).ne_authority rfl,
      fun h => ((counted_tally s authority metas₂).cosigners _ h).ne_authority rfl⟩
  have hle := Table.sum_weight_le_total State.activeStakeWeight s.validators
    (insert authority ((s.countedWallets authority metas₁).toFinset ∪ (s.countedWallets authority metas₂).toFinset))
  rw [Finset.sum_insert hnot] at hle
  simp only [eligibleStake, Checked.satSub, hsum, State.activeStakeSum, State.activeStakeOf]
  omega

theorem countedStakeSum_eq (s : State) (authority : Pubkey) (metas : List AccountMeta) :
    s.countedStakeSum authority metas = ∑ w ∈ (s.countedWallets authority metas).toFinset, s.activeStakeOf w := by
  have hcounted := counted_tally s authority metas
  rw [State.countedStakeSum, State.countedWallets, sum_toFinset _ hcounted.nodup]
  congr 1
  apply map_congr_left
  intro w hw
  exact (hcounted.cosigners w hw).stakeOf_eq

end Paraloom
