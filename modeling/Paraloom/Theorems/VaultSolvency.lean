import Paraloom.Lemmas.Program

/-!
# The vault covers what it owes

The bridge vault owes the deposits that have not been withdrawn and the rewards that have not been claimed. Every step of the
chain moves both sides by the same amount, except for lamports that somebody gives to the vault.
-/

namespace Paraloom
namespace VaultSolvencyAux

variable {Γ : Ctx} {clock : Clock} {s s' : State}

/-- From `s` to `s'` the vault gained `n` lamports more than what it owes did. -/
def Flow (s s' : State) (n : Nat) : Prop :=
  s'.balance .bridgeVault + s'.totalWithdrawn + s.totalDeposited + s.pendingRewardsSum =
    s.balance .bridgeVault + s.totalWithdrawn + s'.totalDeposited + s'.pendingRewardsSum + n

theorem flow_of_same (hd : s'.totalDeposited = s.totalDeposited) (hw : s'.totalWithdrawn = s.totalWithdrawn)
    (hp : s'.pendingRewardsSum = s.pendingRewardsSum) (hb : s'.balance .bridgeVault = s.balance .bridgeVault) :
    Flow s s' 0 := by
  unfold Flow
  omega

theorem vault_of_moved {l l' : Ledger Pubkey} (h : l.Moved a b n l') (ha : .bridgeVault ≠ a) (hb : .bridgeVault ≠ b) :
    l'.balance .bridgeVault = l.balance .bridgeVault :=
  h.balance_of_ne ha hb

theorem pending_insert (h : s.validators.lookup wallet = some v) (hw : w.data.pendingRewards = v.data.pendingRewards) :
    Table.total (fun _ a => a.data.pendingRewards) (s.validators.insert wallet w) = s.pendingRewardsSum := by
  have := Table.total_insert (fun _ a => a.data.pendingRewards) w h
  unfold State.pendingRewardsSum
  omega

theorem payout_add_fee (extAmount : Int64) : nativePayout extAmount + nativeFee extAmount = extAmount.toInt.natAbs := by
  unfold nativePayout nativeFee withdrawalFeeBps
  omega

theorem flow_depositNote (h : depositNote Γ clock s depositor amount pubkey blinding = .ok s') : Flow s s' 0 := by
  obtain ⟨bridge, _, lamports, _, _, _, _, hb, -, -, -, hpay, -, -, rfl⟩ := depositNote_ok h
  have hvault := hpay.balance_target (by simp)
  simp only [Flow, State.totalDeposited, State.totalWithdrawn, State.balance, State.pendingRewardsSum, hb, Option.elim_some,
    hvault]
  omega

theorem vault_settle {authority : Signer} (h : SettleOk Γ s authority recipient assetOf args st) :
    st.lamports.balance .bridgeVault = s.balance .bridgeVault := by
  obtain ⟨_, _, lamports0, hpay0, hpay1⟩ := h.lamports
  rw [vault_of_moved hpay1 (by simp) (by simp), vault_of_moved hpay0 (by simp) (by simp), State.balance]

theorem flow_transact (h : transact Γ clock s authority recipient quorum args = .ok s') :
    Flow s s' (Action.program clock (.transact authority recipient quorum args)).intoVault := by
  obtain ⟨-, st, lamports, hst, hpay, _, rfl⟩ := transact_ok h
  have hpending := Table.total_insert (fun _ a => a.data.pendingRewards)
    { st.validator with data := { st.validator.data.settledOne clock with
      pendingRewards := st.validator.data.pendingRewards + nativeFee args.extAmount } } hst.validator
  have hvault := hpay.change .bridgeVault
  have hsum := payout_add_fee args.extAmount
  have hgift : (Action.program clock (.transact authority recipient quorum args)).intoVault =
      if .bridgeVault = recipient then nativePayout args.extAmount else 0 := by
    cases recipient <;> rfl
  rw [vault_settle hst, if_pos rfl] at hvault
  simp only [Flow, State.totalDeposited, State.totalWithdrawn, State.balance, State.pendingRewardsSum, hst.bridge,
    Option.elim_some, hgift] at hpending hvault ⊢
  omega

theorem flow_claimRewards (h : claimRewards clock s validator = .ok s') : Flow s s' 0 := by
  obtain ⟨v, earnings, lamports, hv, hpay, rfl⟩ := claimRewards_ok h
  have hpending := Table.total_insert (fun _ a => a.data.pendingRewards)
    { v with data := { v.data with pendingRewards := 0, totalEarnings := earnings } } hv
  have hvault := hpay.balance_source (by simp)
  simp only [Flow, State.totalDeposited, State.totalWithdrawn, State.balance, State.pendingRewardsSum] at hpending hvault ⊢
  omega

/-- A closed account has no rewards left. -/
theorem flow_withdrawUnbondedStake {validator : Signer} (h : withdrawUnbondedStake Γ clock s validator account = .ok s') :
    Flow s s' 0 := by
  obtain ⟨v, _, _, lamports0, lamports, _, hv, -, -, -, -, -, hzero, hpay, hclose, -, rfl⟩ := withdrawUnbondedStake_ok h
  have hpending := Table.total_erase (fun _ a => a.data.pendingRewards) hv
  refine flow_of_same rfl rfl ?_ ?_
  · simp only [State.pendingRewardsSum]
    omega
  · exact (vault_of_moved hclose (by simp) (by simp)).trans (vault_of_moved hpay (by simp) (by simp))

theorem flow_of_instruction {ix : Instruction} (h : ix.exec Γ clock s = .ok s') :
    Flow s s' (Action.program clock ix).intoVault := by
  by_cases hk : ix.housekeeping = true
  · have hkept := Instruction.housekept h hk
    have hgift : (Action.program clock ix).intoVault = 0 := by cases ix <;> first | rfl | cases hk
    rw [hgift]
    refine flow_of_same hkept.deposited hkept.withdrawn ?_ hkept.bridgeVault
    rw [State.pendingRewardsSum, hkept.validators, State.pendingRewardsSum]
  cases ix with
  | initializeMerkleTree =>
    obtain ⟨-, _, _, hpay, rfl⟩ := initializeMerkleTree_ok h
    exact flow_of_same rfl rfl rfl (vault_of_moved hpay (by simp) (by simp))
  | depositNote => exact flow_depositNote h
  | transact => exact flow_transact h
  | transactSpl =>
    obtain ⟨st, _, _, hst, -, -, -, rfl⟩ := transactSpl_ok h
    exact flow_of_same (by simp [State.totalDeposited, hst.bridge]) (by simp [State.totalWithdrawn, hst.bridge])
      (pending_insert hst.validator rfl) (vault_settle hst)
  | depositNoteSpl =>
    obtain ⟨_, _, _, _, _, _, _, -, -, -, -, -, -, -, -, rfl⟩ := depositNoteSpl_ok h
    exact flow_of_same rfl rfl rfl rfl
  | initializeValidatorRegistry =>
    obtain ⟨-, -, _, _, _, lamports0, _, -, -, -, hpay0, hpay1, rfl⟩ := initializeValidatorRegistry_ok h
    exact flow_of_same rfl rfl rfl ((vault_of_moved hpay1 (by simp) (by simp)).trans (vault_of_moved hpay0 (by simp) (by simp)))
  | initStakeTokenVault =>
    obtain ⟨-, _, _, hpay, rfl⟩ := initStakeTokenVault_ok h
    exact flow_of_same rfl rfl rfl (vault_of_moved hpay (by simp) (by simp))
  | setMinTokenStake =>
    obtain ⟨_, -, rfl⟩ := setMinTokenStake_ok h
    exact flow_of_same rfl rfl rfl rfl
  | resetValidatorRegistry =>
    obtain ⟨_, _, _, _, -, -, -, -, -, -, hpay, rfl⟩ := resetValidatorRegistry_ok h
    exact flow_of_same rfl rfl rfl (vault_of_moved hpay (by simp) (by simp))
  | registerValidator =>
    obtain ⟨hnew, -, _, _, _, _, lamports0, _, _, -, hrent, -, hpay, -, -, -, -, rfl⟩ := registerValidator_ok h
    refine flow_of_same rfl rfl ?_ ((vault_of_moved hpay (by simp) (by simp)).trans (vault_of_moved hrent (by simp) (by simp)))
    exact Table.total_insert_new _ _ hnew
  | unregisterValidator =>
    obtain ⟨v, _, hv, -, -, rfl⟩ := unregisterValidator_ok h
    exact flow_of_same rfl rfl (pending_insert hv rfl) rfl
  | deactivateValidator =>
    obtain ⟨v, _, hv, -, ⟨-, rfl⟩ | ⟨-, rfl⟩⟩ := deactivateValidator_ok h
    · exact flow_of_same rfl rfl rfl rfl
    · exact flow_of_same rfl rfl (pending_insert hv rfl) rfl
  | withdrawUnbondedStake => exact flow_withdrawUnbondedStake h
  | slashValidator =>
    obtain ⟨v, registry, _, _, hv, -, -, -, hpay, -, rfl⟩ := slashValidator_ok h
    exact flow_of_same rfl rfl (pending_insert hv (v.data.slash_pendingRewards _ _ _)) (vault_of_moved hpay (by simp) (by simp))
  | claimRewards => exact flow_claimRewards h
  | updateReputation =>
    obtain ⟨v, hv, rfl⟩ := updateReputation_ok h
    exact flow_of_same rfl rfl (pending_insert hv rfl) rfl
  | migrateValidatorAccount =>
    obtain rfl | ⟨v, _, hv, -, hpay, rfl⟩ := migrateValidatorAccount_ok h
    · exact flow_of_same rfl rfl rfl rfl
    · exact flow_of_same rfl rfl (pending_insert hv rfl) (vault_of_moved hpay (by simp) (by simp))
  | _ => exact absurd rfl hk

theorem flow_of_step (h : Step Γ s a s') : Flow s s' a.intoVault := by
  cases a with
  | program clock ix => exact flow_of_instruction h
  | systemTransfer source target amount =>
    obtain ⟨lamports, hpay, rfl⟩ := systemTransfer_ok h
    have hvault := hpay.change .bridgeVault
    have hgift : (Action.systemTransfer source target amount).intoVault =
        if .bridgeVault = target then amount.toNat else 0 := by
      cases target <;> rfl
    rw [if_neg (by simp)] at hvault
    simp only [Flow, State.totalDeposited, State.totalWithdrawn, State.balance, State.pendingRewardsSum, hgift]
    omega
  | tokenTransfer =>
    obtain ⟨_, -, rfl⟩ := tokenTransfer_ok h
    exact flow_of_same rfl rfl rfl rfl
  | openTokenAccount =>
    obtain rfl := openTokenAccount_ok h
    exact flow_of_same rfl rfl rfl rfl

/-- A whole run: the vault gained exactly the gifts more than what it owes did. -/
theorem flow_of_execution (h : Execution Γ s actions s') : Flow s s' (actions.map Action.intoVault).sum := by
  refine h.induction (P := fun as t => Flow s t (as.map Action.intoVault).sum) (flow_of_same rfl rfl rfl rfl) ?_
  intro as t a u _ hflow hstep
  have hlast := flow_of_step hstep
  simp only [Flow, List.map_append, List.map_singleton, List.sum_append, List.sum_singleton] at hflow hlast ⊢
  omega

theorem books (h : Execution Γ (.genesis programData tokens lamports) actions s) :
    s.balance .bridgeVault + s.totalWithdrawn = lamports.balance .bridgeVault + s.totalDeposited + s.pendingRewardsSum +
      (actions.map Action.intoVault).sum := by
  have hflow := flow_of_execution h
  have hstart : (State.genesis programData tokens lamports).pendingRewardsSum = 0 := Table.total_empty _
  simp only [Flow, hstart] at hflow
  simp only [State.genesis, State.totalDeposited, State.totalWithdrawn, State.balance, Option.elim_none] at hflow ⊢
  omega

end VaultSolvencyAux

/-- In every state of the chain the lamports of the vault and what was withdrawn cover what was deposited and the rewards that
are still to be claimed, with equality if the vault was never given anything. -/
theorem vault_solvent {Γ : Ctx} {programData : RawAccount} {tokens : Table Pubkey TokenAccount} {lamports : Ledger Pubkey}
    {actions : List Action} {s : State} (h : Execution Γ (.genesis programData tokens lamports) actions s) :
    s.totalDeposited + s.pendingRewardsSum ≤ s.balance .bridgeVault + s.totalWithdrawn ∧
      (lamports.balance .bridgeVault = 0 → (∀ a ∈ actions, a.intoVault = 0) →
        s.balance .bridgeVault + s.totalWithdrawn = s.totalDeposited + s.pendingRewardsSum) := by
  have hbooks := VaultSolvencyAux.books h
  refine ⟨by omega, fun hempty hgifts => ?_⟩
  have hsum : (actions.map Action.intoVault).sum = 0 := by
    rw [List.sum_eq_zero_iff]
    intro n hn
    obtain ⟨a, ha, rfl⟩ := List.mem_map.mp hn
    exact hgifts a ha
  omega

/-- The sample run deposits, donates, settles and claims. -/
theorem vault_solvent_sample : ∃ s, Execution Sample.ctx Sample.genesis Sample.settlement s ∧
    s.totalDeposited = 1000000000 ∧ s.totalWithdrawn = 400000000 ∧
    s.totalDeposited + s.pendingRewardsSum ≤ s.balance .bridgeVault + s.totalWithdrawn := by
  have hsucceeds : succeedsWith Sample.ctx Sample.genesis Sample.settlement
      (fun s => s.totalDeposited = 1000000000 ∧ s.totalWithdrawn = 400000000) = true := by decide +kernel
  obtain ⟨s, hrun, hcheck⟩ := exists_execution hsucceeds
  obtain ⟨hdeposited, hwithdrawn⟩ := of_decide_eq_true hcheck
  exact ⟨s, hrun, hdeposited, hwithdrawn, (vault_solvent hrun).1⟩

end Paraloom
