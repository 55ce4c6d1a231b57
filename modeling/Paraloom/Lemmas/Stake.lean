import Paraloom.Lemmas.Program

/-!
# The steps that touch stakes

What a step does to the stakes: where the stake of every validator account stands, the counters of the registry, and the
lamports that back an account. Seven instructions are about stakes; every other step keeps them.
-/

namespace Paraloom

open Option

/-- Where the stake of a validator account stands. -/
structure Position where
  isActive : Bool
  stakeAmount : Nat
  unbondingAmount : Nat
  unbondingSlot : Nat
  tokenStakeAmount : Nat
  tokenUnbondingAmount : Nat

def ValidatorAccount.position (v : ValidatorAccount) : Position where
  isActive := v.isActive
  stakeAmount := v.stakeAmount
  unbondingAmount := v.unbondingAmount
  unbondingSlot := v.unbondingSlot
  tokenStakeAmount := v.tokenStakeAmount
  tokenUnbondingAmount := v.tokenUnbondingAmount

namespace State

def position (s : State) (wallet : Pubkey) : Option Position := (s.validators.lookup wallet).map (·.data.position)

def counters (s : State) : Option (Nat × Nat × Nat) :=
  s.validatorRegistry.map fun r => (r.data.activeValidators, r.data.totalActiveStake, r.data.minimumStake)

end State

/-- The stakes are as before: no position and no counter changed, no account lost lamports, and an account that grew was given
the rent for it. -/
structure StakeKept (Γ : Ctx) (s s' : State) : Prop where
  position : ∀ w, s'.position w = s.position w
  counters : s'.counters = s.counters
  lamports : ∀ w, s.balance (.validator w) ≤ s'.balance (.validator w)
  rent : ∀ w v v', s.validators.lookup w = some v → s'.validators.lookup w = some v' →
    s.balance (.validator w) + Γ.minimumBalance v'.dataLen ≤ s'.balance (.validator w) + Γ.minimumBalance v.dataLen
  supply : s'.lamports.supply = s.lamports.supply

theorem StakeKept.account (h : StakeKept Γ s s') (hv' : s'.validators.lookup w = some v') :
    ∃ v, s.validators.lookup w = some v ∧ v.data.position = v'.data.position := by
  have hpos := h.position w
  rw [State.position, hv', State.position, map_some] at hpos
  exact map_eq_some_iff.mp hpos.symm

theorem StakeKept.total (h : StakeKept Γ s s') (F : Position → Nat) :
    Table.total (fun _ a => F a.data.position) s'.validators = Table.total (fun _ a => F a.data.position) s.validators := by
  refine Table.total_congr fun w => ?_
  have hpos := congrArg (fun p => Option.elim p 0 F) (h.position w)
  simp only [State.position, elim_map] at hpos
  exact hpos

def Action.staking : Action → Bool
  | .program _ (.initializeValidatorRegistry ..) => true
  | .program _ (.resetValidatorRegistry ..) => true
  | .program _ (.registerValidator ..) => true
  | .program _ (.unregisterValidator ..) => true
  | .program _ (.deactivateValidator ..) => true
  | .program _ (.withdrawUnbondedStake ..) => true
  | .program _ (.slashValidator ..) => true
  | _ => false

inductive StakeStep (Γ : Ctx) (s : State) : Action → State → Prop where
  | quiet {a : Action} {s' : State} (other : a.staking = false) (kept : StakeKept Γ s s') : StakeStep Γ s a s'
  | create {s' : State} {clock : Clock} {authority : Signer} {mint : Pubkey}
      (h : initializeValidatorRegistry Γ s authority mint = .ok s') :
      StakeStep Γ s (.program clock (.initializeValidatorRegistry authority mint)) s'
  | reset {s' : State} {clock : Clock} {authority : Signer} {mint : Pubkey} {expected : UInt64} {accounts : List Pubkey}
      (h : resetValidatorRegistry Γ clock s authority mint expected accounts = .ok s') :
      StakeStep Γ s (.program clock (.resetValidatorRegistry authority mint expected accounts)) s'
  | register {s' : State} {clock : Clock} {validator : Signer} {account : Pubkey} {stake tokenStake : UInt64}
      (h : registerValidator Γ clock s validator account stake tokenStake = .ok s') :
      StakeStep Γ s (.program clock (.registerValidator validator account stake tokenStake)) s'
  | unregister {s' : State} {clock : Clock} {validator : Signer} (h : unregisterValidator clock s validator = .ok s') :
      StakeStep Γ s (.program clock (.unregisterValidator validator)) s'
  | deactivate {s' : State} {clock : Clock} {authority : Signer} {wallet : Pubkey}
      (h : deactivateValidator clock s authority wallet = .ok s') :
      StakeStep Γ s (.program clock (.deactivateValidator authority wallet)) s'
  | withdraw {s' : State} {clock : Clock} {validator : Signer} {account : Pubkey}
      (h : withdrawUnbondedStake Γ clock s validator account = .ok s') :
      StakeStep Γ s (.program clock (.withdrawUnbondedStake validator account)) s'
  | slash {s' : State} {clock : Clock} {authority : Signer} {wallet validator : Pubkey} {pct : UInt8}
      (h : slashValidator clock s authority wallet validator pct = .ok s') :
      StakeStep Γ s (.program clock (.slashValidator authority wallet validator pct)) s'

/-- A slash of at most everything takes at most what is at risk. -/
theorem slashOf_le (h : pct.toNat ≤ 100) (amount : Nat) : slashOf amount pct ≤ amount := by
  unfold slashOf
  have : amount * pct.toNat ≤ amount * 100 := Nat.mul_le_mul_left amount h
  omega

theorem slash_cases (v : ValidatorAccount) (registry : ValidatorRegistry) (pct : UInt8) (clock : Clock) :
    (v.isActive = false ∧ registry.slash v pct = registry ∧
      (v.slash registry.minimumStake pct clock).position = { v.position with
        unbondingAmount := v.unbondingAmount - slashOf v.unbondingAmount pct
        tokenUnbondingAmount := v.tokenUnbondingAmount - slashOf v.tokenUnbondingAmount pct }) ∨
    (v.isActive = true ∧ registry.minimumStake ≤ v.stakeAmount - slashOf v.stakeAmount pct ∧
      registry.slash v pct = { registry with
        totalActiveStake := registry.totalActiveStake - slashOf v.stakeAmount pct } ∧
      (v.slash registry.minimumStake pct clock).position = { v.position with
        stakeAmount := v.stakeAmount - slashOf v.stakeAmount pct
        tokenStakeAmount := v.tokenStakeAmount - slashOf v.tokenStakeAmount pct }) ∨
    (v.isActive = true ∧ registry.slash v pct = registry.drop v.stakeAmount ∧
      (v.slash registry.minimumStake pct clock).position = {
        isActive := false
        stakeAmount := 0
        unbondingAmount := Checked.satAdd v.unbondingAmount (v.stakeAmount - slashOf v.stakeAmount pct)
        unbondingSlot := unbondingSlotAt clock
        tokenStakeAmount := 0
        tokenUnbondingAmount :=
          Checked.satAdd v.tokenUnbondingAmount (v.tokenStakeAmount - slashOf v.tokenStakeAmount pct) }) := by
  cases hactive : v.isActive with
  | false =>
    left
    simp [ValidatorRegistry.slash, ValidatorAccount.slash, ValidatorAccount.position, ValidatorAccount.atRisk,
      ValidatorAccount.tokenAtRisk, Checked.satSub, hactive]
  | true =>
    right
    by_cases hmin : v.stakeAmount - slashOf v.stakeAmount pct < registry.minimumStake
    · right
      simp [ValidatorRegistry.slash, ValidatorAccount.slash, ValidatorAccount.position, ValidatorAccount.atRisk,
        ValidatorAccount.tokenAtRisk, ValidatorAccount.unbond, Checked.satSub, hactive, hmin]
    · left
      simp [ValidatorRegistry.slash, ValidatorAccount.slash, ValidatorAccount.position, ValidatorAccount.atRisk,
        ValidatorAccount.tokenAtRisk, Checked.satSub, hactive, hmin]
      omega

namespace StakeAux

theorem kept (hv : s'.validators = s.validators) (hr : s'.validatorRegistry = s.validatorRegistry)
    (hl : ∀ w, s.balance (.validator w) ≤ s'.balance (.validator w)) (hs : s'.lamports.supply = s.lamports.supply) :
    StakeKept Γ s s' := by
  refine ⟨fun w => ?_, ?_, hl, ?_, hs⟩
  · rw [State.position, hv, State.position]
  · rw [State.counters, hr, State.counters]
  · intro w v v' hold hnew
    rw [hv, hold, some.injEq] at hnew
    rw [hnew]
    exact Nat.add_le_add_right (hl w) _

/-- The same for one payment that no validator account makes. -/
theorem kept_of_moved (hv : s'.validators = s.validators) (hr : s'.validatorRegistry = s.validatorRegistry)
    (hpay : s.lamports.Moved a b n s'.lamports) (ha : ∀ w, .validator w ≠ a) : StakeKept Γ s s' :=
  kept hv hr (fun w => hpay.le_balance (ha w)) hpay.supply

theorem kept_of_touch (hold : s.validators.lookup wallet = some v) (hv : s'.validators = s.validators.insert wallet v')
    (hpos : v'.data.position = v.data.position) (hr : s'.validatorRegistry = s.validatorRegistry)
    (hl : ∀ w, s.balance (.validator w) ≤ s'.balance (.validator w)) (hs : s'.lamports.supply = s.lamports.supply)
    (hrent : s.balance (.validator wallet) + Γ.minimumBalance v'.dataLen ≤
      s'.balance (.validator wallet) + Γ.minimumBalance v.dataLen) : StakeKept Γ s s' := by
  refine ⟨fun w => ?_, ?_, hl, ?_, hs⟩
  · rw [State.position, State.position, hv, Table.lookup_insert_if]
    by_cases hw : w = wallet
    · rw [if_pos hw, hw, hold, map_some, map_some, hpos]
    · rw [if_neg hw]
  · rw [State.counters, hr, State.counters]
  · intro w u u' hu hu'
    rw [hv] at hu'
    rcases Table.lookup_insert_eq_some.mp hu' with ⟨rfl, rfl⟩ | ⟨-, hu'⟩
    · obtain rfl := some.inj (hold.symm.trans hu)
      exact hrent
    · obtain rfl := some.inj (hu.symm.trans hu')
      exact Nat.add_le_add_right (hl w) _

theorem settle_lamports (h : SettleOk Γ s authority recipient assetOf args st) :
    (∀ w, s.balance (.validator w) ≤ st.lamports.balance (.validator w)) ∧ st.lamports.supply = s.lamports.supply := by
  obtain ⟨_, _, lamports0, hpay0, hpay1⟩ := h.lamports
  exact ⟨fun w => (hpay0.le_balance (by simp)).trans (hpay1.le_balance (by simp)), hpay1.supply.trans hpay0.supply⟩

theorem stakeStep_of_instruction (h : ix.exec Γ clock s = .ok s') : StakeStep Γ s (.program clock ix) s' := by
  by_cases hk : ix.housekeeping = true
  · have hkept := Instruction.housekept h hk
    refine .quiet ?_ (kept hkept.validators hkept.validatorRegistry hkept.lamports hkept.supply)
    cases ix <;> first | rfl | cases hk
  cases ix with
  | initializeMerkleTree =>
    obtain ⟨-, _, _, hpay, rfl⟩ := initializeMerkleTree_ok h
    exact .quiet rfl (kept_of_moved rfl rfl hpay (by simp))
  | depositNote =>
    obtain ⟨_, _, _, _, _, _, _, -, -, -, -, hpay, -, -, rfl⟩ := depositNote_ok h
    exact .quiet rfl (kept_of_moved rfl rfl hpay (by simp))
  | transact =>
    obtain ⟨-, st, _, hst, hpay, _, rfl⟩ := transact_ok h
    obtain ⟨hl, hs⟩ := settle_lamports hst
    have hpdas : ∀ w, s.balance (.validator w) ≤ _ := fun w => (hl w).trans (hpay.le_balance (by simp))
    exact .quiet rfl (kept_of_touch hst.validator rfl rfl rfl hpdas (hpay.supply.trans hs) (Nat.add_le_add_right (hpdas _) _))
  | transactSpl =>
    obtain ⟨st, _, _, hst, -, -, -, rfl⟩ := transactSpl_ok h
    obtain ⟨hl, hs⟩ := settle_lamports hst
    exact .quiet rfl (kept_of_touch hst.validator rfl rfl rfl hl hs (Nat.add_le_add_right (hl _) _))
  | depositNoteSpl =>
    obtain ⟨_, _, _, _, _, _, _, -, -, -, -, -, -, -, -, rfl⟩ := depositNoteSpl_ok h
    exact .quiet rfl (kept rfl rfl (fun _ => Nat.le_refl _) rfl)
  | initializeValidatorRegistry => exact .create h
  | initStakeTokenVault =>
    obtain ⟨-, _, _, hpay, rfl⟩ := initStakeTokenVault_ok h
    exact .quiet rfl (kept_of_moved rfl rfl hpay (by simp))
  | setMinTokenStake =>
    obtain ⟨registry, hr, rfl⟩ := setMinTokenStake_ok h
    have hkept : StakeKept Γ s s := kept rfl rfl (fun _ => Nat.le_refl _) rfl
    exact .quiet rfl ⟨hkept.position, by simp [State.counters, hr], hkept.lamports, hkept.rent, hkept.supply⟩
  | resetValidatorRegistry => exact .reset h
  | registerValidator => exact .register h
  | unregisterValidator => exact .unregister h
  | deactivateValidator => exact .deactivate h
  | withdrawUnbondedStake => exact .withdraw h
  | slashValidator => exact .slash h
  | claimRewards =>
    obtain ⟨v, _, _, hv, hpay, rfl⟩ := claimRewards_ok h
    have hpdas : ∀ w, s.balance (.validator w) ≤ _ := fun w => hpay.le_balance (by simp)
    exact .quiet rfl (kept_of_touch hv rfl rfl rfl hpdas hpay.supply (Nat.add_le_add_right (hpdas _) _))
  | updateReputation =>
    obtain ⟨v, hv, rfl⟩ := updateReputation_ok h
    exact .quiet rfl (kept_of_touch hv rfl rfl rfl (fun _ => Nat.le_refl _) rfl le_rfl)
  | migrateValidatorAccount authority wallet =>
    obtain rfl | ⟨v, lamports, hv, -, hpay, rfl⟩ := migrateValidatorAccount_ok h
    · exact .quiet rfl (kept rfl rfl (fun _ => Nat.le_refl _) rfl)
    · have hpaid := hpay.balance_target (by simp)
      refine .quiet rfl (kept_of_touch hv rfl rfl rfl (fun w => hpay.le_balance (by simp)) hpay.supply ?_)
      simp only [State.balance]
      omega
  | _ => exact absurd rfl hk

end StakeAux

theorem Step.stakeStep (h : Step Γ s a s') : StakeStep Γ s a s' := by
  cases a with
  | program clock ix => exact StakeAux.stakeStep_of_instruction h
  | systemTransfer =>
    obtain ⟨_, hpay, rfl⟩ := systemTransfer_ok h
    exact .quiet rfl (StakeAux.kept_of_moved rfl rfl hpay (by simp))
  | tokenTransfer =>
    obtain ⟨_, -, rfl⟩ := tokenTransfer_ok h
    exact .quiet rfl (StakeAux.kept rfl rfl (fun _ => Nat.le_refl _) rfl)
  | openTokenAccount =>
    obtain rfl := openTokenAccount_ok h
    exact .quiet rfl (StakeAux.kept rfl rfl (fun _ => Nat.le_refl _) rfl)

theorem Step.supply (h : Step Γ s a s') : s'.lamports.supply = s.lamports.supply := by
  cases h.stakeStep with
  | quiet _ kept => exact kept.supply
  | create hok =>
    obtain ⟨-, -, _, _, _, _, _, -, -, -, hpay0, hpay1, rfl⟩ := initializeValidatorRegistry_ok hok
    exact hpay1.supply.trans hpay0.supply
  | reset hok =>
    obtain ⟨_, _, _, _, -, -, -, -, -, -, hpay, rfl⟩ := resetValidatorRegistry_ok hok
    exact hpay.supply
  | register hok =>
    obtain ⟨-, -, _, _, _, _, _, _, _, -, hrent, -, hpay, -, -, -, -, rfl⟩ := registerValidator_ok hok
    exact hpay.supply.trans hrent.supply
  | unregister hok =>
    obtain ⟨_, _, -, -, -, rfl⟩ := unregisterValidator_ok hok
    rfl
  | deactivate hok =>
    obtain ⟨_, _, -, -, ⟨-, rfl⟩ | ⟨-, rfl⟩⟩ := deactivateValidator_ok hok <;> rfl
  | withdraw hok =>
    obtain ⟨_, _, _, _, _, _, -, -, -, -, -, -, -, hpay, hclose, -, rfl⟩ := withdrawUnbondedStake_ok hok
    exact hclose.supply.trans hpay.supply
  | slash hok =>
    obtain ⟨_, _, _, _, -, -, -, -, hpay, -, rfl⟩ := slashValidator_ok hok
    exact hpay.supply

end Paraloom
