import Paraloom.Lemmas.Backing

/-!
# The registry counts the active validators

Every update of the registry's counters is clamped, so they are exact only as long as no clamp ever bites. None does: the sum
of the active stakes is bounded by the supply, and every active validator has at least the minimum stake, so their number is
bounded by that sum.
-/

namespace Paraloom

open Option Table

variable {Γ : Ctx} {clock : Clock} {s s' : State}

/-- An action that rebuilds the counters of the registry. -/
def Action.resets : Action → Bool
  | .program _ (.resetValidatorRegistry ..) => true
  | _ => false

namespace RegistryCountersAux

/-- The invariant that carries the counters: every account is backed, the supply fits, an active account has the minimum
stake, and the counters are exact once there is a registry. -/
structure Exact (Γ : Ctx) (s : State) : Prop where
  backed : ∀ w, Backed Γ s w
  supply : s.lamports.supply ≤ Checked.u64Max
  minimum : ∀ w v, s.validators.lookup w = some v → v.data.isActive = true → minValidatorStake ≤ v.data.stakeAmount
  unregistered : s.validatorRegistry = none → ∀ w, s.validators.lookup w = none
  counters : ∀ r, s.validatorRegistry = some r → r.data.totalActiveStake = s.activeStakeSum ∧
    r.data.activeValidators = s.activeCount ∧ r.data.minimumStake = minValidatorStake

theorem activeStakeSum_le (hbacked : ∀ w, Backed Γ s w) : s.activeStakeSum ≤ s.lamports.supply := by
  refine Ledger.total_le_supply (g := Pubkey.validator) (fun _ _ heq => Pubkey.validator.inj heq) ?_
  intro w v hv
  have hcover := (hbacked w v hv).lamports
  simp only [ValidatorAccount.position, State.balance] at hcover
  unfold State.activeStakeWeight
  split <;> omega

/-- Every active account has the minimum stake. -/
def Minimum (s : State) : Prop :=
  ∀ w v, s.validators.lookup w = some v → v.data.isActive = true → minValidatorStake ≤ v.data.stakeAmount

theorem activeCount_le (hmin : Minimum s) : s.activeCount ≤ s.activeStakeSum := by
  refine total_le_total ?_
  intro w v hv
  unfold State.activeStakeWeight
  split
  · rename_i hactive
    have := hmin w v hv hactive
    unfold minValidatorStake at this
    omega
  · exact Nat.le_refl 0

theorem sums_write (hv : s.validators.lookup w = some v) (hw : s'.validators = s.validators.insert w v') :
    s'.activeStakeSum + State.activeStakeWeight w v = s.activeStakeSum + State.activeStakeWeight w v' ∧
      s'.activeCount + (if v.data.isActive then 1 else 0) = s.activeCount + (if v'.data.isActive then 1 else 0) := by
  unfold State.activeStakeSum State.activeCount
  rw [hw]
  exact ⟨total_insert _ v' hv, total_insert (fun _ a => if a.data.isActive then 1 else 0) v' hv⟩

theorem minimum_write (hmin : Minimum s) (hw : s'.validators = s.validators.insert w v')
    (hnew : v'.data.isActive = true → minValidatorStake ≤ v'.data.stakeAmount) : Minimum s' := by
  intro x u hu hactive
  rw [hw] at hu
  rcases lookup_insert_eq_some.mp hu with ⟨-, rfl⟩ | ⟨-, hu⟩
  · exact hnew hactive
  · exact hmin x u hu hactive

section Steps

variable (h : Exact Γ s) (hbacked : ∀ w, Backed Γ s' w)
include h hbacked

theorem exact_quiet (hkept : StakeKept Γ s s') : Exact Γ s' := by
  refine ⟨hbacked, hkept.supply ▸ h.supply, ?_, ?_, ?_⟩
  · intro w v' hv' hactive
    obtain ⟨v, hv, hsame⟩ := hkept.account hv'
    have hmin := h.minimum w v hv
    simp only [ValidatorAccount.position, Position.mk.injEq] at hsame
    rw [hsame.1, hsame.2.1] at hmin
    exact hmin hactive
  · intro hnone w
    have hregistry : s.validatorRegistry = none := by
      have := hkept.counters
      rwa [State.counters, hnone, map_none, eq_comm, State.counters, map_eq_none_iff] at this
    have hpos := hkept.position w
    rwa [State.position, State.position, h.unregistered hregistry w, map_none, map_eq_none_iff] at hpos
  · intro r' hr'
    have hcounters := hkept.counters
    rw [State.counters, hr', State.counters, map_some] at hcounters
    obtain ⟨r, hr, hsame⟩ := map_eq_some_iff.mp hcounters.symm
    simp only [Prod.mk.injEq] at hsame
    have hsum : s'.activeStakeSum = s.activeStakeSum := hkept.total fun p => if p.isActive then p.stakeAmount else 0
    have hnumber : s'.activeCount = s.activeCount := hkept.total fun p => if p.isActive then 1 else 0
    rw [← hsame.1, ← hsame.2.1, ← hsame.2.2, hsum, hnumber]
    exact h.counters r hr

theorem exact_create (hok : initializeValidatorRegistry Γ s authority mint = .ok s') : Exact Γ s' := by
  obtain ⟨hnone, -, registry, _, _, _, _, htotal, hactive, hmin, hpay0, hpay1, rfl⟩ := initializeValidatorRegistry_ok hok
  refine ⟨hbacked, (hpay1.supply.trans hpay0.supply) ▸ h.supply, h.minimum, fun hr => absurd hr (by simp), ?_⟩
  intro r hr
  rw [some.injEq] at hr
  subst hr
  -- without a registry nobody could register
  have hempty : ∀ f : Pubkey → ProgramAccount ValidatorAccount → Nat, total f s.validators = 0 := fun f =>
    total_eq_zero fun w v hv => absurd ((h.unregistered hnone w).symm.trans hv) (by simp)
  exact ⟨htotal.trans (hempty _).symm, hactive.trans (hempty _).symm, hmin⟩

theorem exact_register (hok : registerValidator Γ clock s validator account stake tokenStake = .ok s') : Exact Γ s' := by
  obtain ⟨hnew, hmin, registry, vault, vaultAfter, _, _, _, _, hr, hrent, -, hpay, -, -, -, -, hs'⟩ := registerValidator_ok hok
  have hwrite : s'.validators = s.validators.insert (.key validator)
      ⟨.registered (.key validator) stake.toNat (vaultAfter.amount - vault.amount) clock, validatorAccountSpace⟩ := by rw [hs']
  have hregistry : s'.validatorRegistry = some { registry with data := registry.data.join stake.toNat } := by rw [hs']
  have hsupply : s'.lamports.supply ≤ Checked.u64Max := by
    rw [hs']
    exact (hpay.supply.trans hrent.supply) ▸ h.supply
  obtain ⟨htotal, hcount, hminimum⟩ := h.counters registry hr
  have hsum : s'.activeStakeSum = s.activeStakeSum + stake.toNat := by
    rw [State.activeStakeSum, hwrite]
    exact total_insert_new _ _ hnew
  have hnumber : s'.activeCount = s.activeCount + 1 := by
    rw [State.activeCount, hwrite]
    exact total_insert_new _ _ hnew
  have hminimum' := minimum_write h.minimum hwrite (fun _ => hmin)
  -- the sums after the step bound both clamped additions
  have hstake := activeStakeSum_le hbacked
  have hvalidators := activeCount_le hminimum'
  refine ⟨hbacked, hsupply, hminimum', fun hnone => absurd (hregistry.symm.trans hnone) (by simp), ?_⟩
  intro r hr'
  rw [hregistry, some.injEq] at hr'
  subst hr'
  simp only [ValidatorRegistry.join]
  refine ⟨?_, ?_, hminimum⟩
  · rw [Checked.satAdd_eq (by omega)]
    omega
  · rw [Checked.satAdd_eq (by omega)]
    omega

theorem exact_leave (hv : s.validators.lookup w = some v) (hr : s.validatorRegistry = some registry)
    (hactive : v.data.isActive = true) (hinactive : v'.data.isActive = false)
    (hwrite : s'.validators = s.validators.insert w v')
    (hdrop : s'.validatorRegistry = some { registry with data := registry.data.drop v.data.stakeAmount })
    (hsupply : s'.lamports.supply = s.lamports.supply) : Exact Γ s' := by
  obtain ⟨htotal, hcount, hminimum⟩ := h.counters registry hr
  obtain ⟨hsum, hnumber⟩ := sums_write hv hwrite
  simp only [State.activeStakeWeight, hactive, hinactive, if_true, Bool.false_eq_true, if_false] at hsum hnumber
  refine ⟨hbacked, hsupply ▸ h.supply, minimum_write h.minimum hwrite (fun ha => absurd (ha.symm.trans hinactive) (by simp)),
    fun hnone => absurd (hdrop.symm.trans hnone) (by simp), ?_⟩
  intro r hr'
  rw [hdrop, some.injEq] at hr'
  subst hr'
  simp only [ValidatorRegistry.drop, Checked.satSub]
  exact ⟨by omega, by omega, hminimum⟩

theorem exact_slash (hok : slashValidator clock s authority wallet validator pct = .ok s') : Exact Γ s' := by
  obtain ⟨v, registry, lamports, _, hv, hr, -, hpct, hpay, -, hs'⟩ := slashValidator_ok hok
  have hwrite : s'.validators = s.validators.insert wallet
      { v with data := v.data.slash registry.data.minimumStake pct clock } := by rw [hs']
  have hregistry : s'.validatorRegistry = some { registry with data := registry.data.slash v.data pct } := by rw [hs']
  have hsupply : s'.lamports.supply = s.lamports.supply := by rw [hs']; exact hpay.supply
  obtain ⟨htotal, hcount, hminimum⟩ := h.counters registry hr
  obtain ⟨hsum, hnumber⟩ := sums_write hv hwrite
  have hle := slashOf_le hpct v.data.stakeAmount
  rcases slash_cases v.data registry.data pct clock with ⟨hact, hreg, hp⟩ | ⟨hact, hmin, hreg, hp⟩ | ⟨hact, hreg, hp⟩
  all_goals
    simp only [ValidatorAccount.position, Position.mk.injEq] at hp
    obtain ⟨hact', hstake', -⟩ := hp
    rw [hreg] at hregistry
  · -- an unbonding account is not counted, before or after
    simp only [State.activeStakeWeight, hact, hact', Bool.false_eq_true, if_false] at hsum hnumber
    refine ⟨hbacked, hsupply ▸ h.supply, minimum_write h.minimum hwrite (fun ha => ?_),
      fun hnone => absurd (hregistry.symm.trans hnone) (by simp), ?_⟩
    · exact absurd (ha.symm.trans (hact'.trans hact)) (by simp)
    · intro r hr'
      rw [hregistry, some.injEq] at hr'
      subst hr'
      exact ⟨by dsimp only; omega, by dsimp only; omega, hminimum⟩
  · simp only [State.activeStakeWeight, hact, hact', hstake', if_true] at hsum hnumber
    refine ⟨hbacked, hsupply ▸ h.supply, minimum_write h.minimum hwrite (fun _ => ?_),
      fun hnone => absurd (hregistry.symm.trans hnone) (by simp), ?_⟩
    · rw [hstake', ← hminimum]
      exact hmin
    · intro r hr'
      rw [hregistry, some.injEq] at hr'
      subst hr'
      exact ⟨by dsimp only; omega, by dsimp only; omega, hminimum⟩
  · exact exact_leave h hbacked hv hr hact hact' hwrite hregistry hsupply

/-- A closed account was not active. -/
theorem exact_withdraw (hok : withdrawUnbondedStake Γ clock s validator account = .ok s') : Exact Γ s' := by
  obtain ⟨v, _, _, _, _, _, hv, -, -, -, hexit, -, -, hpay, hclose, -, rfl⟩ := withdrawUnbondedStake_ok hok
  have hinactive := withdraw_inactive (h.backed _ v hv) hexit
  have hsum := total_erase State.activeStakeWeight hv
  have hnumber := total_erase (fun _ a => if a.data.isActive then 1 else 0) hv
  simp only [State.activeStakeWeight, hinactive, Bool.false_eq_true, if_false, Nat.add_zero] at hsum hnumber
  refine ⟨hbacked, (hclose.supply.trans hpay.supply) ▸ h.supply, ?_, ?_, ?_⟩
  · intro w u hu hactive
    simp only [lookup_erase_if] at hu
    split at hu
    · cases hu
    · exact h.minimum w u hu hactive
  · intro hnone
    exact absurd ((h.unregistered hnone (.key validator)).symm.trans hv) (by simp)
  · intro r hr
    obtain ⟨htotal, hcount, hminimum⟩ := h.counters r hr
    exact ⟨htotal.trans hsum.symm, hcount.trans hnumber.symm, hminimum⟩

end Steps

theorem exact_step (ha : a.resets = false) (h : Exact Γ s) (hstep : Step Γ s a s') : Exact Γ s' := by
  have hbacked : ∀ w, Backed Γ s' w := fun w => hstep.backed (h.backed w)
  cases hstep.stakeStep with
  | quiet _ hkept => exact exact_quiet h hbacked hkept
  | create hok => exact exact_create h hbacked hok
  | reset => cases ha
  | register hok => exact exact_register h hbacked hok
  | unregister hok =>
    obtain ⟨v, registry, hv, hr, hactive, rfl⟩ := unregisterValidator_ok hok
    exact exact_leave h hbacked hv hr hactive rfl rfl rfl rfl
  | deactivate hok =>
    obtain ⟨v, registry, hv, hr, ⟨-, rfl⟩ | ⟨hactive, rfl⟩⟩ := deactivateValidator_ok hok
    · exact h
    · exact exact_leave h hbacked hv hr hactive rfl rfl rfl rfl
  | withdraw hok => exact exact_withdraw h hbacked hok
  | slash hok => exact exact_slash h hbacked hok

end RegistryCountersAux

/-- In every run from the deployment on that does not rebuild the registry, its counters are exact: the total active stake is
the sum of the stakes of the active validators, and the number of active validators is theirs. -/
theorem registry_counters_exact {programData : RawAccount} {tokens : Table Pubkey TokenAccount} {lamports : Ledger Pubkey}
    {actions : List Action} {registry : ProgramAccount ValidatorRegistry}
    (h : Execution Γ (.genesis programData tokens lamports) actions s) (hsupply : lamports.supply < 2 ^ 64)
    (hreset : ∀ a ∈ actions, a.resets = false) (hr : s.validatorRegistry = some registry) :
    registry.data.totalActiveStake = s.activeStakeSum ∧ registry.data.activeValidators = s.activeCount := by
  have hstart : RegistryCountersAux.Exact Γ (.genesis programData tokens lamports) := by
    refine ⟨fun w => backed_of_none (AList.lookup_empty w), Nat.le_sub_one_of_lt hsupply, ?_, fun _ => AList.lookup_empty, ?_⟩
    · intro w v hv
      exact absurd ((AList.lookup_empty w).symm.trans hv) (by simp)
    · intro r hr
      cases hr
  have hexact := h.invariant_of hreset hstart fun _ _ _ ha ht hstep => RegistryCountersAux.exact_step ha ht hstep
  exact ⟨(hexact.counters registry hr).1, (hexact.counters registry hr).2.1⟩

/-- After the settlement of the sample run two validators are active. -/
theorem registry_counters_exact_sample : ∃ s registry,
    Execution Sample.ctx Sample.genesis Sample.settlement s ∧ s.validatorRegistry = some registry ∧
      registry.data.totalActiveStake = 5000000000 ∧ registry.data.totalActiveStake = s.activeStakeSum ∧
      registry.data.activeValidators = s.activeCount := by
  have hsucceeds : succeedsWith Sample.ctx Sample.genesis Sample.settlement
      (fun s => s.validatorRegistry.any fun r => r.data.totalActiveStake = 5000000000) = true := by decide +kernel
  obtain ⟨s, hrun, hcheck⟩ := exists_execution hsucceeds
  obtain ⟨registry, hr, htotal⟩ := (any_eq_true _ _).mp hcheck
  obtain ⟨hstake, hcount⟩ := registry_counters_exact hrun (by decide +kernel) (by decide +kernel) hr
  exact ⟨s, registry, hrun, hr, of_decide_eq_true htotal, hstake, hcount⟩

end Paraloom
