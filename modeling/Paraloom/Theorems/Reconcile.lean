import Paraloom.Lemmas.Stake

/-!
# Rebuilding the registry

`reset_validator_registry` rebuilds the counters from a list of accounts. Each later deactivation of a validator that the list
leaves out takes its stake out of counters that never had it, so the counters come out right only if nobody was left out, or
nobody was listed.
-/

namespace Paraloom

open List Checked Pubkey

variable {Γ : Ctx} {clock : Clock} {s s' : State}

def stakeAt (s : State) : Pubkey → Nat
  | .validator wallet => s.activeStakeOf wallet
  | _ => 0

def IsActive (s : State) (wallet : Pubkey) : Prop := ∃ v, s.validators.lookup wallet = some v ∧ v.data.isActive = true

def reconcile (clockOf : Pubkey → Clock) (authority : Signer) (stakeMint : Pubkey) (expected : UInt64) (listed : List Pubkey)
    (excluded : List Pubkey) : List Action :=
  .program (clockOf .validatorRegistry) (.resetValidatorRegistry authority stakeMint expected listed) ::
    excluded.map fun wallet => .program (clockOf wallet) (.deactivateValidator authority wallet)

/-- The counters of the registry are the sum and the number of the active validators. -/
def CountersExact (s : State) : Prop :=
  ∃ registry, s.validatorRegistry = some registry ∧ registry.data.totalActiveStake = s.activeStakeSum ∧
    registry.data.activeValidators = s.activeCount

namespace ReconcileAux

/-- An account that passes the checks of the loop. -/
theorem validatorAt_ok (h : validatorAt s acc = .ok v) :
    ∃ wallet, acc = .validator wallet ∧ s.validators.lookup wallet = some v := by
  unfold validatorAt at h
  split at h
  · rename_i wallet
    exact ⟨wallet, rfl, (loadAccount_ok_iff.mp h).1⟩
  · cases h

theorem stakeAt_of_active (hv : s.validators.lookup wallet = some v) (hactive : v.data.isActive = true) :
    stakeAt s (.validator wallet) = v.data.stakeAmount := by
  simp [stakeAt, State.activeStakeOf, Table.weight, hv, State.activeStakeWeight, hactive]

/-- The loop counts every listed account once, with its stake, and clamps the two sums. -/
theorem countResetAccounts_ok (htotal : total ≤ u64Max) (hactive : active ≤ u64Max)
    (h : countResetAccounts s accounts seen total active = .ok (total', active')) :
    (∀ acc ∈ accounts, ∃ wallet, acc = .validator wallet ∧ IsActive s wallet) ∧ accounts.Nodup ∧
      (∀ acc ∈ accounts, acc ∉ seen) ∧
      total' = min (total + (accounts.map (stakeAt s)).sum) u64Max ∧
      active' = min (active + accounts.length) u64Max := by
  induction accounts generalizing seen total active with
  | nil =>
    simp only [countResetAccounts, return_ok_iff, Prod.mk.injEq] at h
    obtain ⟨rfl, rfl⟩ := h
    simp [htotal, hactive]
  | cons acc rest ih =>
    simp only [countResetAccounts, seq_ok_iff, require_ok_iff, exists_const] at h
    obtain ⟨-, v, hat, -, hisActive, hseen, hrest⟩ := h
    obtain ⟨wallet, rfl, hv⟩ := validatorAt_ok hat
    obtain ⟨hlisted, hnodup, hfresh, rfl, rfl⟩ := ih (Nat.min_le_right _ _) (Nat.min_le_right _ _) hrest
    refine ⟨?_, ?_, ?_, ?_, ?_⟩
    · intro acc hacc
      rcases mem_cons.mp hacc with rfl | hacc
      · exact ⟨wallet, rfl, v, hv, hisActive⟩
      · exact hlisted acc hacc
    · refine nodup_cons.mpr ⟨fun hmem => ?_, hnodup⟩
      exact hfresh _ hmem (by simp)
    · intro acc hacc
      rcases mem_cons.mp hacc with rfl | hacc
      · exact hseen
      · exact fun hmem => hfresh acc hacc (mem_append_left _ hmem)
    · simp only [map_cons, sum_cons, stakeAt_of_active hv hisActive]
      omega
    · simp only [length_cons]
      omega

theorem stakeAt_congr (h : s'.validators.lookup w = s.validators.lookup w) :
    stakeAt s' (.validator w) = stakeAt s (.validator w) := by
  simp only [stakeAt, State.activeStakeOf, Table.weight, h]

/-- Deactivating an active validator: it loses its place, the others are untouched, and its stake is dropped. -/
theorem deactivate_active (h : Step Γ s (.program clock (.deactivateValidator authority w)) s')
    (hr : s.validatorRegistry = some registry) (hactive : IsActive s w) :
    (∀ x, x ≠ w → s'.validators.lookup x = s.validators.lookup x) ∧ ¬ IsActive s' w ∧
      s'.validatorRegistry = some { registry with data := registry.data.drop (stakeAt s (.validator w)) } := by
  obtain ⟨u, hu, hact⟩ := hactive
  obtain ⟨v, registry', hv, hr', ⟨hinactive, -⟩ | ⟨-, rfl⟩⟩ := deactivateValidator_ok h
  · rw [hu, Option.some.injEq] at hv
    exact absurd (hact.symm.trans (hv ▸ hinactive)) (by simp)
  · rw [hr, Option.some.injEq] at hr'
    rw [hu, Option.some.injEq] at hv
    subst hr' hv
    refine ⟨fun x hx => AList.lookup_insert_ne hx, ?_, by rw [stakeAt_of_active hu hact]⟩
    rintro ⟨y, hy, hyact⟩
    rw [AList.lookup_insert, Option.some.injEq] at hy
    subst hy
    cases hyact

/-- Deactivating distinct active validators, one by one: each loses its place, the others are untouched, and the counters
lose the stake and the number of all of them. -/
theorem deactivations_ok {clockOf : Pubkey → Clock} {wallets : List Pubkey}
    (h : Execution Γ s (wallets.map fun w => .program (clockOf w) (.deactivateValidator authority w)) s')
    (hr : s.validatorRegistry = some registry) (hnodup : wallets.Nodup) (hactive : ∀ w ∈ wallets, IsActive s w) :
    (∀ w ∉ wallets, s'.validators.lookup w = s.validators.lookup w) ∧ (∀ w ∈ wallets, ¬ IsActive s' w) ∧
      ∃ registry', s'.validatorRegistry = some registry' ∧
        registry'.data.totalActiveStake = registry.data.totalActiveStake - (wallets.map fun w => stakeAt s (.validator w)).sum ∧
        registry'.data.activeValidators = registry.data.activeValidators - wallets.length := by
  induction wallets generalizing s registry with
  | nil =>
    obtain rfl := Run.eq_of_nil h
    exact ⟨fun _ _ => rfl, by simp, registry, hr, by simp, by simp⟩
  | cons w rest ih =>
    rw [map_cons] at h
    obtain ⟨t, hfirst, hrest⟩ := Run.first_step h
    obtain ⟨hw, hnodup⟩ := nodup_cons.mp hnodup
    obtain ⟨hother, hgone, ht⟩ := deactivate_active hfirst hr (hactive w (by simp))
    -- the others keep their accounts, so they are still active and have the same stake
    have hsame : ∀ x ∈ rest, t.validators.lookup x = s.validators.lookup x := fun x hx =>
      hother x fun heq => hw (heq ▸ hx)
    obtain ⟨hkept, hout, registry', hr', htotal, hcount⟩ := ih hrest ht hnodup fun x hx => by
      obtain ⟨y, hy, hyact⟩ := hactive x (mem_cons_of_mem _ hx)
      exact ⟨y, (hsame x hx).trans hy, hyact⟩
    refine ⟨?_, ?_, registry', hr', ?_, ?_⟩
    · intro x hx
      rw [mem_cons, not_or] at hx
      exact (hkept x hx.2).trans (hother x hx.1)
    · intro x hx
      rcases mem_cons.mp hx with rfl | hx
      · rintro ⟨y, hy, hyact⟩
        exact hgone ⟨y, (hkept x hw).symm.trans hy, hyact⟩
      · exact hout x hx
    · have hstakes : (rest.map fun x => stakeAt t (.validator x)) = rest.map fun x => stakeAt s (.validator x) :=
        map_congr_left fun x hx => stakeAt_congr (hsame x hx)
      rw [htotal, hstakes, map_cons, sum_cons]
      simp only [ValidatorRegistry.drop, satSub]
      omega
    · rw [hcount]
      simp only [ValidatorRegistry.drop, satSub, length_cons]
      omega

theorem weight_of_not_active (h : ¬ IsActive s w) : Table.weight State.activeStakeWeight s.validators w = 0 ∧
      Table.weight (fun _ a => if a.data.isActive then 1 else 0) s.validators w = 0 := by
  cases hv : s.validators.lookup w with
  | none => simp [Table.weight, hv]
  | some v =>
    have hinactive : v.data.isActive = false := by
      rw [← Bool.not_eq_true]
      exact fun hactive => h ⟨v, hv, hactive⟩
    simp [Table.weight, hv, State.activeStakeWeight, hinactive]

/-- When exactly the given wallets are active, the sums run over them. -/
theorem sums_of_active {ws : List Pubkey} (hnodup : ws.Nodup) (h : ∀ w, w ∈ ws ↔ IsActive s w) :
    s.activeStakeSum = (ws.map s.activeStakeOf).sum ∧ s.activeCount = ws.length := by
  have hout : ∀ w, w ∉ ws.toFinset → ¬ IsActive s w := fun w hw hactive => hw (mem_toFinset.mpr ((h w).mpr hactive))
  constructor
  · rw [State.activeStakeSum, Table.total_eq_sum _ _ fun w hw => (weight_of_not_active (hout w hw)).1,
      sum_toFinset _ hnodup]
    rfl
  · rw [State.activeCount, Table.total_eq_sum _ _ fun w hw => (weight_of_not_active (hout w hw)).2, sum_toFinset _ hnodup]
    have hone : ws.map (Table.weight (fun _ a => if a.data.isActive then 1 else 0) s.validators) = ws.map fun _ => 1 := by
      apply map_congr_left
      intro w hw
      obtain ⟨v, hv, hactive⟩ := (h w).mp hw
      simp [Table.weight, hv, hactive]
    rw [hone]
    simp

theorem exists_wallets {accounts : List Pubkey} (h : ∀ acc ∈ accounts, ∃ wallet, acc = .validator wallet ∧ IsActive s wallet) :
    ∃ ws : List Pubkey, accounts = ws.map .validator := by
  induction accounts with
  | nil => exact ⟨[], rfl⟩
  | cons acc rest ih =>
    obtain ⟨wallet, rfl, -⟩ := h acc (by simp)
    obtain ⟨ws, rfl⟩ := ih fun acc hacc => h acc (mem_cons_of_mem _ hacc)
    exact ⟨wallet :: ws, rfl⟩

theorem sums_after {ws excluded : List Pubkey} (hlisted : ∀ w ∈ ws, IsActive s w) (hnodup : ws.Nodup)
    (hexcluded : ∀ w, w ∈ excluded ↔ IsActive s w ∧ w ∉ ws)
    (hkept : ∀ w ∉ excluded, s'.validators.lookup w = s.validators.lookup w) (hout : ∀ w ∈ excluded, ¬ IsActive s' w) :
    s'.activeStakeSum = (ws.map fun w => stakeAt s (.validator w)).sum ∧ s'.activeCount = ws.length := by
  have hnot : ∀ w ∈ ws, w ∉ excluded := fun w hw hex => ((hexcluded w).mp hex).2 hw
  have hstill : ∀ w, w ∈ ws ↔ IsActive s' w := by
    intro w
    constructor
    · intro hw
      obtain ⟨v, hv, hact⟩ := hlisted w hw
      exact ⟨v, (hkept w (hnot w hw)).trans hv, hact⟩
    · intro hact
      have hin : w ∉ excluded := fun hex => hout w hex hact
      obtain ⟨v, hv, hvact⟩ := hact
      by_contra hw
      exact hin ((hexcluded w).mpr ⟨⟨v, (hkept w hin).symm.trans hv, hvact⟩, hw⟩)
  obtain ⟨hstake, hcount⟩ := sums_of_active hnodup hstill
  refine ⟨?_, hcount⟩
  rw [hstake]
  exact congrArg sum (map_congr_left fun w hw => stakeAt_congr (hkept w (hnot w hw)))

/-- When the counters, cut by the number and the stakes of the excluded, are those of the listed. -/
theorem cut_counters_iff : (min (listed.map f).sum u64Max - (excluded.map f).sum = (listed.map f).sum ∧
        listed.length - excluded.length = listed.length) ↔
      (excluded = [] ∧ (listed.map f).sum < 2 ^ 64) ∨ listed = [] := by
  have hexcluded : excluded = [] → (excluded.map f).sum = 0 := by rintro rfl; rfl
  have hlisted : listed = [] → (listed.map f).sum = 0 := by rintro rfl; rfl
  rw [← length_eq_zero_iff] at hexcluded hlisted
  rw [← length_eq_zero_iff, ← length_eq_zero_iff]
  unfold u64Max
  omega

end ReconcileAux

/-- Rebuild the registry from a list of active accounts, as many as expected, and then deactivate once every active validator
that is not listed: the counters are exact at the end if and only if nobody was left out and the listed stakes fit 64 bits,
or nobody was listed. -/
theorem reconcile_exact_iff {clockOf : Pubkey → Clock} {authority : Signer} {stakeMint : Pubkey} {expected : UInt64}
    {listed excluded : List Pubkey} (hexpected : expected.toNat = listed.length) (hnodup : excluded.Nodup)
    (hexcluded : ∀ w, w ∈ excluded ↔ IsActive s w ∧ .validator w ∉ listed)
    (h : Execution Γ s (reconcile clockOf authority stakeMint expected listed excluded) s') :
    CountersExact s' ↔ (excluded = [] ∧ (listed.map (stakeAt s)).sum < 2 ^ 64) ∨ listed = [] := by
  obtain ⟨t, hreset, hrest⟩ := Run.first_step h
  obtain ⟨registry, total, _, _, hcount, -, htotal, hactive, -, -, -, rfl⟩ := resetValidatorRegistry_ok hreset
  obtain ⟨hlisted, hlistedNodup, -, hsum, hnumber⟩ :=
    ReconcileAux.countResetAccounts_ok (Nat.zero_le _) (Nat.zero_le _) hcount
  obtain ⟨ws, rfl⟩ := ReconcileAux.exists_wallets hlisted
  obtain ⟨hkept, hout, registry', hr', htotal', hactive'⟩ :=
    ReconcileAux.deactivations_ok hrest rfl hnodup (fun w hw => ((hexcluded w).mp hw).1)
  have hmem : ∀ w, Pubkey.validator w ∈ ws.map Pubkey.validator ↔ w ∈ ws := fun w =>
    mem_map_of_injective fun _ _ heq => Pubkey.validator.inj heq
  have hactives : ∀ w ∈ ws, IsActive s w := by
    intro w hw
    obtain ⟨_, heq, hact⟩ := hlisted (.validator w) ((hmem w).mpr hw)
    rwa [Pubkey.validator.inj heq]
  obtain ⟨hstake, hnumber'⟩ := ReconcileAux.sums_after hactives (List.Nodup.of_map _ hlistedNodup)
    (fun w => (hexcluded w).trans (and_congr_right fun _ => not_congr (hmem w))) hkept hout
  -- what the counters say at the end
  have hstakes : (ws.map Pubkey.validator).map (stakeAt s) = ws.map fun w => stakeAt s (.validator w) := map_map
  have htotalEnd : registry'.data.totalActiveStake = min (ws.map fun w => stakeAt s (.validator w)).sum u64Max -
      (excluded.map fun w => stakeAt s (.validator w)).sum := by
    rw [htotal', htotal, hsum, Nat.zero_add, hstakes]
    rfl
  have hactiveEnd : registry'.data.activeValidators = ws.length - excluded.length := by
    rw [hactive', hactive, hexpected, length_map]
  rw [map_eq_nil_iff, hstakes, ← ReconcileAux.cut_counters_iff, ← htotalEnd, ← hactiveEnd, ← hstake, ← hnumber']
  constructor
  · rintro ⟨r, hr, hexact⟩
    rw [hr', Option.some.injEq] at hr
    rw [hr]
    exact hexact
  · intro hexact
    exact ⟨registry', hr', hexact⟩

namespace ReconcileAux

def validators : Table Pubkey (ProgramAccount ValidatorAccount) :=
  ((∅ : Table Pubkey (ProgramAccount ValidatorAccount)).insert (.key Sample.operator)
    ⟨.registered (.key Sample.operator) 2000000000 1000000000000 ⟨13, 0⟩, validatorAccountSpace⟩).insert
    (.key Sample.cosigner) ⟨.registered (.key Sample.cosigner) 3000000000 2000000000000 ⟨14, 0⟩, validatorAccountSpace⟩

def twoActive : State :=
  { Sample.genesis with
    validators
    validatorRegistry := some ⟨{
      authority := .key Sample.operator, totalValidators := 2, activeValidators := 2, minimumStake := minValidatorStake,
      totalActiveStake := 5000000000, stakeMint := Sample.mint, minTokenStake := recommendedMinTokenStake },
      validatorRegistrySpace⟩ }

theorem isActive_twoActive : IsActive twoActive w ↔ w = .key Sample.cosigner ∨ w = .key Sample.operator := by
  have hlookup : twoActive.validators.lookup w = if w = .key Sample.cosigner then some ⟨.registered (.key Sample.cosigner)
      3000000000 2000000000000 ⟨14, 0⟩, validatorAccountSpace⟩ else if w = .key Sample.operator then some ⟨.registered
      (.key Sample.operator) 2000000000 1000000000000 ⟨13, 0⟩, validatorAccountSpace⟩ else none := by
    simp only [twoActive, validators, Table.lookup_insert_if, AList.lookup_empty]
  unfold IsActive
  rw [hlookup]
  by_cases hc : w = .key Sample.cosigner
  · rw [if_pos hc]
    exact ⟨fun _ => .inl hc, fun _ => ⟨_, rfl, rfl⟩⟩
  · rw [if_neg hc]
    by_cases ho : w = .key Sample.operator
    · rw [if_pos ho]
      exact ⟨fun _ => .inr ho, fun _ => ⟨_, rfl, rfl⟩⟩
    · simp [hc, ho]

end ReconcileAux

open ReconcileAux

/-- Two validators are active, the registry is rebuilt from the operator alone, and the cosigner is deactivated: the counters
are zero while the operator is active with its stake. -/
theorem reconcile_drops_listed_stake : (∀ w, w ∈ [Pubkey.key Sample.cosigner] ↔
      IsActive ReconcileAux.twoActive w ∧ .validator w ∉ [Pubkey.validator (.key Sample.operator)]) ∧
    ∃ s, Execution Sample.ctx ReconcileAux.twoActive (reconcile (fun _ => ⟨20, 0⟩) Sample.operator Sample.mint 1
        [.validator (.key Sample.operator)] [.key Sample.cosigner]) s ∧
      s.counters = some (0, 0, minValidatorStake) ∧ s.activeStakeSum = 2000000000 ∧ s.activeCount = 1 ∧
      ¬ CountersExact s := by
  have hsucceeds : succeedsWith Sample.ctx twoActive (reconcile (fun _ => ⟨20, 0⟩) Sample.operator Sample.mint 1
      [.validator (.key Sample.operator)] [.key Sample.cosigner]) (fun s => s.counters = some (0, 0, minValidatorStake) ∧
      s.activeStakeSum = 2000000000 ∧ s.activeCount = 1) = true := by decide +kernel
  obtain ⟨s, hrun, hcheck⟩ := exists_execution hsucceeds
  obtain ⟨hcounters, hstake, hcount⟩ := of_decide_eq_true hcheck
  refine ⟨fun w => ?_, s, hrun, hcounters, hstake, hcount, ?_⟩
  · have hne : Pubkey.key Sample.cosigner ≠ .key Sample.operator := by decide +kernel
    rw [isActive_twoActive]
    simp only [mem_singleton, Pubkey.validator.injEq]
    constructor
    · rintro rfl
      exact ⟨Or.inl rfl, hne⟩
    · rintro ⟨hw | hw, hnot⟩
      · exact hw
      · exact absurd hw hnot
  · rintro ⟨registry, hr, -, hactive⟩
    rw [State.counters, hr, Option.map_some, Option.some.injEq, Prod.mk.injEq] at hcounters
    omega

/-- The theorem where both validators are listed and nobody is left out. -/
theorem reconcile_exact_iff_all_listed : ∃ s, Execution Sample.ctx ReconcileAux.twoActive
    (reconcile (fun _ => ⟨20, 0⟩) Sample.operator Sample.mint 2
      [.validator (.key Sample.operator), .validator (.key Sample.cosigner)] []) s ∧ CountersExact s := by
  have hsucceeds : succeedsWith Sample.ctx twoActive (reconcile (fun _ => ⟨20, 0⟩) Sample.operator Sample.mint 2
      [.validator (.key Sample.operator), .validator (.key Sample.cosigner)] []) (fun _ => true) = true := by decide +kernel
  obtain ⟨s, hrun, -⟩ := exists_execution hsucceeds
  have hexcluded : ∀ w, w ∈ ([] : List Pubkey) ↔ IsActive twoActive w ∧
      .validator w ∉ [Pubkey.validator (.key Sample.operator), .validator (.key Sample.cosigner)] := by
    intro w
    rw [isActive_twoActive]
    simp only [mem_cons, Pubkey.validator.injEq, not_mem_nil, or_false, false_iff]
    tauto
  exact ⟨s, hrun, (reconcile_exact_iff rfl nodup_nil hexcluded hrun).mpr (.inl ⟨rfl, by decide +kernel⟩)⟩

end Paraloom
