import Paraloom.Lemmas.Backing
import Paraloom.Theorems.SplSolvency

/-!
# What the cold keys protect

Two keys are kept off the hosts: the authority of the registry and the upgrade authority of the program. Whoever holds the
other keys, the hot settlement key among them, changes no parameter and takes no stake from a validator, and on a paused bridge
moves no funds and no notes.
-/

namespace Paraloom

open Checked

/-! ## Signers -/

def quorumSigners (quorum : List AccountMeta) : List Signer :=
  quorum.filterMap fun m => match m with
    | ⟨.key k, true⟩ => some k
    | _ => none

def Instruction.signers : Instruction → List Signer
  | .initializeBridge authority _ _ => [authority]
  | .initializeMerkleTree authority => [authority]
  | .migrateBridgeState authority => [authority]
  | .depositNote depositor _ _ _ => [depositor]
  | .transact authority _ quorum _ => authority :: quorumSigners quorum
  | .transactSpl authority _ _ _ quorum _ => authority :: quorumSigners quorum
  | .pause authority => [authority]
  | .unpause authority => [authority]
  | .setBridgeAuthority authority _ => [authority]
  | .setDepositCap authority _ => [authority]
  | .initAssetVault authority _ => [authority]
  | .setAssetDepositCap authority _ _ => [authority]
  | .depositNoteSpl depositor _ _ _ _ _ => [depositor]
  | .initializeValidatorRegistry authority _ => [authority]
  | .initStakeTokenVault authority _ => [authority]
  | .setMinTokenStake authority _ => [authority]
  | .resetValidatorRegistry authority _ _ _ => [authority]
  | .registerValidator validator _ _ _ => [validator]
  | .unregisterValidator validator => [validator]
  | .deactivateValidator authority _ => [authority]
  | .withdrawUnbondedStake validator _ => [validator]
  | .slashValidator authority _ _ _ => [authority]
  | .claimRewards validator => [validator]
  | .updateReputation authority _ _ _ => [authority]
  | .migrateValidatorAccount authority _ => [authority]

def Action.signers : Action → List Signer
  | .program _ ix => ix.signers
  | .systemTransfer source _ _ => [source]
  | .tokenTransfer owner _ _ _ _ => [owner]
  | .openTokenAccount address _ _ _ => [address]

/-- A wallet that is the authority of the registry or the upgrade authority of the program. -/
def State.ColdKey (Γ : Ctx) (s : State) (k : Signer) : Prop :=
  s.validatorRegistry.map (·.data.authority) = some (.key k) ∨ checkUpgradeAuthority Γ s.programData (.key k) = .ok ()

instance (Γ : Ctx) (s : State) (k : Signer) : Decidable (s.ColdKey Γ k) := inferInstanceAs (Decidable (_ ∨ _))

/-! ## What is protected -/

structure BridgeControls where
  authority : Pubkey
  paused : Bool
  depositCap : Nat

structure RegistryControls where
  authority : Pubkey
  minimumStake : Nat
  stakeMint : Pubkey
  minTokenStake : Nat

namespace State

def bridgeControls (s : State) : Option BridgeControls :=
  s.bridgeState.map fun b => ⟨b.data.authority, b.data.paused, b.data.depositCap⟩

def registryControls (s : State) : Option RegistryControls :=
  s.validatorRegistry.map fun r => ⟨r.data.authority, r.data.minimumStake, r.data.stakeMint, r.data.minTokenStake⟩

def assetCap (s : State) (mint : Pubkey) : Option Nat := (s.assetConfigs.lookup mint).map (·.depositCap)

/-- The bridge exists and is paused. -/
def Paused (s : State) : Prop := ∃ bridge, s.bridgeState = some bridge ∧ bridge.data.paused = true

/-- The stake of a wallet, zero without an account. -/
def stakeAmountOf (s : State) (wallet : Pubkey) : Nat := (s.validators.lookup wallet).elim 0 (·.data.stakeAmount)

/-- The rewards a wallet can still claim, zero without an account. -/
def pendingRewardsOf (s : State) (wallet : Pubkey) : Nat := (s.validators.lookup wallet).elim 0 (·.data.pendingRewards)

end State

/-- The parameters are as before. -/
structure ControlsKept (s s' : State) : Prop where
  bridge : s'.bridgeControls = s.bridgeControls
  caps : ∀ mint, s'.assetCap mint = s.assetCap mint
  registry : s'.registryControls = s.registryControls

theorem ControlsKept.trans (h : ControlsKept s t) (h' : ControlsKept t u) : ControlsKept s u :=
  ⟨h'.bridge.trans h.bridge, fun mint => (h'.caps mint).trans (h.caps mint), h'.registry.trans h.registry⟩

/-- Nothing left the vaults, and no note, total or reward changed. -/
structure Frozen (s s' : State) : Prop where
  bridgeVault : s.balance .bridgeVault ≤ s'.balance .bridgeVault
  assetVaults : ∀ mint, s.assetVaultTokens mint ≤ s'.assetVaultTokens mint
  tree : s'.merkleTree = s.merkleTree
  leaves : s'.leaves = s.leaves
  nullifiers : s'.nullifiers = s.nullifiers
  deposited : s'.totalDeposited = s.totalDeposited
  withdrawn : s'.totalWithdrawn = s.totalWithdrawn
  rewards : ∀ wallet, s'.pendingRewardsOf wallet = s.pendingRewardsOf wallet

namespace ColdKeysAux

open SplSolvencyAux (touchesNotes vault_of_step VaultsOwned)

variable {Γ : Ctx} {clock : Clock} {s s' : State} {ix : Instruction} {a : Action}

/-! ## The instructions of the cold keys -/

def cold : Instruction → Bool
  | .depositNote .. => false
  | .transact .. => false
  | .transactSpl .. => false
  | .depositNoteSpl .. => false
  | .registerValidator .. => false
  | .unregisterValidator .. => false
  | .withdrawUnbondedStake .. => false
  | .claimRewards .. => false
  | _ => true

theorem coldKey_of_registry (h : loadRegistryAs s k = .ok registry) : s.ColdKey Γ k := by
  obtain ⟨hr, hauthority⟩ := loadRegistryAs_ok h
  exact .inl (by rw [hr, Option.map_some, hauthority])

theorem coldKey_of_updateBridge (h : updateBridge s k update = .ok s') : s.ColdKey Γ k := by
  simp only [updateBridge, seq_ok_iff] at h
  obtain ⟨_, -, registry, hr, -⟩ := h
  exact coldKey_of_registry hr

theorem coldKey_of_exec (h : ix.exec Γ clock s = .ok s') (hcold : cold ix = true) : ∃ k ∈ ix.signers, s.ColdKey Γ k := by
  cases ix with
  | initializeBridge k =>
    simp only [Instruction.exec, Paraloom.initializeBridge, seq_ok_iff] at h
    obtain ⟨_, -, _, hauth, -⟩ := h
    exact ⟨k, .head _, .inr hauth⟩
  | initializeMerkleTree k =>
    simp only [Instruction.exec, Paraloom.initializeMerkleTree, seq_ok_iff] at h
    obtain ⟨_, -, _, hauth, -⟩ := h
    exact ⟨k, .head _, .inr hauth⟩
  | migrateBridgeState k =>
    simp only [Instruction.exec, Paraloom.migrateBridgeState, seq_ok_iff] at h
    obtain ⟨_, hauth, -⟩ := h
    exact ⟨k, .head _, .inr hauth⟩
  | pause k =>
    simp only [Instruction.exec, Paraloom.pause] at h
    exact ⟨k, .head _, coldKey_of_updateBridge h⟩
  | unpause k =>
    simp only [Instruction.exec, Paraloom.unpause] at h
    exact ⟨k, .head _, coldKey_of_updateBridge h⟩
  | setBridgeAuthority k =>
    simp only [Instruction.exec, Paraloom.setBridgeAuthority] at h
    exact ⟨k, .head _, coldKey_of_updateBridge h⟩
  | setDepositCap k =>
    simp only [Instruction.exec, Paraloom.setDepositCap] at h
    exact ⟨k, .head _, coldKey_of_updateBridge h⟩
  | initAssetVault k =>
    simp only [Instruction.exec, Paraloom.initAssetVault, seq_ok_iff] at h
    obtain ⟨_, -, _, -, _, hauth, -⟩ := h
    exact ⟨k, .head _, .inr hauth⟩
  | setAssetDepositCap k =>
    simp only [Instruction.exec, Paraloom.setAssetDepositCap, seq_ok_iff] at h
    obtain ⟨_, -, _, -, _, hauth, -⟩ := h
    exact ⟨k, .head _, .inr hauth⟩
  | initializeValidatorRegistry k =>
    simp only [Instruction.exec, Paraloom.initializeValidatorRegistry, seq_ok_iff] at h
    obtain ⟨_, -, _, -, _, hauth, -⟩ := h
    exact ⟨k, .head _, .inr hauth⟩
  | initStakeTokenVault k =>
    simp only [Instruction.exec, Paraloom.initStakeTokenVault, seq_ok_iff] at h
    obtain ⟨_, -, _, hauth, -⟩ := h
    exact ⟨k, .head _, .inr hauth⟩
  | setMinTokenStake k =>
    simp only [Instruction.exec, Paraloom.setMinTokenStake, seq_ok_iff] at h
    obtain ⟨registry, hr, -⟩ := h
    exact ⟨k, .head _, coldKey_of_registry hr⟩
  | resetValidatorRegistry k =>
    simp only [Instruction.exec, Paraloom.resetValidatorRegistry, seq_ok_iff] at h
    obtain ⟨_, hauth, -⟩ := h
    exact ⟨k, .head _, .inr hauth⟩
  | deactivateValidator k =>
    simp only [Instruction.exec, Paraloom.deactivateValidator, seq_ok_iff] at h
    obtain ⟨_, -, registry, hr, -⟩ := h
    exact ⟨k, .head _, coldKey_of_registry hr⟩
  | slashValidator k =>
    simp only [Instruction.exec, Paraloom.slashValidator, seq_ok_iff] at h
    obtain ⟨_, -, _, -, registry, hr, -⟩ := h
    exact ⟨k, .head _, coldKey_of_registry hr⟩
  | updateReputation k =>
    simp only [Instruction.exec, Paraloom.updateReputation, seq_ok_iff] at h
    obtain ⟨_, -, registry, hr, -⟩ := h
    exact ⟨k, .head _, coldKey_of_registry hr⟩
  | migrateValidatorAccount k =>
    simp only [Instruction.exec, Paraloom.migrateValidatorAccount, seq_ok_iff] at h
    obtain ⟨_, hauth, -⟩ := h
    exact ⟨k, .head _, .inr hauth⟩
  | _ => cases hcold

/-! ## A paused bridge -/

theorem not_paused (hb : s.bridgeState = some bridge) (hpaused : bridge.data.paused = false) : ¬ s.Paused := by
  rintro ⟨bridge', hb', hpaused'⟩
  rw [hb, Option.some.injEq] at hb'
  subst hb'
  rw [hpaused] at hpaused'
  cases hpaused'

theorem not_paused_of_settle (h : settle Γ clock s authority recipient assetOf quorum args = .ok st) : ¬ s.Paused := by
  simp only [settle, checkTransactArgs, seq_ok_iff, loadAccount_ok_iff, require_ok_iff, exists_const] at h
  obtain ⟨bridge, ⟨hb, -⟩, _, -, _, -, _, -, _, -, _, -, _, -, ⟨hpaused, -⟩, -⟩ := h
  exact not_paused hb hpaused

def movesFunds : Instruction → Bool
  | .depositNote .. => true
  | .transact .. => true
  | .transactSpl .. => true
  | .depositNoteSpl .. => true
  | .claimRewards .. => true
  | _ => false

theorem not_paused_of_exec (h : ix.exec Γ clock s = .ok s') (hmoves : movesFunds ix = true) : ¬ s.Paused := by
  cases ix with
  | depositNote =>
    simp only [Instruction.exec, Paraloom.depositNote, seq_ok_iff, loadAccount_ok_iff, require_ok_iff] at h
    obtain ⟨bridge, ⟨hb, -⟩, _, -, _, hpaused, -⟩ := h
    exact not_paused hb hpaused
  | transact =>
    simp only [Instruction.exec, Paraloom.transact, seq_ok_iff] at h
    obtain ⟨_, -, _, hsettle, -⟩ := h
    exact not_paused_of_settle hsettle
  | transactSpl =>
    simp only [Instruction.exec, Paraloom.transactSpl, seq_ok_iff] at h
    obtain ⟨_, -, _, -, _, -, _, -, _, hsettle, -⟩ := h
    exact not_paused_of_settle hsettle
  | depositNoteSpl =>
    simp only [Instruction.exec, Paraloom.depositNoteSpl, seq_ok_iff, loadAccount_ok_iff, require_ok_iff] at h
    obtain ⟨bridge, ⟨hb, -⟩, _, -, _, -, _, -, _, -, _, -, _, hpaused, -⟩ := h
    exact not_paused hb hpaused
  | claimRewards =>
    simp only [Instruction.exec, Paraloom.claimRewards, seq_ok_iff, loadAccount_ok_iff, require_ok_iff] at h
    obtain ⟨bridge, ⟨hb, -⟩, _, -, _, -, _, hpaused, -⟩ := h
    exact not_paused hb hpaused
  | _ => cases hmoves

/-! ## The steps of the other keys -/

theorem assetCap_depositNoteSpl (h : depositNoteSpl Γ clock s depositor mint account amount pubkey blinding = .ok s')
    (m : Pubkey) : s'.assetCap m = s.assetCap m := by
  simp only [depositNoteSpl, seq_ok_iff, loadFixed_ok_iff, return_ok_iff] at h
  obtain ⟨_, -, config, hconfig, _, -, _, -, _, -, _, -, _, -, _, -, _, -, _, -, _, -, _, -, _, -, _, -, _, -, _, -, _, -, _, -, _, -,
    _, -, rfl⟩ := h
  simp only [State.assetCap, Table.lookup_insert_if]
  split
  · rename_i hm
    rw [hm, hconfig]
    rfl
  · rfl

theorem controls_of_exec (h : ix.exec Γ clock s = .ok s') (hwarm : cold ix = false) :
    s'.programData = s.programData ∧ ControlsKept s s' := by
  cases ix with
  | depositNote =>
    obtain ⟨_, _, _, _, _, _, _, hb, -, -, -, -, -, -, rfl⟩ := depositNote_ok h
    exact ⟨rfl, by simp [State.bridgeControls, hb], fun _ => rfl, rfl⟩
  | transact =>
    obtain ⟨-, _, _, hst, -, _, rfl⟩ := transact_ok h
    exact ⟨rfl, by simp [State.bridgeControls, hst.bridge], fun _ => rfl, rfl⟩
  | transactSpl =>
    obtain ⟨_, _, _, hst, -, -, -, rfl⟩ := transactSpl_ok h
    exact ⟨rfl, by simp [State.bridgeControls, hst.bridge], fun _ => rfl, rfl⟩
  | depositNoteSpl =>
    have hcaps := assetCap_depositNoteSpl h
    obtain ⟨_, _, _, _, _, _, _, -, -, -, -, -, -, -, -, rfl⟩ := depositNoteSpl_ok h
    exact ⟨rfl, rfl, hcaps, rfl⟩
  | registerValidator =>
    obtain ⟨-, -, _, _, _, _, _, _, _, hr, -, -, -, -, -, -, -, rfl⟩ := registerValidator_ok h
    exact ⟨rfl, rfl, fun _ => rfl, by simp [State.registryControls, hr, ValidatorRegistry.join]⟩
  | unregisterValidator =>
    obtain ⟨_, _, -, hr, -, rfl⟩ := unregisterValidator_ok h
    exact ⟨rfl, rfl, fun _ => rfl, by simp [State.registryControls, hr, ValidatorRegistry.drop]⟩
  | withdrawUnbondedStake =>
    obtain ⟨_, _, _, _, _, _, -, -, -, -, -, -, -, -, -, -, rfl⟩ := withdrawUnbondedStake_ok h
    exact ⟨rfl, rfl, fun _ => rfl, rfl⟩
  | claimRewards =>
    obtain ⟨_, _, _, -, -, rfl⟩ := claimRewards_ok h
    exact ⟨rfl, rfl, fun _ => rfl, rfl⟩
  | _ => cases hwarm

/-- A write to an account that leaves a field alone. -/
theorem elim_write (hv : s.validators.lookup x = some v) (hsame : f v' = f v) (w : Pubkey) :
    ((s.validators.insert x v').lookup w).elim 0 f = (s.validators.lookup w).elim 0 f := by
  rw [Table.lookup_insert_if]
  split
  · rename_i hw
    rw [hw, hv]
    exact hsame
  · rfl

theorem stake_of_exec (hbacked : ∀ w, Backed Γ s w) (h : ix.exec Γ clock s = .ok s') (hwarm : cold ix = false)
    (hless : s'.stakeAmountOf w < s.stakeAmountOf w) : ∃ k, w = .key k ∧ ix = .unregisterValidator k := by
  cases ix with
  | depositNote =>
    obtain ⟨_, _, _, _, _, _, _, -, -, -, -, -, -, -, rfl⟩ := depositNote_ok h
    exact absurd hless (Nat.lt_irrefl _)
  | transact =>
    obtain ⟨-, _, _, hst, -, _, rfl⟩ := transact_ok h
    exact (hless.ne (elim_write hst.validator (by rfl) w)).elim
  | transactSpl =>
    obtain ⟨_, _, _, hst, -, -, -, rfl⟩ := transactSpl_ok h
    exact (hless.ne (elim_write hst.validator (by rfl) w)).elim
  | depositNoteSpl =>
    obtain ⟨_, _, _, _, _, _, _, -, -, -, -, -, -, -, -, rfl⟩ := depositNoteSpl_ok h
    exact absurd hless (Nat.lt_irrefl _)
  | registerValidator validator =>
    obtain ⟨hnew, -, _, _, _, _, _, _, _, -, -, -, -, -, -, -, -, rfl⟩ := registerValidator_ok h
    simp only [State.stakeAmountOf, Table.lookup_insert_if] at hless
    split at hless
    · rename_i hw
      rw [hw, hnew] at hless
      exact absurd hless (Nat.not_lt_zero _)
    · exact absurd hless (Nat.lt_irrefl _)
  | unregisterValidator validator =>
    refine ⟨validator, ?_, rfl⟩
    obtain ⟨_, _, -, -, -, rfl⟩ := unregisterValidator_ok h
    simp only [State.stakeAmountOf, Table.lookup_insert_if] at hless
    split at hless
    · assumption
    · exact absurd hless (Nat.lt_irrefl _)
  | withdrawUnbondedStake validator =>
    obtain ⟨v, _, _, _, _, _, hv, -, -, -, hexit, -, -, -, -, -, rfl⟩ := withdrawUnbondedStake_ok h
    have hcovered := hbacked _ v hv
    have hzero : v.data.stakeAmount = 0 := hcovered.inactive (withdraw_inactive hcovered hexit)
    simp only [State.stakeAmountOf, Table.lookup_erase_if] at hless
    split at hless
    · rename_i hw
      rw [hw, hv, Option.elim_some, hzero] at hless
      exact absurd hless (Nat.not_lt_zero _)
    · exact absurd hless (Nat.lt_irrefl _)
  | claimRewards =>
    obtain ⟨_, _, _, hv, -, rfl⟩ := claimRewards_ok h
    exact (hless.ne (elim_write hv (by rfl) w)).elim
  | _ => cases hwarm

/-- On a paused bridge, without a cold key, validators join and leave and nothing else happens. -/
theorem frozen_of_exec (hpaused : s.Paused) (h : ix.exec Γ clock s = .ok s') (hwarm : cold ix = false)
    (hvaults : touchesNotes (.program clock ix) = false →
      ∀ mint, s.assetVaultTokens mint ≤ s'.assetVaultTokens mint) : Frozen s s' := by
  cases ix with
  | registerValidator validator =>
    obtain ⟨hnew, -, _, _, _, _, _, _, _, -, hrent, -, hpay, -, -, -, -, rfl⟩ := registerValidator_ok h
    refine ⟨(hrent.le_balance (by simp)).trans (hpay.le_balance (by simp)), hvaults rfl, rfl, ?_, rfl, rfl, rfl, fun w => ?_⟩
    · simp [State.leaves, Event.leaves]
    · simp only [State.pendingRewardsOf, Table.lookup_insert_if]
      split
      · rename_i hw
        rw [hw, hnew]
        rfl
      · rfl
  | unregisterValidator =>
    obtain ⟨_, _, hv, -, -, rfl⟩ := unregisterValidator_ok h
    refine ⟨Nat.le_refl _, hvaults rfl, rfl, ?_, rfl, rfl, rfl, elim_write hv (by rfl)⟩
    simp [State.leaves, Event.leaves]
  | withdrawUnbondedStake =>
    obtain ⟨v, _, _, _, _, _, hv, -, -, -, -, -, hpending, hpay, hclose, -, rfl⟩ := withdrawUnbondedStake_ok h
    refine ⟨(hpay.le_balance (by simp)).trans (hclose.le_balance (by simp)), hvaults rfl, rfl, ?_, rfl, rfl, rfl, fun w => ?_⟩
    · simp [State.leaves, Event.leaves]
    · simp only [State.pendingRewardsOf, Table.lookup_erase_if]
      split
      · rename_i hw
        rw [hw, hv, Option.elim_some, hpending]
        rfl
      · rfl
  | depositNote | transact | transactSpl | depositNoteSpl | claimRewards => exact absurd hpaused (not_paused_of_exec h rfl)
  | _ => cases hwarm

/-- What a step does that no cold key signs. -/
structure WarmStep (s : State) (a : Action) (s' : State) : Prop where
  programData : s'.programData = s.programData
  controls : ControlsKept s s'
  stake : ∀ w, s'.stakeAmountOf w < s.stakeAmountOf w → ∃ clock k, w = .key k ∧ a = .program clock (.unregisterValidator k)
  frozen : s.Paused → Frozen s s'

theorem warmStep_outside (hprogramData : s'.programData = s.programData) (hbridge : s'.bridgeState = s.bridgeState)
    (hregistry : s'.validatorRegistry = s.validatorRegistry) (hconfigs : s'.assetConfigs = s.assetConfigs)
    (hvalidators : s'.validators = s.validators) (htree : s'.merkleTree = s.merkleTree) (hlog : s'.log = s.log)
    (hnull : s'.nullifiers = s.nullifiers) (hvault : s.balance .bridgeVault ≤ s'.balance .bridgeVault)
    (hvaults : ∀ mint, s.assetVaultTokens mint ≤ s'.assetVaultTokens mint) : WarmStep s a s' := by
  refine ⟨hprogramData, ⟨?_, fun mint => ?_, ?_⟩, fun w hless => ?_, fun _ => ?_⟩
  · rw [State.bridgeControls, hbridge, State.bridgeControls]
  · rw [State.assetCap, hconfigs, State.assetCap]
  · rw [State.registryControls, hregistry, State.registryControls]
  · rw [State.stakeAmountOf, hvalidators] at hless
    exact absurd hless (Nat.lt_irrefl _)
  · have hnotes := NotesAux.kept hlog hnull hbridge
    refine ⟨hvault, hvaults, htree, hnotes.leaves, hnull, hnotes.deposited, hnotes.withdrawn, fun w => ?_⟩
    rw [State.pendingRewardsOf, hvalidators, State.pendingRewardsOf]

theorem warmStep_of_step (howned : VaultsOwned s) (hbacked : ∀ w, Backed Γ s w) (h : Step Γ s a s')
    (hwarm : ∀ k ∈ a.signers, ¬ s.ColdKey Γ k) : WarmStep s a s' := by
  have hvaults : touchesNotes a = false → ∀ mint, s.assetVaultTokens mint ≤ s'.assetVaultTokens mint := by
    intro hquiet mint
    have hgains := (vault_of_step howned mint h).gains
    rw [SplSolvencyAux.flow_of_quiet hquiet] at hgains
    omega
  cases a with
  | program clock ix =>
    have hwarmIx : cold ix = false := by
      by_contra hcold
      obtain ⟨k, hk, hcoldKey⟩ := coldKey_of_exec h (by simpa using hcold)
      exact hwarm k hk hcoldKey
    obtain ⟨hprogramData, hcontrols⟩ := controls_of_exec h hwarmIx
    refine ⟨hprogramData, hcontrols, fun w hless => ?_, fun hpaused => frozen_of_exec hpaused h hwarmIx hvaults⟩
    obtain ⟨k, hw, rfl⟩ := stake_of_exec hbacked h hwarmIx hless
    exact ⟨clock, k, hw, rfl⟩
  | systemTransfer =>
    have hvaults := hvaults rfl
    obtain ⟨_, hpay, rfl⟩ := systemTransfer_ok h
    exact warmStep_outside rfl rfl rfl rfl rfl rfl rfl rfl (hpay.le_balance (by simp)) hvaults
  | tokenTransfer =>
    have hvaults := hvaults rfl
    obtain ⟨_, -, rfl⟩ := tokenTransfer_ok h
    exact warmStep_outside rfl rfl rfl rfl rfl rfl rfl rfl le_rfl hvaults
  | openTokenAccount =>
    have hvaults := hvaults rfl
    obtain rfl := openTokenAccount_ok h
    exact warmStep_outside rfl rfl rfl rfl rfl rfl rfl rfl le_rfl hvaults

/-! ## Runs -/

theorem coldKey_iff (hprogramData : s'.programData = s.programData) (hcontrols : ControlsKept s s') :
    s'.ColdKey Γ k ↔ s.ColdKey Γ k := by
  have hauthority : s'.validatorRegistry.map (·.data.authority) = s.validatorRegistry.map (·.data.authority) := by
    simpa [State.registryControls, Function.comp_def] using congrArg (Option.map RegistryControls.authority) hcontrols.registry
  rw [State.ColdKey, hauthority, hprogramData, State.ColdKey]

theorem paused_iff (hcontrols : ControlsKept s s') : s'.Paused ↔ s.Paused := by
  have hiff : ∀ t : State, t.Paused ↔ t.bridgeControls.map (·.paused) = some true := by
    intro t
    simp [State.Paused, State.bridgeControls, Option.map_eq_some_iff]
  rw [hiff, hcontrols.bridge, hiff]

/-- What is needed of the state before a step, and holds in every state the chain can reach. -/
structure Reached (Γ : Ctx) (s : State) : Prop where
  owned : VaultsOwned s
  backed : ∀ w, Backed Γ s w

theorem Reached.step (hs : Reached Γ s) (h : Step Γ s a s') : Reached Γ s' :=
  ⟨fun mint => (vault_of_step hs.owned mint h).owned, fun w => h.backed (hs.backed w)⟩

theorem reached_genesis (hvaults : ∀ m, tokens.lookup (.assetVault m) = none) :
    Reached Γ (.genesis programData tokens lamports) :=
  ⟨fun m _ hvault => absurd ((hvaults m).symm.trans hvault) (by simp), fun _ => backed_of_none rfl⟩

theorem run_controls (hs : Reached Γ s) (h : Execution Γ s actions s')
    (hwarm : ∀ b ∈ actions, ∀ k ∈ b.signers, ¬ s.ColdKey Γ k) :
    Reached Γ s' ∧ s'.programData = s.programData ∧ ControlsKept s s' := by
  refine h.invariant_of (P := fun t => Reached Γ t ∧ t.programData = s.programData ∧ ControlsKept s t) hwarm
    ⟨hs, rfl, rfl, fun _ => rfl, rfl⟩ ?_
  rintro t a u hcold ⟨hreached, hprogramData, hcontrols⟩ hstep
  have hwarmStep := warmStep_of_step hreached.owned hreached.backed hstep
    (fun k hk => mt (coldKey_iff hprogramData hcontrols).mp (hcold k hk))
  exact ⟨hreached.step hstep, hwarmStep.programData.trans hprogramData, hcontrols.trans hwarmStep.controls⟩

end ColdKeysAux

/-- In every run from a reachable state that neither the authority of the registry nor the upgrade authority signs, each step
leaves the parameters as they were, takes no stake from a validator account but that of a wallet that signs
`unregister_validator`, and on a paused bridge takes nothing out of the vaults and changes no note, total or reward. -/
theorem cold_keys_contain {Γ : Ctx} {programData : RawAccount} {tokens : Table Pubkey TokenAccount}
    {lamports : Ledger Pubkey} {before actions : List Action} {s t u : State} {a : Action}
    (hvaults : ∀ m, tokens.lookup (.assetVault m) = none)
    (hreach : Execution Γ (.genesis programData tokens lamports) before s) (h : Execution Γ s actions t)
    (hstep : Step Γ t a u) (hcold : ∀ b ∈ actions ++ [a], ∀ k ∈ b.signers, ¬ s.ColdKey Γ k) :
    ControlsKept s u ∧
      (∀ w, u.stakeAmountOf w < t.stakeAmountOf w → ∃ clock k, w = .key k ∧ a = .program clock (.unregisterValidator k)) ∧
      (s.Paused → Frozen t u) := by
  have hs : ColdKeysAux.Reached Γ s :=
    hreach.invariant (ColdKeysAux.reached_genesis hvaults) (fun _ _ _ hs hstep => hs.step hstep)
  obtain ⟨ht, hprogramData, hcontrols⟩ :=
    ColdKeysAux.run_controls hs h (fun b hb => hcold b (List.mem_append_left _ hb))
  have hwarm := ColdKeysAux.warmStep_of_step ht.owned ht.backed hstep
    (fun k hk => mt (ColdKeysAux.coldKey_iff hprogramData hcontrols).mp (hcold a (by simp) k hk))
  exact ⟨hcontrols.trans hwarm.controls, hwarm.stake,
    fun hpaused => hwarm.frozen ((ColdKeysAux.paused_iff hcontrols).mpr hpaused)⟩

namespace ColdKeysAux

def pausedBridge : List Action := Sample.settlement ++ [.program ⟨19, 0⟩ (.pause Sample.operator)]

/-- A donation, and a validator that leaves. -/
def donation : Action := .systemTransfer Sample.depositor .bridgeVault 5

def leaving : Action := .program ⟨20, 0⟩ (.unregisterValidator Sample.cosigner)

end ColdKeysAux

open ColdKeysAux in
/-- On the paused bridge the cosigner leaves after a donation, with neither key of the operator. -/
theorem cold_keys_contain_leaving : ∃ s t u, Execution Sample.ctx Sample.genesis pausedBridge s ∧
    Execution Sample.ctx s [donation] t ∧ Step Sample.ctx t leaving u ∧ s.Paused ∧
      u.stakeAmountOf (.key Sample.cosigner) < t.stakeAmountOf (.key Sample.cosigner) ∧ ControlsKept s u ∧ Frozen t u := by
  have hsucceeds : succeedsWith Sample.ctx Sample.genesis pausedBridge (fun s =>
      s.bridgeState.any (·.data.paused) ∧ ¬ s.ColdKey Sample.ctx Sample.depositor ∧
        ¬ s.ColdKey Sample.ctx Sample.cosigner ∧
        succeedsWith Sample.ctx s [donation] (fun t => t.stakeAmountOf (.key Sample.cosigner) = 3000000000 ∧
          succeedsWith Sample.ctx t [leaving] (fun u => u.stakeAmountOf (.key Sample.cosigner) = 0))) = true := by
    decide +kernel
  obtain ⟨s, hreach, hs⟩ := exists_execution hsucceeds
  obtain ⟨hpaused, hdepositor, hcosigner, hdonation⟩ := of_decide_eq_true hs
  obtain ⟨t, hrun, ht⟩ := exists_execution hdonation
  obtain ⟨hstake, hleaving⟩ := of_decide_eq_true ht
  obtain ⟨u, hlast, hu⟩ := exists_execution hleaving
  obtain ⟨_, hstep, hnil⟩ := hlast.first_step
  rw [hnil.eq_of_nil] at hstep
  have hstake' := of_decide_eq_true hu
  have hcold : ∀ b ∈ [donation] ++ [leaving], ∀ k ∈ b.signers, ¬ s.ColdKey Sample.ctx k := by
    simp [donation, leaving, Action.signers, Instruction.signers, hdepositor, hcosigner]
  obtain ⟨hcontrols, -, hfrozen⟩ := cold_keys_contain (fun m => rfl) hreach hrun hstep hcold
  have hpaused : s.Paused := by
    obtain ⟨bridge, hb, hflag⟩ := (Option.any_eq_true _ _).mp hpaused
    exact ⟨bridge, hb, hflag⟩
  exact ⟨s, t, u, hreach, hrun, hstep, hpaused, by omega, hcontrols, hfrozen hpaused⟩

end Paraloom
