import Paraloom.Program.Bridge

/-!
# The validator instructions

The registry and the validator accounts: registration locks a stake in lamports and one in tokens, leaving moves both into
unbonding, and the unbonded stake is paid out when the account is closed. An account is named by the wallet it is derived
from.
-/

namespace Paraloom

open Checked

/-! ## The registry -/

/-- Also creates the vault of the token stakes. -/
def initializeValidatorRegistry (Γ : Ctx) (s : State) (authority : Signer) (stakeMint : Pubkey) : Result State := do
  let lamports0 ← initAccount Γ s.lamports s.validatorRegistry.isSome (.key authority) .validatorRegistry validatorRegistrySpace
  let vault ← initTokenAccount Γ { s with lamports := lamports0 } (.key authority) .stakeTokenVault stakeMint
    .stakeVaultAuthority
  checkUpgradeAuthority Γ s.programData (.key authority)
  let data : ValidatorRegistry := {
    authority := .key authority, totalValidators := 0, activeValidators := 0, minimumStake := minValidatorStake,
    totalActiveStake := 0, stakeMint, minTokenStake := recommendedMinTokenStake }
  pure { s with validatorRegistry := some ⟨data, validatorRegistrySpace⟩, tokens := vault.2, lamports := vault.1 }

/-- For a registry that predates the vault. -/
def initStakeTokenVault (Γ : Ctx) (s : State) (authority : Signer) (stakeMint : Pubkey) : Result State := do
  let vault ← initTokenAccount Γ s (.key authority) .stakeTokenVault stakeMint .stakeVaultAuthority
  checkUpgradeAuthority Γ s.programData (.key authority)
  pure { s with tokens := vault.2, lamports := vault.1 }

def setMinTokenStake (s : State) (authority : Signer) (newMin : UInt64) : Result State := do
  let registry ← loadRegistryAs s authority
  pure { s with
    validatorRegistry := some { registry with data := { registry.data with minTokenStake := newMin.toNat } } }

/-- The validator account at an address that is passed by its address. -/
def validatorAt (s : State) : Pubkey → Result (ProgramAccount ValidatorAccount)
  | .validator wallet => loadAccount validatorAccountSpace (s.validators.lookup wallet)
  | _ => .error (.bridge .unauthorizedInit)

/-- The loop of `reset_validator_registry` over the passed accounts: total stake and number of the validators counted. -/
def countResetAccounts (s : State) : (accounts : List Pubkey) → (seen : List Pubkey) → (totalActiveStake active : Nat) →
    Result (Nat × Nat)
  | [], _, totalActiveStake, active => pure (totalActiveStake, active)
  | acc :: rest, seen, totalActiveStake, active => do
    require (s.owner acc = programId) .unauthorizedInit
    let v ← validatorAt s acc
    require (findValidatorAddress v.data.validator = acc) .unauthorizedInit
    require (v.data.isActive = true) .unauthorizedInit
    require (acc ∉ seen) .unauthorizedInit
    countResetAccounts s rest (seen ++ [acc]) (Checked.satAdd totalActiveStake v.data.stakeAmount) (Checked.satAdd active 1)

/-- Rebuild the counters from exactly the accounts that are passed. -/
def resetValidatorRegistry (Γ : Ctx) (clock : Clock) (s : State) (authority : Signer) (stakeMint : Pubkey)
    (expectedActiveValidators : UInt64) (accounts : List Pubkey) : Result State := do
  checkUpgradeAuthority Γ s.programData (.key authority)
  let _ ← okOr s.validatorRegistry .unauthorizedInit
  let minBalance := Γ.minimumBalance validatorRegistrySpace
  let lamports ← topUp s.lamports (.key authority) .validatorRegistry (minBalance - s.balance .validatorRegistry)
  let counted ← countResetAccounts s accounts [] 0 0
  require (counted.2 = expectedActiveValidators.toNat) .registryResetCountMismatch
  let data : ValidatorRegistry := {
    authority := .key authority, totalValidators := counted.2, activeValidators := counted.2,
    minimumStake := minValidatorStake, totalActiveStake := counted.1, stakeMint,
    minTokenStake := recommendedMinTokenStake }
  pure { s with
    validatorRegistry := some ⟨data, validatorRegistrySpace⟩
    lamports
    log := s.log ++ [.registryReset (.key authority) counted.2 counted.1 clock.unixTimestamp] }

/-! ## Joining -/

def ValidatorAccount.registered (validator : Pubkey) (stakeAmount creditedTokenStake : Nat) (clock : Clock) :
    ValidatorAccount where
  validator
  stakeAmount
  reputationScore := 1000
  totalTasksVerified := 0
  successfulVerifications := 0
  registeredAt := clock.unixTimestamp
  lastActive := clock.unixTimestamp
  isActive := true
  pendingRewards := 0
  totalEarnings := 0
  timesSlashed := 0
  unbondingAmount := 0
  unbondingSlot := 0
  tokenStakeAmount := creditedTokenStake
  tokenUnbondingAmount := 0

def ValidatorRegistry.join (registry : ValidatorRegistry) (stake : Nat) : ValidatorRegistry :=
  { registry with
    totalValidators := Checked.satAdd registry.totalValidators 1
    activeValidators := Checked.satAdd registry.activeValidators 1
    totalActiveStake := Checked.satAdd registry.totalActiveStake stake }

/-- The token stake is what the vault received, not what was sent. -/
def registerValidator (Γ : Ctx) (clock : Clock) (s : State) (validator : Signer) (validatorTokenAccount : Pubkey)
    (stakeAmount tokenStakeAmount : UInt64) : Result State := do
  let registry ← loadAccount validatorRegistrySpace s.validatorRegistry
  let tokenAccount ← loadFixed (s.tokens.lookup validatorTokenAccount)
  let vault ← loadFixed (s.tokens.lookup .stakeTokenVault)
  let lamports0 ← initAccount Γ s.lamports (s.validators.lookup (.key validator)).isSome (.key validator)
    (.validator (.key validator)) validatorAccountSpace
  constraint (tokenAccount.mint = registry.data.stakeMint ∧ tokenAccount.owner = .key validator) .constraint
  require (minValidatorStake ≤ stakeAmount.toNat) .insufficientStake
  require (registry.data.minTokenStake ≤ tokenStakeAmount.toNat) .insufficientTokenStake
  let lamports ← transferLamports lamports0 (.key validator) (.validator (.key validator)) stakeAmount.toNat
  let tokens ← transferChecked Γ s.tokens registry.data.stakeMint validatorTokenAccount .stakeTokenVault (.key validator)
    tokenStakeAmount.toNat
  let vaultAfter ← loadFixed (tokens.lookup .stakeTokenVault)
  let creditedTokenStake ← okOr (Checked.checkedSub vaultAfter.amount vault.amount) .invalidAmount
  require (registry.data.minTokenStake ≤ creditedTokenStake) .insufficientTokenStake
  let account := ValidatorAccount.registered (.key validator) stakeAmount.toNat creditedTokenStake clock
  pure { s with
    validatorRegistry := some { registry with data := registry.data.join stakeAmount.toNat }
    validators := s.validators.insert (.key validator) ⟨account, validatorAccountSpace⟩
    tokens
    lamports
    log := s.log ++ [.validatorRegistered (.key validator) stakeAmount clock.unixTimestamp] }

/-! ## Leaving -/

/-- The slot at which stake that leaves now may be withdrawn. -/
def unbondingSlotAt (clock : Clock) : Nat := Checked.satAdd clock.slot.toNat unbondingSlots

def ValidatorRegistry.drop (registry : ValidatorRegistry) (stake : Nat) : ValidatorRegistry :=
  { registry with
    activeValidators := Checked.satSub registry.activeValidators 1
    totalActiveStake := Checked.satSub registry.totalActiveStake stake }

/-- A validator account whose stakes in lamports and in tokens are moved into unbonding. -/
def ValidatorAccount.unbond (v : ValidatorAccount) (clock : Clock) : ValidatorAccount :=
  { v with
    isActive := false
    stakeAmount := 0
    unbondingAmount := Checked.satAdd v.unbondingAmount v.stakeAmount
    unbondingSlot := unbondingSlotAt clock
    tokenStakeAmount := 0
    tokenUnbondingAmount := Checked.satAdd v.tokenUnbondingAmount v.tokenStakeAmount }

def unregisterValidator (clock : Clock) (s : State) (validator : Signer) : Result State := do
  let v ← loadAccount validatorAccountSpace (s.validators.lookup (.key validator))
  let registry ← loadAccount validatorRegistrySpace s.validatorRegistry
  constraint (v.data.validator = .key validator) .constraint
  require (v.data.isActive = true) .validatorNotActive
  pure { s with
    validatorRegistry := some { registry with data := registry.data.drop v.data.stakeAmount }
    validators := s.validators.insert (.key validator) { v with data := v.data.unbond clock }
    log := s.log ++ [.validatorUnregistered (.key validator) 0 clock.unixTimestamp] }

/-- The validator account `deactivate_validator` writes. Unlike `unbond` it leaves the token stake where it is. -/
def ValidatorAccount.deactivate (v : ValidatorAccount) (clock : Clock) : ValidatorAccount :=
  { v with
    isActive := false
    unbondingAmount := Checked.satAdd v.unbondingAmount v.stakeAmount
    unbondingSlot := unbondingSlotAt clock
    stakeAmount := 0 }

def deactivateValidator (clock : Clock) (s : State) (authority : Signer) (wallet : Pubkey) : Result State := do
  let v ← loadAccount validatorAccountSpace (s.validators.lookup wallet)
  let registry ← loadRegistryAs s authority
  constraint (v.data.validator = wallet) .constraintSeeds
  if v.data.isActive then
    pure { s with
      validatorRegistry := some { registry with data := registry.data.drop v.data.stakeAmount }
      validators := s.validators.insert wallet { v with data := v.data.deactivate clock } }
  else pure s

/-- Pays the unbonded stakes out and closes the account. -/
def withdrawUnbondedStake (Γ : Ctx) (clock : Clock) (s : State) (validator : Signer) (validatorTokenAccount : Pubkey) :
    Result State := do
  let v ← loadAccount validatorAccountSpace (s.validators.lookup (.key validator))
  let tokenAccount ← loadFixed (s.tokens.lookup validatorTokenAccount)
  let vault ← loadFixed (s.tokens.lookup .stakeTokenVault)
  constraint (v.data.validator = .key validator) .constraint
  constraint (tokenAccount.mint = vault.mint ∧ tokenAccount.owner = .key validator) .constraint
  let amount := v.data.unbondingAmount
  require (0 < amount ∨ (amount = 0 ∧ v.data.isActive = false ∧ v.data.stakeAmount = 0 ∧ 0 < v.data.unbondingSlot))
    .nothingUnbonding
  require (v.data.unbondingSlot ≤ clock.slot.toNat) .unbondingNotElapsed
  require (v.data.pendingRewards = 0) .pendingRewardsUnclaimed
  let pda : Pubkey := .validator (.key validator)
  let lamports0 ← moveLamports s.lamports pda (.key validator) amount
  let tokenAmount := v.data.tokenUnbondingAmount
  let tokens ← transferAny Γ s.tokens vault.mint .stakeTokenVault validatorTokenAccount .stakeVaultAuthority tokenAmount
  -- `close = validator`: the rest of the lamports goes to the wallet and the address is free again
  let lamports ← moveLamports lamports0 pda (.key validator) (lamports0.balance pda)
  pure { s with
    validators := s.validators.erase (.key validator)
    tokens
    lamports
    log := s.log ++ [.unbondedStakeWithdrawn v.data.validator amount clock.unixTimestamp] }

/-! ## Slashing -/

/-- The stake in lamports that a slash is taken from. -/
def ValidatorAccount.atRisk (v : ValidatorAccount) : Nat := if v.isActive then v.stakeAmount else v.unbondingAmount

/-- The stake in tokens that a slash is taken from. -/
def ValidatorAccount.tokenAtRisk (v : ValidatorAccount) : Nat :=
  if v.isActive then v.tokenStakeAmount else v.tokenUnbondingAmount

/-- A percentage of an amount, rounded down. -/
def slashOf (amount : Nat) (slashPercentage : UInt8) : Nat := amount * slashPercentage.toNat / 100

/-- The validator account after a slash: an active one keeps the rest of its stake, or loses its place if the rest is below
the minimum, and an unbonding one keeps the rest of what unbonds. -/
def ValidatorAccount.slash (v : ValidatorAccount) (minimumStake : Nat) (slashPercentage : UInt8) (clock : Clock) :
    ValidatorAccount :=
  let slashAmount := slashOf v.atRisk slashPercentage
  let tokenSlash := slashOf v.tokenAtRisk slashPercentage
  let v := { v with timesSlashed := Checked.satAdd v.timesSlashed 1 }
  if v.isActive then
    let v := { v with
      stakeAmount := Checked.satSub v.stakeAmount slashAmount
      tokenStakeAmount := Checked.satSub v.tokenStakeAmount tokenSlash }
    if v.stakeAmount < minimumStake then v.unbond clock else v
  else
    { v with
      unbondingAmount := Checked.satSub v.unbondingAmount slashAmount
      tokenUnbondingAmount := Checked.satSub v.tokenUnbondingAmount tokenSlash }

theorem ValidatorAccount.slash_pendingRewards (v : ValidatorAccount) (minimumStake : Nat) (slashPercentage : UInt8)
    (clock : Clock) : (v.slash minimumStake slashPercentage clock).pendingRewards = v.pendingRewards := by
  unfold slash
  dsimp only
  split
  · split <;> rfl
  · rfl

def ValidatorRegistry.slash (registry : ValidatorRegistry) (v : ValidatorAccount) (slashPercentage : UInt8) :
    ValidatorRegistry :=
  let slashAmount := slashOf v.atRisk slashPercentage
  if v.isActive then
    if Checked.satSub v.stakeAmount slashAmount < registry.minimumStake then registry.drop v.stakeAmount
    else { registry with totalActiveStake := Checked.satSub registry.totalActiveStake slashAmount }
  else registry

/-- The slashed lamports go to a vault nothing is paid from, the slashed tokens are burned. -/
def slashValidator (clock : Clock) (s : State) (authority : Signer) (wallet validator : Pubkey) (slashPercentage : UInt8) :
    Result State := do
  let v ← loadAccount validatorAccountSpace (s.validators.lookup wallet)
  let _ ← loadFixed (s.tokens.lookup .stakeTokenVault)
  let registry ← loadRegistryAs s authority
  constraint (v.data.validator = wallet) .constraintSeeds
  require (v.data.validator = validator) .invalidValidator
  require (0 < slashPercentage.toNat ∧ slashPercentage.toNat ≤ 100) .invalidAmount
  let slashAmount := slashOf v.data.atRisk slashPercentage
  let tokenSlash := slashOf v.data.tokenAtRisk slashPercentage
  let slashed := v.data.slash registry.data.minimumStake slashPercentage clock
  let lamports ← moveLamports s.lamports (.validator wallet) .slashedFundsVault slashAmount
  let tokens ← burnAny s.tokens registry.data.stakeMint .stakeTokenVault .stakeVaultAuthority tokenSlash
  pure { s with
    validatorRegistry := some { registry with data := registry.data.slash v.data slashPercentage }
    validators := s.validators.insert wallet { v with data := slashed }
    tokens
    lamports
    log := s.log ++ [.validatorSlashed validator slashAmount slashPercentage v.data.atRisk slashed.stakeAmount
      clock.unixTimestamp] }

/-! ## Rewards, reputation and migration -/

def claimRewards (clock : Clock) (s : State) (validator : Signer) : Result State := do
  let bridge ← loadAccount bridgeStateSpace s.bridgeState
  let v ← loadAccount validatorAccountSpace (s.validators.lookup (.key validator))
  constraint (v.data.validator = .key validator) .constraint
  require (bridge.data.paused = false) .bridgePaused
  require (0 < v.data.pendingRewards) .invalidAmount
  let rewardAmount := v.data.pendingRewards
  let lamports ← transferLamports s.lamports .bridgeVault (.key validator) rewardAmount
  let totalEarnings ← okOr (Checked.checkedAdd v.data.totalEarnings rewardAmount) .invalidAmount
  pure { s with
    validators := s.validators.insert (.key validator) { v with data := { v.data with pendingRewards := 0, totalEarnings } }
    lamports
    log := s.log ++ [.rewardClaimed (.key validator) rewardAmount clock.unixTimestamp] }

def updateReputation (clock : Clock) (s : State) (authority : Signer) (wallet validator : Pubkey) (newReputation : UInt64) :
    Result State := do
  let v ← loadAccount validatorAccountSpace (s.validators.lookup wallet)
  let _ ← loadRegistryAs s authority
  constraint (v.data.validator = wallet) .constraintSeeds
  require (v.data.validator = validator) .invalidValidator
  require (v.data.isActive = true) .validatorNotActive
  pure { s with
    validators := s.validators.insert wallet
      { v with data := { v.data with reputationScore := newReputation.toNat, lastActive := clock.unixTimestamp } } }

/-- Grow an account of an earlier layout and pay the rent of the added bytes. -/
def migrateValidatorAccount (Γ : Ctx) (s : State) (authority : Signer) (wallet : Pubkey) : Result State := do
  checkUpgradeAuthority Γ s.programData (.key authority)
  let v ← okOr (s.validators.lookup wallet) .unauthorizedInit
  if v.dataLen < validatorAccountSpace then do
    let extraRent := Γ.minimumBalance validatorAccountSpace - Γ.minimumBalance v.dataLen
    let lamports ← topUp s.lamports (.key authority) (.validator wallet) extraRent
    pure { s with validators := s.validators.insert wallet { v with dataLen := validatorAccountSpace }, lamports }
  else pure s

end Paraloom
