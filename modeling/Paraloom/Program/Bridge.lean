import Paraloom.Program.Basic

/-!
# The bridge instructions

Deposits, settlements and the administration of the bridge. An instruction takes the accounts Anchor has resolved by their
seeds from the state, the accounts the caller chooses as arguments, and returns the state after it.
-/

namespace Paraloom

open Checked

/-! ## Initialization -/

/-- `initialize`. -/
def initializeBridge (Γ : Ctx) (s : State) (authority : Signer) (programVersion : UInt32) (initialMerkleRoot : Bytes32) :
    Result State := do
  let lamports ← initAccount Γ s.lamports s.bridgeState.isSome (.key authority) .bridgeState bridgeStateSpace
  checkUpgradeAuthority Γ s.programData (.key authority)
  -- fail closed: no deposit is accepted until the cap is raised
  let data : BridgeState := {
    programVersion, authority := .key authority, totalDeposited := 0, totalWithdrawn := 0, depositCount := 0,
    withdrawalCount := 0, paused := false, merkleRoot := initialMerkleRoot, depositCap := 0 }
  pure { s with bridgeState := some ⟨data, bridgeStateSpace⟩, lamports }

def initializeMerkleTree (Γ : Ctx) (s : State) (authority : Signer) : Result State := do
  let lamports ← initAccount Γ s.lamports s.merkleTree.isSome (.key authority) .merkleTree merkleTreeSpace
  checkUpgradeAuthority Γ s.programData (.key authority)
  pure { s with merkleTree := some .empty, lamports }

/-- Grow an account of an earlier layout, whose new bytes are zero. -/
def migrateBridgeState (Γ : Ctx) (s : State) (authority : Signer) : Result State := do
  checkUpgradeAuthority Γ s.programData (.key authority)
  let bridge ← okOr s.bridgeState .unauthorizedInit
  if bridge.dataLen < bridgeStateSpace then do
    let minBalance := Γ.minimumBalance bridgeStateSpace
    let lamports ← topUp s.lamports (.key authority) .bridgeState (minBalance - s.balance .bridgeState)
    pure { s with bridgeState := some { bridge with dataLen := bridgeStateSpace }, lamports }
  else pure s

/-! ## Deposits -/

def depositNote (Γ : Ctx) (clock : Clock) (s : State) (depositor : Signer) (amount : UInt64) (pubkey blinding : Bytes32) :
    Result State := do
  let bridge ← loadAccount bridgeStateSpace s.bridgeState
  let tree ← loadFixed s.merkleTree
  require (bridge.data.paused = false) .bridgePaused
  require (0 < amount.toNat) .invalidAmount
  requireCanonicalField pubkey .nonCanonicalFieldElement
  requireCanonicalField blinding .nonCanonicalFieldElement
  let projectedVaultBalance ← okOr (Checked.checkedAdd (s.balance .bridgeVault) amount.toNat) .invalidAmount
  require (projectedVaultBalance ≤ bridge.data.depositCap) .depositCapExceeded
  let lamports ← transferLamports s.lamports (.key depositor) .bridgeVault amount.toNat
  let leaf ← commitment Γ amount pubkey blinding nativeSolAsset
  let appended ← tree.append Γ leaf
  let totalDeposited ← okOr (Checked.checkedAdd bridge.data.totalDeposited amount.toNat) .invalidAmount
  let depositCount := Checked.satAdd bridge.data.depositCount 1
  pure { s with
    bridgeState := some { bridge with data := { bridge.data with totalDeposited, depositCount } }
    merkleTree := some appended.1
    lamports
    log := s.log ++ [.depositNote (.key depositor) amount leaf tree.nextIndex clock.unixTimestamp] }

/-! ## Settlements -/

/-- The arguments of `transact` and `transact_spl`. -/
structure TransactArgs where
  nullifier0 : Bytes32
  nullifier1 : Bytes32
  outCommitment0 : Bytes32
  outCommitment1 : Bytes32
  root : Bytes32
  extAmount : Int64
  proof : List UInt8

/-- What the shared part of a settlement leaves for the payout. -/
structure Settled where
  bridge : ProgramAccount BridgeState
  validator : ProgramAccount ValidatorAccount
  nullifiers : Table Bytes32 NullifierAccount
  lamports : Ledger Pubkey
  tree : MerkleTree
  newRoot : Bytes32
  settlementId : Nat

/-- The checks on the arguments of a settlement, before any work is done. -/
def checkTransactArgs (bridge : BridgeState) (tree : MerkleTree) (args : TransactArgs) : Result Unit := do
  require (bridge.paused = false) .bridgePaused
  require (args.proof ≠ []) .invalidProof
  require (args.proof.length ≤ maxProofLen) .proofTooLarge
  require (args.extAmount.toInt ≤ 0) .invalidAmount
  requireCanonicalNullifier args.nullifier0
  requireCanonicalNullifier args.nullifier1
  require (args.nullifier0 ≠ args.nullifier1) .duplicateNullifier
  requireCanonicalField args.outCommitment0 .nonCanonicalFieldElement
  requireCanonicalField args.outCommitment1 .nonCanonicalFieldElement
  requireCanonicalField args.root .nonCanonicalFieldElement
  require (tree.isKnownRoot args.root = true) .unknownMerkleRoot

/-- The public inputs a settlement is verified against. -/
def TransactArgs.publicInputs (Γ : Ctx) (recipient : Pubkey) (asset : Bytes32) (args : TransactArgs) :
    TransactCircuitV3.PublicInputs :=
  Paraloom.publicInputs args.root (publicAmountBytes args.extAmount) (transactExtDataHash Γ recipient args.extAmount) asset
    args.nullifier0 args.nullifier1 args.outCommitment0 args.outCommitment1

/-- The part that `transact` and `transact_spl` share, up to the payout: account checks, the two nullifier accounts, the
quorum, the proof and the two appended leaves. `assetOf` is how the settlement finds its asset. -/
def settle (Γ : Ctx) (clock : Clock) (s : State) (authority : Signer) (recipient : Pubkey) (assetOf : Result Bytes32)
    (quorum : List AccountMeta) (args : TransactArgs) : Result Settled := do
  let bridge ← loadAccount bridgeStateSpace s.bridgeState
  let tree ← loadFixed s.merkleTree
  let validator ← loadAccount validatorAccountSpace (s.validators.lookup (.key authority))
  let registry ← loadAccount validatorRegistrySpace s.validatorRegistry
  -- both nullifier accounts are created before the body runs
  let lamports0 ← initAccount Γ s.lamports (s.nullifiers.lookup args.nullifier0).isSome (.key authority)
    (.nullifier args.nullifier0) nullifierAccountSpace
  let settlementId := Checked.satAdd bridge.data.withdrawalCount 1
  let nullifiers0 := s.nullifiers.insert args.nullifier0 ⟨args.nullifier0, clock.unixTimestamp, settlementId⟩
  let lamports ← initAccount Γ lamports0 (nullifiers0.lookup args.nullifier1).isSome (.key authority)
    (.nullifier args.nullifier1) nullifierAccountSpace
  constraint (bridge.data.authority = .key authority) .constraint
  checkTransactArgs bridge.data tree args
  let asset ← assetOf
  require (validator.data.isActive = true) .validatorNotActive
  verifyValidatorQuorum registry.data (.key authority)
    (if validator.data.isActive then validator.data.stakeAmount else 0) (quorum.map s.accountInfo)
  require (verifyTransact Γ (args.publicInputs Γ recipient asset) args.proof = true) .invalidProof
  let appended0 ← tree.append Γ args.outCommitment0
  let appended1 ← appended0.1.append Γ args.outCommitment1
  pure {
    bridge, validator, lamports, settlementId
    nullifiers := nullifiers0.insert args.nullifier1 ⟨args.nullifier1, clock.unixTimestamp, settlementId⟩
    tree := appended1.1
    newRoot := appended1.2 }

def Settled.event (st : Settled) (clock : Clock) (args : TransactArgs) (fee : Nat) (recipient : Pubkey) : Event :=
  .transact args.nullifier0 args.nullifier1 args.outCommitment0 args.outCommitment1 st.newRoot args.extAmount fee recipient
    clock.unixTimestamp st.settlementId

/-- The counters of the settling validator after a settlement. -/
def ValidatorAccount.settledOne (v : ValidatorAccount) (clock : Clock) : ValidatorAccount :=
  { v with
    totalTasksVerified := Checked.satAdd v.totalTasksVerified 1
    successfulVerifications := Checked.satAdd v.successfulVerifications 1
    lastActive := clock.unixTimestamp }

def withdrawalFee (gross : Nat) : Result Nat := do
  let scaled ← okOr (Checked.checkedMul gross withdrawalFeeBps) .invalidAmount
  pure (scaled / 10000)

/-- What a native withdrawal changes. -/
structure NativePayout where
  fee : Nat
  lamports : Ledger Pubkey
  pendingRewards : Nat
  totalWithdrawn : Nat

/-- The external funds of `transact`: a negative amount leaves the vault, less the fee that is credited to the validator. -/
def payNative (Γ : Ctx) (st : Settled) (recipient : Pubkey) (extAmount : Int64) : Result NativePayout :=
  if extAmount.toInt < 0 then do
    let gross := extAmount.toInt.natAbs
    let fee ← withdrawalFee gross
    let payout := gross - fee
    let rentFloor := Γ.minimumBalance 0
    require (Checked.satAdd payout rentFloor ≤ st.lamports.balance .bridgeVault) .insufficientFunds
    let lamports ← transferLamports st.lamports .bridgeVault recipient payout
    let pendingRewards ← okOr (Checked.checkedAdd st.validator.data.pendingRewards fee) .invalidAmount
    let totalWithdrawn ← okOr (Checked.checkedAdd st.bridge.data.totalWithdrawn gross) .invalidAmount
    pure { fee, lamports, pendingRewards, totalWithdrawn }
  else
    pure {
      fee := 0, lamports := st.lamports, pendingRewards := st.validator.data.pendingRewards
      totalWithdrawn := st.bridge.data.totalWithdrawn }

def transact (Γ : Ctx) (clock : Clock) (s : State) (authority : Signer) (recipient : Pubkey) (quorum : List AccountMeta)
    (args : TransactArgs) : Result State := do
  constraint (s.owner recipient = systemProgram) .accountNotSystemOwned
  let st ← settle Γ clock s authority recipient (pure nativeSolAsset) quorum args
  let paid ← payNative Γ st recipient args.extAmount
  let validator := { st.validator.data.settledOne clock with pendingRewards := paid.pendingRewards }
  let bridge := { st.bridge.data with totalWithdrawn := paid.totalWithdrawn, withdrawalCount := st.settlementId }
  pure { s with
    bridgeState := some { st.bridge with data := bridge }
    merkleTree := some st.tree
    validators := s.validators.insert (.key authority) { st.validator with data := validator }
    nullifiers := st.nullifiers
    lamports := paid.lamports
    log := s.log ++ [st.event clock args paid.fee recipient] }

/-- The external funds of `transact_spl`: payout and fee leave the vault of the mint. Returns the fee and the tokens. -/
def paySpl (Γ : Ctx) (s : State) (mint recipient feeAccount : Pubkey) (extAmount : Int64) :
    Result (Nat × Table Pubkey TokenAccount) := do
  let vault ← loadFixed (s.tokens.lookup (.assetVault mint))
  if extAmount.toInt < 0 then do
    let gross := extAmount.toInt.natAbs
    let fee ← withdrawalFee gross
    let payout := gross - fee
    require (gross ≤ vault.amount) .insufficientFunds
    let paid ← transferChecked Γ s.tokens mint (.assetVault mint) recipient .assetVaultAuthority payout
    let tokens ← transferAny Γ paid mint (.assetVault mint) feeAccount .assetVaultAuthority fee
    pure (fee, tokens)
  else pure (0, s.tokens)

def tokenAccountOf (s : State) (account mint : Pubkey) : Result TokenAccount := do
  let a ← loadFixed (s.tokens.lookup account)
  constraint (a.mint = mint) .constraint
  pure a

def transactSpl (Γ : Ctx) (clock : Clock) (s : State) (authority : Signer) (mint recipientTokenAccount feeTokenAccount : Pubkey)
    (quorum : List AccountMeta) (args : TransactArgs) : Result State := do
  let _ ← tokenAccountOf s (.assetVault mint) mint
  let _ ← tokenAccountOf s recipientTokenAccount mint
  let fee ← tokenAccountOf s feeTokenAccount mint
  constraint (fee.owner = .key authority) .constraint
  let st ← settle Γ clock s authority recipientTokenAccount (mintToAsset Γ mint) quorum args
  let paid ← paySpl Γ s mint recipientTokenAccount feeTokenAccount args.extAmount
  pure { s with
    bridgeState := some { st.bridge with data := { st.bridge.data with withdrawalCount := st.settlementId } }
    merkleTree := some st.tree
    validators := s.validators.insert (.key authority) { st.validator with data := st.validator.data.settledOne clock }
    nullifiers := st.nullifiers
    tokens := paid.2
    lamports := st.lamports
    log := s.log ++ [st.event clock args paid.1 recipientTokenAccount] }

/-! ## Administration -/

def loadRegistryAs (s : State) (authority : Signer) : Result (ProgramAccount ValidatorRegistry) := do
  let registry ← loadAccount validatorRegistrySpace s.validatorRegistry
  constraint (registry.data.authority = .key authority) .constraint
  pure registry

def updateBridge (s : State) (authority : Signer) (update : BridgeState → BridgeState) : Result State := do
  let bridge ← loadAccount bridgeStateSpace s.bridgeState
  let _ ← loadRegistryAs s authority
  pure { s with bridgeState := some { bridge with data := update bridge.data } }

def pause (s : State) (authority : Signer) : Result State := updateBridge s authority ({ · with paused := true })

def unpause (s : State) (authority : Signer) : Result State := updateBridge s authority ({ · with paused := false })

def setBridgeAuthority (s : State) (authority : Signer) (newAuthority : Pubkey) : Result State :=
  updateBridge s authority ({ · with authority := newAuthority })

def setDepositCap (s : State) (authority : Signer) (newCap : UInt64) : Result State :=
  updateBridge s authority ({ · with depositCap := newCap.toNat })

/-!
## The instructions of shielded tokens

One vault and one configuration per mint, and the deposit that mirrors `deposit_note` for a token.
-/

/-- Anchor's `init` of a token account. -/
def initTokenAccount (Γ : Ctx) (s : State) (payer address mint owner : Pubkey) :
    Result (Ledger Pubkey × Table Pubkey TokenAccount) := do
  let lamports ← initAccount Γ s.lamports (s.tokens.lookup address).isSome payer address tokenAccountSpace
  pure (lamports, s.tokens.insert address ⟨mint, owner, 0⟩)

def initAssetVault (Γ : Ctx) (s : State) (authority : Signer) (mint : Pubkey) : Result State := do
  let vault ← initTokenAccount Γ s (.key authority) (.assetVault mint) mint .assetVaultAuthority
  let lamports ← initAccount Γ vault.1 (s.assetConfigs.lookup mint).isSome (.key authority) (.assetConfig mint) assetConfigSpace
  checkUpgradeAuthority Γ s.programData (.key authority)
  pure { s with
    assetConfigs := s.assetConfigs.insert mint { mint, depositCap := 0, totalDeposited := 0, depositCount := 0 }
    tokens := vault.2
    lamports }

/-- On the configuration of a mint. -/
def setAssetDepositCap (Γ : Ctx) (s : State) (authority : Signer) (mint : Pubkey) (newCap : UInt64) : Result State := do
  let config ← loadFixed (s.assetConfigs.lookup mint)
  constraint (config.mint = mint) .constraintSeeds
  checkUpgradeAuthority Γ s.programData (.key authority)
  pure { s with assetConfigs := s.assetConfigs.insert mint { config with depositCap := newCap.toNat } }

/-- A mint that charges a fee on the transfer is rejected: the vault has to receive what the note
commits to. -/
def depositNoteSpl (Γ : Ctx) (clock : Clock) (s : State) (depositor : Signer) (mint depositorTokenAccount : Pubkey)
    (amount : UInt64) (pubkey blinding : Bytes32) : Result State := do
  let bridge ← loadAccount bridgeStateSpace s.bridgeState
  let config ← loadFixed (s.assetConfigs.lookup mint)
  let vault ← tokenAccountOf s (.assetVault mint) mint
  let source ← tokenAccountOf s depositorTokenAccount mint
  constraint (source.owner = .key depositor) .constraint
  let tree ← loadFixed s.merkleTree
  require (bridge.data.paused = false) .bridgePaused
  require (0 < amount.toNat) .invalidAmount
  requireCanonicalField pubkey .nonCanonicalFieldElement
  requireCanonicalField blinding .nonCanonicalFieldElement
  let projectedVaultBalance ← okOr (Checked.checkedAdd vault.amount amount.toNat) .invalidAmount
  require (projectedVaultBalance ≤ config.depositCap) .depositCapExceeded
  let tokens ← transferChecked Γ s.tokens mint depositorTokenAccount (.assetVault mint) (.key depositor) amount.toNat
  let after ← loadFixed (tokens.lookup (.assetVault mint))
  let realized ← okOr (Checked.checkedSub after.amount vault.amount) .invalidAmount
  require (realized = amount.toNat) .invalidAmount
  let asset ← mintToAsset Γ mint
  let leaf ← commitment Γ amount pubkey blinding asset
  let appended ← tree.append Γ leaf
  let totalDeposited ← okOr (Checked.checkedAdd config.totalDeposited amount.toNat) .invalidAmount
  let depositCount := Checked.satAdd config.depositCount 1
  pure { s with
    assetConfigs := s.assetConfigs.insert mint { config with totalDeposited, depositCount }
    merkleTree := some appended.1
    tokens
    log := s.log ++ [.depositNoteSpl (.key depositor) mint amount leaf tree.nextIndex clock.unixTimestamp] }

end Paraloom
