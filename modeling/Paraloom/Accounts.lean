import Paraloom.MerkleTree
import Paraloom.Lib.Ledger

/-!
# Accounts and the state of the chain

The data the program keeps in its accounts, and the part of the chain it can see: its own accounts under the seeds they are
derived from, the token accounts, and the lamports of every address. Counters are natural numbers; the instructions that
write them say where 64 bits are checked or clamped.
-/

namespace Paraloom

/-! ## Account data -/

structure BridgeState where
  programVersion : UInt32
  authority : Pubkey
  totalDeposited : Nat
  totalWithdrawn : Nat
  depositCount : Nat
  withdrawalCount : Nat
  paused : Bool
  merkleRoot : Bytes32
  depositCap : Nat

structure AssetConfig where
  mint : Pubkey
  depositCap : Nat
  totalDeposited : Nat
  depositCount : Nat

structure NullifierAccount where
  nullifier : Bytes32
  usedAt : Int64
  withdrawalId : Nat

structure ValidatorRegistry where
  authority : Pubkey
  totalValidators : Nat
  activeValidators : Nat
  minimumStake : Nat
  totalActiveStake : Nat
  stakeMint : Pubkey
  minTokenStake : Nat
  deriving DecidableEq

structure ValidatorAccount where
  validator : Pubkey
  stakeAmount : Nat
  reputationScore : Nat
  totalTasksVerified : Nat
  successfulVerifications : Nat
  registeredAt : Int64
  lastActive : Int64
  isActive : Bool
  pendingRewards : Nat
  totalEarnings : Nat
  timesSlashed : Nat
  unbondingAmount : Nat
  unbondingSlot : Nat
  tokenStakeAmount : Nat
  tokenUnbondingAmount : Nat

structure TokenAccount where
  mint : Pubkey
  owner : Pubkey
  amount : Nat
  deriving DecidableEq

/-- An account of the program: its data and the length of its data. An account made by an earlier program may be shorter than
the current layout; `data` is then what its bytes say once they are extended with zeros. -/
structure ProgramAccount (α : Type) where
  data : α
  dataLen : Nat
  deriving DecidableEq

/-- `8 + BridgeState::INIT_SPACE`: discriminator, version, authority, four counters, flag, root and cap. -/
def bridgeStateSpace : Nat := 8 + (4 + 32 + 8 + 8 + 8 + 8 + 1 + 32 + 8)

/-- `8 + NullifierAccount::INIT_SPACE`. -/
def nullifierAccountSpace : Nat := 8 + (32 + 8 + 8)

/-- `8 + ValidatorRegistry::INIT_SPACE`. -/
def validatorRegistrySpace : Nat := 8 + (32 + 8 + 8 + 8 + 8 + 32 + 8)

/-- `8 + ValidatorAccount::INIT_SPACE`. -/
def validatorAccountSpace : Nat := 8 + (32 + 8 + 8 + 8 + 8 + 8 + 8 + 1 + 8 + 8 + 8 + 8 + 8 + 8 + 8)

/-- `AssetConfig::SPACE`. -/
def assetConfigSpace : Nat := 8 + 32 + 8 + 8 + 8 + 1

/-- `8 + MERKLE_TREE_SIZE`. -/
def merkleTreeSpace : Nat := 8 + (2 * 8 + 32 + 32 * 32 + 64 * 32)

def tokenAccountSpace : Nat := 165

/-! ## Events -/

inductive Event where
  | depositNote (depositor : Pubkey) (amount : UInt64) (commitment : Bytes32) (leafIndex : Nat) (timestamp : Int64)
  | depositNoteSpl (depositor mint : Pubkey) (amount : UInt64) (commitment : Bytes32) (leafIndex : Nat) (timestamp : Int64)
  | transact (nullifier0 nullifier1 outCommitment0 outCommitment1 newRoot : Bytes32) (extAmount : Int64) (fee : Nat)
      (recipient : Pubkey) (timestamp : Int64) (settlementId : Nat)
  | validatorRegistered (validator : Pubkey) (stakeAmount : UInt64) (timestamp : Int64)
  | validatorUnregistered (validator : Pubkey) (stakeReturned : Nat) (timestamp : Int64)
  | unbondedStakeWithdrawn (validator : Pubkey) (amount : Nat) (timestamp : Int64)
  | registryReset (authority : Pubkey) (activeValidators totalActiveStake : Nat) (timestamp : Int64)
  | validatorSlashed (validator : Pubkey) (slashAmount : Nat) (slashPercentage : UInt8) (oldStake newStake : Nat)
      (timestamp : Int64)
  | rewardClaimed (validator : Pubkey) (amount : Nat) (timestamp : Int64)

/-- The leaves an event reports, in the order they were appended. -/
def Event.leaves : Event → List Bytes32
  | .depositNote _ _ commitment _ _ => [commitment]
  | .depositNoteSpl _ _ _ commitment _ _ => [commitment]
  | .transact _ _ outCommitment0 outCommitment1 _ _ _ _ _ _ => [outCommitment0, outCommitment1]
  | _ => []

/-! ## State -/

/-- The clock of the slot a transaction runs in. -/
structure Clock where
  slot : UInt64
  unixTimestamp : Int64

/-- The upgradeable loader's `ProgramData` account of the program, as raw bytes. -/
structure RawAccount where
  owner : Pubkey
  data : List UInt8

/-- What the chain holds for the program. The log is the events emitted so far, oldest first. -/
structure State where
  programData : RawAccount
  bridgeState : Option (ProgramAccount BridgeState)
  validatorRegistry : Option (ProgramAccount ValidatorRegistry)
  merkleTree : Option MerkleTree
  validators : Table Pubkey (ProgramAccount ValidatorAccount)
  nullifiers : Table Bytes32 NullifierAccount
  assetConfigs : Table Pubkey AssetConfig
  tokens : Table Pubkey TokenAccount
  lamports : Ledger Pubkey
  log : List Event

namespace State

/-- The chain before the program has created any account. -/
def genesis (programData : RawAccount) (tokens : Table Pubkey TokenAccount) (lamports : Ledger Pubkey) : State where
  programData
  bridgeState := none
  validatorRegistry := none
  merkleTree := none
  validators := ∅
  nullifiers := ∅
  assetConfigs := ∅
  tokens
  lamports
  log := []

/-- The leaves appended so far, in order. -/
def leaves (s : State) : List Bytes32 := s.log.flatMap Event.leaves

/-- `bridge_state.total_deposited`, zero before the account exists. -/
def totalDeposited (s : State) : Nat := s.bridgeState.elim 0 (·.data.totalDeposited)

/-- `bridge_state.total_withdrawn`, zero before the account exists. -/
def totalWithdrawn (s : State) : Nat := s.bridgeState.elim 0 (·.data.totalWithdrawn)

/-- The lamports of an address. -/
def balance (s : State) (k : Pubkey) : Nat := s.lamports.balance k

/-- The program has created its account at an address. -/
def hasAccount (s : State) : Pubkey → Bool
  | .bridgeState => s.bridgeState.isSome
  | .merkleTree => s.merkleTree.isSome
  | .validatorRegistry => s.validatorRegistry.isSome
  | .validator wallet => (s.validators.lookup wallet).isSome
  | .nullifier bytes => (s.nullifiers.lookup bytes).isSome
  | .assetConfig mint => (s.assetConfigs.lookup mint).isSome
  | _ => false

/-- The program that owns an address. -/
def owner (s : State) (k : Pubkey) : Pubkey :=
  if s.hasAccount k then programId else if (s.tokens.lookup k).isSome then tokenProgram else systemProgram

/-! ## Totals over the validator accounts -/

def activeStakeWeight (_ : Pubkey) (a : ProgramAccount ValidatorAccount) : Nat :=
  if a.data.isActive then a.data.stakeAmount else 0

def activeStakeSum (s : State) : Nat := s.validators.total activeStakeWeight

def pendingRewardsSum (s : State) : Nat := s.validators.total fun _ a => a.data.pendingRewards

def activeCount (s : State) : Nat := s.validators.total fun _ a => if a.data.isActive then 1 else 0

/-- The tokens that the validator accounts record, staked and unbonding. -/
def tokenStakeSum (s : State) : Nat := s.validators.total fun _ a => a.data.tokenStakeAmount + a.data.tokenUnbondingAmount

def stakeVaultTokens (s : State) : Nat := (s.tokens.lookup .stakeTokenVault).elim 0 (·.amount)

def activeStakeOf (s : State) (wallet : Pubkey) : Nat := s.validators.weight activeStakeWeight wallet

end State

end Paraloom
