import Paraloom.Circuit
import Paraloom.Quorum

/-!
# What the instructions share

Loading and creating accounts, moving lamports and tokens, the upgrade-authority gate, and the inputs of the proof check.
-/

namespace Paraloom

/-! ## Constants -/

def minValidatorStake : Nat := 1000000000

def recommendedMinTokenStake : Nat := 1000000000000

def unbondingSlots : Nat := 216000

def maxProofLen : Nat := 256

def wireProofLen : Nat := 256

def withdrawalFeeBps : Nat := 25

def nativeSolAsset : Bytes32 := zero32

/-! ## Accounts -/

/-- Load an account of the program as a typed account: it has to exist and to hold the whole struct. -/
def loadAccount {α : Type} (space : Nat) (account : Option (ProgramAccount α)) : Result (ProgramAccount α) := do
  let a ← Checked.okOr account (.anchor .accountNotInitialized)
  constraint (space ≤ a.dataLen) .accountDidNotDeserialize
  pure a

@[simp] theorem loadAccount_ok_iff : loadAccount space account = .ok a ↔ account = some a ∧ space ≤ a.dataLen := by
  simp only [loadAccount, Checked.seq_ok_iff, Checked.okOr_ok_iff, constraint_ok_iff, Checked.return_ok_iff]
  constructor
  · rintro ⟨b, hb, _, hlen, rfl⟩
    exact ⟨hb, hlen⟩
  · rintro ⟨ha, hlen⟩
    exact ⟨a, ha, (), hlen, rfl⟩

def loadFixed {α : Type} (account : Option α) : Result α := Checked.okOr account (.anchor .accountNotInitialized)

@[simp] theorem loadFixed_ok_iff : loadFixed account = .ok a ↔ account = some a :=
  Checked.okOr_ok_iff

def transferLamports (lamports : Ledger Pubkey) (source target : Pubkey) (amount : Nat) : Result (Ledger Pubkey) :=
  Checked.okOr (lamports.move source target amount) .system

@[simp] theorem transferLamports_ok_iff : transferLamports l a b n = .ok l' ↔ l.move a b n = some l' :=
  Checked.okOr_ok_iff

/-- The `-=` and `+=` on lamports that the program makes itself: an overdraft panics. -/
def moveLamports (lamports : Ledger Pubkey) (source target : Pubkey) (amount : Nat) : Result (Ledger Pubkey) :=
  Checked.okOr (lamports.move source target amount) .arithmetic

@[simp] theorem moveLamports_ok_iff : moveLamports l a b n = .ok l' ↔ l.move a b n = some l' :=
  Checked.okOr_ok_iff

/-- A transfer that is skipped when nothing is due. -/
def topUp (lamports : Ledger Pubkey) (payer address : Pubkey) (due : Nat) : Result (Ledger Pubkey) :=
  if due = 0 then pure lamports else transferLamports lamports payer address due

/-- What the payer of an `init` adds to the address: the rent of an empty address, or what a funded one still lacks. -/
def rentDue (Γ : Ctx) (current space : Nat) : Nat :=
  if current = 0 then Γ.minimumBalance space else max (Γ.minimumBalance space) 1 - current

/-- Anchor's `init`: fails if the account exists, otherwise the payer tops the address up to its rent. -/
def initAccount (Γ : Ctx) (lamports : Ledger Pubkey) (exists_ : Bool) (payer address : Pubkey) (space : Nat) :
    Result (Ledger Pubkey) := do
  constraint (exists_ = false) .accountAlreadyInUse
  topUp lamports payer address (rentDue Γ (lamports.balance address) space)

@[simp] theorem initAccount_ok_iff : initAccount Γ l e payer address space = .ok l' ↔
      e = false ∧ topUp l payer address (rentDue Γ (l.balance address) space) = .ok l' := by
  simp [initAccount, Checked.seq_ok_iff]

/-! ## Tokens -/

/-- `transfer_checked` of the token program, signed by `authority`. The target gets the amount less the transfer fee of the
mint, and a transfer of an account to itself changes nothing. -/
def transferChecked (Γ : Ctx) (tokens : Table Pubkey TokenAccount) (mint source target authority : Pubkey) (amount : Nat) :
    Result (Table Pubkey TokenAccount) := do
  let src ← Checked.okOr (tokens.lookup source) .token
  let dst ← Checked.okOr (tokens.lookup target) .token
  Checked.require (src.mint = mint ∧ dst.mint = mint ∧ src.owner = authority ∧ amount ≤ src.amount) .token
  if source = target then pure tokens
  else do
    let received := amount - Γ.transferFee mint amount
    Checked.require (dst.amount + received ≤ Checked.u64Max) .token
    pure ((tokens.insert source { src with amount := src.amount - amount }).insert target
      { dst with amount := dst.amount + received })

/-- `burn` of the token program, signed by `authority`. -/
def burn (tokens : Table Pubkey TokenAccount) (mint source authority : Pubkey) (amount : Nat) :
    Result (Table Pubkey TokenAccount) := do
  let src ← Checked.okOr (tokens.lookup source) .token
  Checked.require (src.mint = mint ∧ src.owner = authority ∧ amount ≤ src.amount) .token
  pure (tokens.insert source { src with amount := src.amount - amount })

/-- A transfer that is skipped when there is nothing to transfer. -/
def transferAny (Γ : Ctx) (tokens : Table Pubkey TokenAccount) (mint source target authority : Pubkey) (amount : Nat) :
    Result (Table Pubkey TokenAccount) :=
  if 0 < amount then transferChecked Γ tokens mint source target authority amount else pure tokens

/-- A burn that is skipped when there is nothing to burn. -/
def burnAny (tokens : Table Pubkey TokenAccount) (mint source authority : Pubkey) (amount : Nat) :
    Result (Table Pubkey TokenAccount) :=
  if 0 < amount then burn tokens mint source authority amount else pure tokens

/-! ## The upgrade-authority gate -/

/-- The bytes of the program data account name `expected` as the upgrade authority. -/
def checkUpgradeAuthority (Γ : Ctx) (programData : RawAccount) (expected : Pubkey) : Result Unit := do
  require (programData.owner = bpfLoaderUpgradeable) .unauthorizedInit
  require (45 ≤ programData.data.length) .unauthorizedInit
  require (LittleEndian.toNat (programData.data.take 4) = 3) .unauthorizedInit
  require (programData.data.getD 12 0 = 1) .unauthorizedInit
  require ((programData.data.drop 13).take 32 = (Γ.toBytes expected).val) .unauthorizedInit

/-! ## The proof check -/

/-- The hash that binds a settlement to its recipient and its signed amount. -/
def transactExtDataHash (Γ : Ctx) (recipient : Pubkey) (extAmount : Int64) : Bytes32 :=
  Γ.sha256 ((Γ.toBytes recipient).val ++ LittleEndian.ofNat 8 extAmount.toUInt64.toNat)

/-- The field elements of the eight public inputs. -/
def publicInputs (root publicAmount extDataHash assetId nullifier0 nullifier1 outCommitment0 outCommitment1 : Bytes32) :
    TransactCircuitV3.PublicInputs where
  root := fromLeBytesModOrder root
  publicAmount := fromLeBytesModOrder publicAmount
  extDataHash := fromLeBytesModOrder extDataHash
  assetId := fromLeBytesModOrder assetId
  nullifier0 := fromLeBytesModOrder nullifier0
  nullifier1 := fromLeBytesModOrder nullifier1
  outCommitment0 := fromLeBytesModOrder outCommitment0
  outCommitment1 := fromLeBytesModOrder outCommitment1

def verifyTransact (Γ : Ctx) (inputs : TransactCircuitV3.PublicInputs) (proof : List UInt8) : Bool :=
  if proof.length ≠ wireProofLen then false
  else Γ.groth16 (proof.take 64) ((proof.drop 64).take 128) ((proof.drop 192).take 64) inputs.toList

end Paraloom
