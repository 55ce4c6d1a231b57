import Paraloom.Lib.Codec
import Paraloom.OffChain.CoSignRound
import Paraloom.Program.Bridge

/-!
# What the program reads of a settlement

The program's side of a settlement at the level of bytes and keys: how the data of an instruction is decoded, what the account
structs ask of the account at each place, and how the accounts after them are paired for the quorum.
-/

namespace Paraloom.OffChain

open LittleEndian

/-! ## Arguments -/

/-- The arguments of the settlement of a request, with the proof in the form the program reads. -/
def TransactVerificationRequest.args (request : TransactVerificationRequest) (proof : Bytes) : TransactArgs where
  nullifier0 := request.nullifiers.1
  nullifier1 := request.nullifiers.2
  outCommitment0 := request.outputCommitments.1
  outCommitment1 := request.outputCommitments.2
  root := request.root
  extAmount := request.extAmount
  proof

def bytes32Codec : Codec Bytes32 where
  width := 32
  encode := List.Vector.toList
  decode bytes := if h : bytes.length = 32 then some ⟨bytes, h⟩ else none
  length_encode := List.Vector.toList_length
  decode_encode v := dif_pos v.toList_length

/-- A signed 64-bit number, in two's complement and little-endian. -/
def i64Codec : Codec Int64 where
  width := 8
  encode x := LittleEndian.ofNat 8 x.toBitVec.toNat
  decode bytes := some (.ofBitVec (.ofNat 64 (LittleEndian.toNat bytes)))
  length_encode _ := LittleEndian.ofNat_length _ _
  decode_encode x := by
    rw [LittleEndian.toNat_ofNat_of_lt (x.toBitVec.isLt.trans_le (by decide)), BitVec.ofNat_toNat, BitVec.setWidth_eq,
      Int64.ofBitVec_toBitVec]

/-- An unsigned 32-bit number, little-endian. -/
def u32Codec : Codec UInt32 where
  width := 4
  encode x := LittleEndian.ofNat 4 x.toNat
  decode bytes := some (.ofNat (LittleEndian.toNat bytes))
  length_encode _ := LittleEndian.ofNat_length _ _
  decode_encode x := by rw [LittleEndian.toNat_ofNat_of_lt (x.toNat_lt.trans_le (by decide)), UInt32.ofNat_toNat]

/-- A byte vector: its length and the bytes. -/
def readVec (bytes : Bytes) : Option (Bytes × Bytes) := do
  let (length, rest) ← u32Codec.read bytes
  if rest.length < length.toNat then none else some (rest.take length.toNat, rest.drop length.toNat)

/-- The arguments of `transact` and `transact_spl`, in their order. What follows the last one is not read. -/
def decodeTransactArgs (bytes : Bytes) : Option TransactArgs := do
  let (nullifier0, bytes) ← bytes32Codec.read bytes
  let (nullifier1, bytes) ← bytes32Codec.read bytes
  let (outCommitment0, bytes) ← bytes32Codec.read bytes
  let (outCommitment1, bytes) ← bytes32Codec.read bytes
  let (root, bytes) ← bytes32Codec.read bytes
  let (extAmount, bytes) ← i64Codec.read bytes
  let (proof, _) ← readVec bytes
  pure { nullifier0, nullifier1, outCommitment0, outCommitment1, root, extAmount, proof }

/-- The two instructions that settle. -/
inductive SettlementInstruction where
  | transact
  | transactSpl

/-- The first eight bytes of SHA-256 of `global:transact` and of `global:transact_spl`. -/
def SettlementInstruction.discriminator : SettlementInstruction → Bytes
  | .transact => [217, 149, 130, 143, 221, 52, 252, 119]
  | .transactSpl => [154, 66, 244, 204, 78, 225, 163, 151]

/-- The dispatch of the program, as far as the instructions that settle. -/
def dispatch (data : Bytes) : Option (SettlementInstruction × TransactArgs) :=
  if data.take 8 = SettlementInstruction.transact.discriminator then
    (decodeTransactArgs (data.drop 8)).map (.transact, ·)
  else if data.take 8 = SettlementInstruction.transactSpl.discriminator then
    (decodeTransactArgs (data.drop 8)).map (.transactSpl, ·)
  else none

/-! ## Accounts -/

/-- An account as the runtime passes it to the program. -/
structure PassedAccount where
  key : Bytes32
  isSigner : Bool
  isWritable : Bool
  owner : Bytes32

/-- What an account struct asks of one of its accounts: one of some addresses, one of some owners, and rights. -/
structure AccountRule where
  addresses : Option (List Bytes32)
  owners : Option (List Bytes32)
  isWritable : Bool
  isSigner : Bool

def AccountRule.Allows (rule : AccountRule) (account : PassedAccount) : Prop :=
  (∀ keys ∈ rule.addresses, account.key ∈ keys) ∧ (∀ owners ∈ rule.owners, account.owner ∈ owners) ∧
    (rule.isWritable = true → account.isWritable = true) ∧ (rule.isSigner = true → account.isSigner = true)

instance (rule : AccountRule) (account : PassedAccount) : Decidable (rule.Allows account) :=
  inferInstanceAs (Decidable (_ ∧ _))

/-- `spl_token_2022::ID`. -/
def splToken2022ProgramId : Bytes32 := pubkeyOf
  [6, 221, 246, 225, 238, 117, 143, 222, 24, 66, 93, 188, 228, 108, 205, 218, 182, 26, 252, 77, 131, 185, 13, 39, 254, 189, 249,
    40, 216, 161, 139, 252]

/-- `bpf_loader_upgradeable::id()`, in bytes. -/
def bpfLoaderUpgradeableId : Bytes32 := pubkeyOf
  [2, 168, 246, 145, 78, 136, 161, 176, 226, 16, 21, 62, 247, 99, 174, 43, 0, 194, 185, 61, 22, 193, 36, 210, 192, 83, 122, 16,
    4, 128, 0, 0]

def rentSysvarId : Bytes32 := pubkeyOf
  [6, 167, 213, 23, 25, 44, 92, 81, 33, 140, 201, 76, 61, 74, 241, 127, 88, 218, 238, 8, 155, 161, 253, 68, 227, 219, 217, 138,
    0, 0, 0, 0]

/-- The programs that `TokenInterface` stands for, which are also the owners of its mints and accounts. -/
def tokenInterfaceIds : List Bytes32 := [splTokenProgramId, splToken2022ProgramId]

section Rules

variable (δ : SolanaSdk) (programId : Bytes32)

def AccountRule.account (seeds : List Bytes) (isWritable : Bool) : AccountRule :=
  ⟨some [δ.findProgramAddress seeds programId], some [programId], isWritable, false⟩

/-- An account that the instruction creates at its seeds. -/
def AccountRule.init (seeds : List Bytes) : AccountRule := ⟨some [δ.findProgramAddress seeds programId], none, true, false⟩

/-- An account that is pinned by its seeds and not looked at. -/
def AccountRule.unchecked (seeds : List Bytes) : AccountRule :=
  ⟨some [δ.findProgramAddress seeds programId], none, false, false⟩

def AccountRule.mint : AccountRule := ⟨none, some tokenInterfaceIds, false, false⟩

def AccountRule.tokenAccount : AccountRule := ⟨none, some tokenInterfaceIds, true, false⟩

def AccountRule.assetVault (mint : Bytes32) : AccountRule :=
  { AccountRule.tokenAccount with addresses := some [δ.findProgramAddress [utf8 "asset_vault", mint.toList] programId] }

/-- `Interface<TokenInterface>`. -/
def AccountRule.tokenProgram : AccountRule := ⟨some tokenInterfaceIds, none, false, false⟩

/-- `Program<System>`. -/
def AccountRule.systemProgram : AccountRule := ⟨some [systemProgramId], none, false, false⟩

/-- `#[account(mut)] Signer`. -/
def AccountRule.payer : AccountRule := ⟨none, none, true, true⟩

/-- The key at a place. -/
def keyAt (accounts : List PassedAccount) (i : Nat) : Bytes32 := (accounts[i]?).elim zero32 (·.key)

/-- The struct `Transact`. The authority is its ninth account. -/
def transactRules (nullifiers : Bytes32 × Bytes32) (accounts : List PassedAccount) : List AccountRule := [
  .account δ programId [utf8 "bridge_state"] true,
  .account δ programId [utf8 "merkle_tree"] true,
  -- bridge_vault, a system account
  ⟨some [δ.findProgramAddress [utf8 "bridge_vault"] programId], some [systemProgramId], true, false⟩,
  .init δ programId [utf8 "nullifier", nullifiers.1.toList],
  .init δ programId [utf8 "nullifier", nullifiers.2.toList],
  -- recipient, a system account
  ⟨none, some [systemProgramId], true, false⟩,
  .account δ programId [utf8 "validator", (keyAt accounts 8).toList] true,
  .account δ programId [utf8 "validator_registry"] false,
  .payer,
  .systemProgram]

/-- The struct `TransactSpl`. The mint is its third account and the authority its twelfth. -/
def transactSplRules (nullifiers : Bytes32 × Bytes32) (accounts : List PassedAccount) : List AccountRule := [
  .account δ programId [utf8 "bridge_state"] true,
  .account δ programId [utf8 "merkle_tree"] true,
  .mint,
  .assetVault δ programId (keyAt accounts 2),
  .unchecked δ programId [utf8 "asset_vault_authority"],
  -- recipient_token_account and fee_token_account
  .tokenAccount,
  .tokenAccount,
  .init δ programId [utf8 "nullifier", nullifiers.1.toList],
  .init δ programId [utf8 "nullifier", nullifiers.2.toList],
  .account δ programId [utf8 "validator", (keyAt accounts 11).toList] true,
  .account δ programId [utf8 "validator_registry"] false,
  .payer,
  .tokenProgram,
  .systemProgram]

/-- The struct `InitAssetVault`. The mint is its second account. -/
def initAssetVaultRules (accounts : List PassedAccount) : List AccountRule := [ .payer, .mint,
  .init δ programId [utf8 "asset_vault", (keyAt accounts 1).toList],
  .unchecked δ programId [utf8 "asset_vault_authority"],
  .init δ programId [utf8 "asset_config", (keyAt accounts 1).toList],
  -- program_data, an account of the loader
  .unchecked δ bpfLoaderUpgradeableId [programId.toList],
  .tokenProgram,
  .systemProgram,
  -- rent
  ⟨some [rentSysvarId], none, false, false⟩]

/-- The struct `DepositNoteSpl`. The mint is its third account. -/
def depositNoteSplRules (accounts : List PassedAccount) : List AccountRule := [
  .account δ programId [utf8 "bridge_state"] false,
  .account δ programId [utf8 "asset_config", (keyAt accounts 2).toList] true,
  .mint,
  .assetVault δ programId (keyAt accounts 2),
  -- depositor_token_account
  .tokenAccount,
  .account δ programId [utf8 "merkle_tree"] true,
  -- depositor
  .payer,
  .tokenProgram]

end Rules

/-- The pairs of `chunks(2)` that the quorum loop looks at: an unpaired last account ends it. -/
def quorumPairs {α : Type} : List α → List (α × α)
  | wallet :: pda :: rest => (wallet, pda) :: quorumPairs rest
  | _ => []

theorem countPairs_eq_foldl :
    countPairs authority tally accounts = (quorumPairs accounts).foldl (fun t p => countPair authority t p.1 p.2) tally := by
  induction accounts using quorumPairs.induct generalizing tally with
  | case1 wallet pda rest ih => rw [countPairs, quorumPairs, List.foldl_cons, ih]
  | case2 accounts hshort =>
    rw [quorumPairs, List.foldl_nil, countPairs]
    all_goals exact hshort

end Paraloom.OffChain
