import Paraloom.Lib.Message
import Paraloom.OffChain.TransactConsensus

/-!
# Settlement messages

The instructions that settle a transact, natively or in a token, and the message that every co-signer rebuilds from the
parameters the leader sends.
-/

namespace Paraloom.OffChain

open LittleEndian

/-- Public keys are ordered as their bytes are. -/
abbrev pubkeyOrder : LinearOrder Bytes32 := LinearOrder.lift' (fun v : Bytes32 => v.toList) List.Vector.toList_injective

/-- An error of the bridge, with its text. -/
inductive NodeError where
  | invalidTransaction (text : String)
  | serialization (text : String)
  | network (text : String)
  | configError (text : String)
  | solanaRpc (text : String)
  | alreadySettled
  deriving DecidableEq

abbrev SettlementMessage : Type := Sdk.Message Bytes32 Bytes32

/-! ## Payloads -/

/-- The parameters of a settlement that a co-signer matches with the request it verified. -/
inductive SettlementParams where
  | transact (recipient : Bytes32) (nullifiers outputCommitments : Bytes32 × Bytes32) (root : Bytes32) (extAmount : Int64)
      (proof : Bytes)
  | transactSpl (recipientTokenAccount mint : Bytes32) (nullifiers outputCommitments : Bytes32 × Bytes32) (root : Bytes32)
      (extAmount : Int64) (proof : Bytes)

/-- Everything that the message of a settlement is built from. -/
structure CoSignPayload where
  programId : Bytes32
  authority : Bytes32
  bridgeVault : Bytes32
  blockhash : Bytes32
  quorumValidators : List Bytes32
  params : SettlementParams

/-- What the node takes from the Solana SDK and from bincode and does not compute itself. -/
structure SolanaSdk where
  /-- `Pubkey::find_program_address`, without the bump. -/
  findProgramAddress : (seeds : List Bytes) → (programId : Bytes32) → Bytes32
  /-- `Message::serialize`. -/
  serializeMessage : SettlementMessage → Bytes
  /-- `bincode::serialize` of a payload. -/
  serializePayload : CoSignPayload → Bytes
  /-- `bincode::deserialize` of a payload. -/
  deserializePayload : Bytes → Except String CoSignPayload

/-- The proof that the parameters carry. -/
def SettlementParams.proof : SettlementParams → Bytes
  | .transact _ _ _ _ _ proof => proof
  | .transactSpl _ _ _ _ _ _ proof => proof

def SettlementParams.nullifiers : SettlementParams → Bytes32 × Bytes32
  | .transact _ nullifiers _ _ _ _ => nullifiers
  | .transactSpl _ _ nullifiers _ _ _ _ => nullifiers

def maxProofBytes : Nat := 256

def maxQuorumCosigners : Nat := 100

def CoSignPayload.fromBytes (δ : SolanaSdk) (bytes : Bytes) : Except NodeError CoSignPayload :=
  match δ.deserializePayload bytes with
  | .error e => .error (.serialization e)
  | .ok payload =>
    if maxProofBytes < payload.params.proof.length then
      .error (.serialization s!"co-sign proof field is {payload.params.proof.length} bytes, exceeds {maxProofBytes}")
    else .ok payload

/-! ## Addresses -/

section Addresses

variable (δ : SolanaSdk) (programId : Bytes32)

def deriveBridgeVault : Bytes32 := δ.findProgramAddress [utf8 "bridge_vault"] programId

def deriveBridgeState : Bytes32 := δ.findProgramAddress [utf8 "bridge_state"] programId

def deriveValidatorAccount (validator : Bytes32) : Bytes32 :=
  δ.findProgramAddress [utf8 "validator", validator.toList] programId

def deriveValidatorRegistry : Bytes32 := δ.findProgramAddress [utf8 "validator_registry"] programId

def deriveMerkleTree : Bytes32 := δ.findProgramAddress [utf8 "merkle_tree"] programId

def deriveNullifierAccount (nullifier : Bytes32) : Bytes32 :=
  δ.findProgramAddress [utf8 "nullifier", nullifier.toList] programId

def deriveAssetVault (mint : Bytes32) : Bytes32 := δ.findProgramAddress [utf8 "asset_vault", mint.toList] programId

def deriveAssetVaultAuthority : Bytes32 := δ.findProgramAddress [utf8 "asset_vault_authority"] programId

end Addresses

/-- A public key given by its bytes. -/
def pubkeyOf (bytes : Bytes) : Bytes32 := LittleEndian.vec 32 (LittleEndian.toNat bytes)

def systemProgramId : Bytes32 := zero32

def splTokenProgramId : Bytes32 := pubkeyOf
  [6, 221, 246, 225, 215, 101, 161, 147, 217, 203, 225, 70, 206, 235, 121, 172, 28, 180, 133, 237, 95, 91, 55, 145, 58, 140,
    245, 133, 126, 255, 0, 169]

def splAssociatedTokenAccountProgramId : Bytes32 := pubkeyOf
  [140, 151, 37, 143, 78, 36, 137, 241, 187, 61, 16, 41, 20, 142, 13, 131, 11, 90, 19, 153, 218, 255, 16, 132, 4, 142, 123,
    216, 219, 233, 248, 89]

def computeBudgetProgramId : Bytes32 := pubkeyOf
  [3, 6, 70, 111, 229, 33, 23, 50, 255, 236, 173, 186, 114, 195, 155, 231, 188, 140, 229, 187, 197, 247, 18, 107, 44, 67, 155,
    58, 64, 0, 0, 0]

def deriveAssociatedTokenAddress (δ : SolanaSdk) (owner mint tokenProgram : Bytes32) : Bytes32 :=
  δ.findProgramAddress [owner.toList, tokenProgram.toList, mint.toList] splAssociatedTokenAccountProgramId

/-! ## Instructions -/

/-- The discriminator of `transact`. -/
def transactDiscriminator : Bytes := [217, 149, 130, 143, 221, 52, 252, 119]

/-- The discriminator of `transact_spl`. -/
def transactSplDiscriminator : Bytes := [154, 66, 244, 204, 78, 225, 163, 151]

/-- `TransactInstructionData` in its borsh encoding. -/
def transactInstructionData (nullifiers outputCommitments : Bytes32 × Bytes32) (root : Bytes32) (extAmount : Int64)
    (proof : Bytes) : Bytes :=
  nullifiers.1.toList ++ nullifiers.2.toList ++ outputCommitments.1.toList ++ outputCommitments.2.toList ++ root.toList ++
    LittleEndian.ofNat 8 extAmount.toBitVec.toNat ++ LittleEndian.ofNat 4 proof.length ++ proof

/-- Each co-signer, who has to sign, and the account of the validator. -/
def appendQuorumAccounts (δ : SolanaSdk) (programId : Bytes32) (quorumValidators : List Bytes32)
    (accounts : List (Sdk.AccountMeta Bytes32)) : List (Sdk.AccountMeta Bytes32) :=
  accounts ++ quorumValidators.flatMap fun v =>
    [.readonly v true, .readonly (deriveValidatorAccount δ programId v) false]

def createTransactInstruction (δ : SolanaSdk) (programId authority bridgeVault recipient : Bytes32)
    (nullifiers outputCommitments : Bytes32 × Bytes32) (root : Bytes32) (extAmount : Int64) (proof : Bytes)
    (quorumValidators : List Bytes32) : Sdk.Instruction Bytes32 where
  programId
  accounts := appendQuorumAccounts δ programId quorumValidators [ .writable (deriveBridgeState δ programId) false,
    .writable (deriveMerkleTree δ programId) false,
    .writable bridgeVault false,
    .writable (deriveNullifierAccount δ programId nullifiers.1) false,
    .writable (deriveNullifierAccount δ programId nullifiers.2) false,
    .writable recipient false,
    .writable (deriveValidatorAccount δ programId authority) false,
    .readonly (deriveValidatorRegistry δ programId) false,
    .writable authority true,
    .readonly systemProgramId false]
  data := transactDiscriminator ++ transactInstructionData nullifiers outputCommitments root extAmount proof

def createTransactSplInstruction (δ : SolanaSdk)
    (programId authority mint recipientTokenAccount feeTokenAccount tokenProgram : Bytes32)
    (nullifiers outputCommitments : Bytes32 × Bytes32) (root : Bytes32) (extAmount : Int64) (proof : Bytes)
    (quorumValidators : List Bytes32) : Sdk.Instruction Bytes32 where
  programId
  accounts := appendQuorumAccounts δ programId quorumValidators [ .writable (deriveBridgeState δ programId) false,
    .writable (deriveMerkleTree δ programId) false,
    .readonly mint false,
    .writable (deriveAssetVault δ programId mint) false,
    .readonly (deriveAssetVaultAuthority δ programId) false,
    .writable recipientTokenAccount false,
    .writable feeTokenAccount false,
    .writable (deriveNullifierAccount δ programId nullifiers.1) false,
    .writable (deriveNullifierAccount δ programId nullifiers.2) false,
    .writable (deriveValidatorAccount δ programId authority) false,
    .readonly (deriveValidatorRegistry δ programId) false,
    .writable authority true,
    .readonly tokenProgram false,
    .readonly systemProgramId false]
  data := transactSplDiscriminator ++ transactInstructionData nullifiers outputCommitments root extAmount proof

def transactComputeUnitLimit : Nat := 1400000

def setComputeUnitLimit (units : Nat) : Sdk.Instruction Bytes32 :=
  ⟨computeBudgetProgramId, [], 2 :: LittleEndian.ofNat 4 units⟩

/-! ## The message -/

/-- The instruction that the parameters of a payload stand for. -/
def CoSignPayload.instruction (δ : SolanaSdk) (payload : CoSignPayload) : Sdk.Instruction Bytes32 :=
  match payload.params with
  | .transact recipient nullifiers outputCommitments root extAmount proof =>
    createTransactInstruction δ payload.programId payload.authority payload.bridgeVault recipient nullifiers outputCommitments
      root extAmount proof payload.quorumValidators
  | .transactSpl recipientTokenAccount mint nullifiers outputCommitments root extAmount proof =>
    createTransactSplInstruction δ payload.programId payload.authority mint recipientTokenAccount
      (deriveAssociatedTokenAddress δ payload.authority mint splTokenProgramId) splTokenProgramId nullifiers
      outputCommitments root extAmount proof payload.quorumValidators

def CoSignPayload.message (δ : SolanaSdk) (payload : CoSignPayload) : SettlementMessage :=
  @Sdk.Message.newWithBlockhash Bytes32 Bytes32 pubkeyOrder
    [setComputeUnitLimit transactComputeUnitLimit, payload.instruction δ] payload.authority payload.blockhash

/-- More co-signers than a message can index are refused. -/
def buildSettlementMessage (δ : SolanaSdk) (payload : CoSignPayload) : Except NodeError SettlementMessage :=
  if maxQuorumCosigners < payload.quorumValidators.length then
    .error (.invalidTransaction
      s!"co-sign quorum has {payload.quorumValidators.length} validators, exceeds the {maxQuorumCosigners} maximum")
  else .ok (payload.message δ)

end Paraloom.OffChain
