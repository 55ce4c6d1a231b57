import Paraloom.OffChain.ProofVerifier
import Paraloom.OffChain.ShieldedPool

/-!
# The decoder of deposits

What the RPC returns for a transaction, and the deposits that the node reads out of it: the instructions of the program with the
discriminator of a deposit, at the top level of the message and among the inner instructions of the status.
-/

namespace Paraloom.OffChain

/-! ## Transactions as the RPC returns them -/

/-- `UiCompiledInstruction`: indices into the keys of the message, and the data in base 58. -/
structure UiCompiledInstruction where
  programIdIndex : Nat
  accounts : List Nat
  data : String

inductive UiInstruction where
  | compiled (instruction : UiCompiledInstruction)
  | parsed

def UiInstruction.toCompiled : UiInstruction → Option UiCompiledInstruction
  | .compiled instruction => some instruction
  | .parsed => none

inductive UiMessage where
  | raw (accountKeys : List String) (instructions : List UiCompiledInstruction)
  | parsed

inductive EncodedTransaction where
  | json (message : UiMessage)
  | binary

/-- `UiTransactionStatusMeta`, as far as the node reads it: the error, and the inner instructions of each top-level one. -/
structure UiTransactionStatusMeta where
  err : Option String
  innerInstructions : Option (List (List UiInstruction))

/-- `EncodedConfirmedTransactionWithStatusMeta`. -/
structure ConfirmedTransaction where
  slot : Nat
  transaction : EncodedTransaction
  status : Option UiTransactionStatusMeta
  blockTime : Option Int

/-! ## Deposits -/

/-- `DepositInstructionData`, which is also the payload of a deposit of a note, under other names. -/
structure DepositInstructionData where
  amount : UInt64
  recipient : Bytes32
  randomness : Bytes32
  deriving DecidableEq

/-- The payload at the front of a byte string: an amount and two words. -/
def DepositInstructionData.read (bytes : Bytes) : DepositInstructionData where
  amount := .ofNat (LittleEndian.toNat (bytes.take 8))
  recipient := pubkeyOf ((bytes.drop 8).take 32)
  randomness := pubkeyOf ((bytes.drop 40).take 32)

/-- The length of the payload. -/
def depositPayloadLen : Nat := 72

/-- The payload has to take up all of the bytes. -/
def DepositInstructionData.tryFromSlice (bytes : Bytes) : Option DepositInstructionData :=
  if bytes.length = depositPayloadLen then some (.read bytes) else none

/-- `discriminators::DEPOSIT`. -/
def depositDiscriminator : Bytes := [242, 35, 198, 137, 82, 225, 242, 182]

/-- `discriminators::DEPOSIT_SPL`. -/
def depositSplDiscriminator : Bytes := [224, 0, 198, 175, 198, 47, 105, 204]

/-- `discriminators::DEPOSIT_NOTE`. -/
def depositNoteDiscriminator : Bytes := [75, 212, 96, 185, 178, 167, 29, 57]

/-- `discriminators::DEPOSIT_NOTE_SPL`. -/
def depositNoteSplDiscriminator : Bytes := [244, 219, 167, 106, 7, 120, 254, 253]

structure DecodedDeposit where
  data : DepositInstructionData
  depositor : Bytes32
  assetId : Bytes32

section

variable (poseidon : List Fr → Fr) (compiled : UiCompiledInstruction) (accountKeys : List Bytes32)

def UiCompiledInstruction.account (position : Nat) : Option Bytes32 :=
  (compiled.accounts[position]?).bind (accountKeys[·]?)

/-- Where a kind of deposit has its depositor, and its asset. The two kinds that the program no longer has are still read. -/
def depositLayout (discriminator : Bytes) : Option (Nat × Bytes32) :=
  if discriminator = depositNoteDiscriminator then some (3, nativeSolAsset)
  else if discriminator = depositNoteSplDiscriminator then
    (compiled.account accountKeys 2).map fun mint => (6, PoseidonCircom.mintToAsset poseidon mint)
  else if discriminator = depositDiscriminator then some (2, nativeSolAsset)
  else if discriminator = depositSplDiscriminator then (compiled.account accountKeys 1).map fun mint => (5, mint)
  else none

def decodeCompiledDeposit (programId : Bytes32) : Option DecodedDeposit := do
  let invokedProgram ← accountKeys[compiled.programIdIndex]?
  if invokedProgram ≠ programId then none
  else
    let rawData ← Base58.decodeVec compiled.data
    if rawData.length < 8 then none
    else
      let layout ← depositLayout poseidon compiled accountKeys (rawData.take 8)
      let data ← DepositInstructionData.tryFromSlice (rawData.drop 8)
      let depositor ← compiled.account accountKeys layout.1
      some ⟨data, depositor, layout.2⟩

end

/-- A deposit as the bridge sees it. -/
structure DepositEvent where
  signature : String
  sender : Bytes32
  amount : UInt64
  recipient : Bytes32
  randomness : Bytes32
  assetId : AssetId
  fee : UInt64
  block : Nat
  timestamp : Int

def buildEvent (signature : String) (confirmed : ConfirmedTransaction) (decoded : DecodedDeposit) : DepositEvent where
  signature
  sender := decoded.depositor
  amount := decoded.data.amount
  recipient := decoded.data.recipient
  randomness := decoded.data.randomness
  assetId := decoded.assetId
  fee := 0
  block := confirmed.slot
  timestamp := confirmed.blockTime.getD 0

def UiTransactionStatusMeta.compiledInner (status : UiTransactionStatusMeta) : List UiCompiledInstruction :=
  (status.innerInstructions.getD []).flatten.filterMap UiInstruction.toCompiled

/-- The deposits of the top level, and after them those of the inner instructions. -/
def extractDepositEvents (poseidon : List Fr → Fr) (signature : String) (confirmed : ConfirmedTransaction)
    (programId : Bytes32) : List DepositEvent :=
  if ∃ status ∈ confirmed.status, status.err.isSome then []
  else
    match confirmed.transaction with
    | .json (.raw accountKeys instructions) =>
      match accountKeys.mapM (Base58.decode 32) with
      | none => []
      | some keys =>
        let inner := (confirmed.status.map UiTransactionStatusMeta.compiledInner).getD []
        (instructions ++ inner).filterMap fun compiled =>
          (decodeCompiledDeposit poseidon compiled keys programId).map (buildEvent signature confirmed)
    | _ => []

end Paraloom.OffChain
