import Paraloom.OffChain.Decoder
import Paraloom.Program.Exec

/-!
# Finalized transactions

A transaction as the chain has executed it, what the RPC returns for it, and the deposits that its instructions make. Neither
the RPC nor the entry point that Anchor generates for the program is part of the repository: they are stated as documented.
-/

namespace Paraloom.OffChain

/-- A transaction with all its account keys in the message: the top-level instructions, each with the instructions that it
invoked, and whether it failed. -/
structure FinalizedTransaction where
  slot : Nat
  blockTime : Option Int
  accountKeys : List Bytes32
  calls : List (Sdk.CompiledInstruction × List Sdk.CompiledInstruction)
  error : Option String

namespace FinalizedTransaction

/-- The instructions in the order in which the RPC lists them: the top level first. -/
def listed (tx : FinalizedTransaction) : List Sdk.CompiledInstruction :=
  tx.calls.map Prod.fst ++ tx.calls.flatMap Prod.snd

/-- The instructions in the order of their execution. -/
def executed (tx : FinalizedTransaction) : List Sdk.CompiledInstruction := tx.calls.flatMap fun call => call.1 :: call.2

def accountsOf (tx : FinalizedTransaction) (instruction : Sdk.CompiledInstruction) : Option (List Bytes32) :=
  instruction.accounts.mapM (tx.accountKeys[·]?)

end FinalizedTransaction

/-- An instruction in JSON encoding. -/
def renderInstruction (instruction : Sdk.CompiledInstruction) : UiCompiledInstruction :=
  ⟨instruction.programIdIndex, instruction.accounts, Base58.encode instruction.data⟩

/-- What `getTransaction` returns in JSON encoding: an instruction of a program that the RPC does not know is not parsed. -/
def FinalizedTransaction.render (tx : FinalizedTransaction) : ConfirmedTransaction where
  slot := tx.slot
  transaction := .json (.raw (tx.accountKeys.map walletName) ((tx.calls.map Prod.fst).map renderInstruction))
  status := some {
    err := tx.error
    innerInstructions := some ((tx.calls.map Prod.snd).map fun inner => inner.map fun i => .compiled (renderInstruction i)) }
  blockTime := tx.blockTime

/-! ## Deposits on chain -/

/-- A deposit that the program is called with. -/
inductive DepositCall where
  | note (depositor : Bytes32) (data : DepositInstructionData)
  | noteSpl (depositor mint tokenAccount : Bytes32) (data : DepositInstructionData)
  deriving DecidableEq

namespace DepositCall

/-- The entry point that Anchor generates, for the two deposits: the discriminator, the arguments from the front of the rest,
and the accounts by their positions. Bytes behind the arguments are not looked at. -/
def ofInstruction (accounts : List Bytes32) (data : Bytes) : Option DepositCall :=
  if data.length < 8 + depositPayloadLen then none
  else if data.take 8 = depositNoteDiscriminator then
    match accounts with
    | _bridgeState :: _bridgeVault :: _merkleTree :: depositor :: _systemProgram :: _ =>
      some (.note depositor (.read (data.drop 8)))
    | _ => none
  else if data.take 8 = depositNoteSplDiscriminator then
    match accounts with
    | _bridgeState :: _assetConfig :: mint :: _assetVault :: tokenAccount :: _merkleTree :: depositor :: _tokenProgram :: _ =>
      some (.noteSpl depositor mint tokenAccount (.read (data.drop 8)))
    | _ => none
  else none

def data : DepositCall → DepositInstructionData
  | .note _ data => data
  | .noteSpl _ _ _ data => data

def depositor : DepositCall → Bytes32
  | .note depositor _ => depositor
  | .noteSpl depositor _ _ _ => depositor

/-- The asset that the program commits to. -/
def asset (Γ : Ctx) (address : Bytes32 → Pubkey) : DepositCall → Result Bytes32
  | .note .. => pure Paraloom.nativeSolAsset
  | .noteSpl _ mint _ _ => mintToAsset Γ (address mint)

/-- The instruction of the program, with the addresses that the keys stand for. -/
def toInstruction (address : Bytes32 → Pubkey) : DepositCall → Instruction
  | .note depositor data => .depositNote depositor data.amount data.recipient data.randomness
  | .noteSpl depositor mint tokenAccount data =>
    .depositNoteSpl depositor (address mint) (address tokenAccount) data.amount data.recipient data.randomness

end DepositCall

def FinalizedTransaction.depositCall (tx : FinalizedTransaction) (programId : Bytes32)
    (instruction : Sdk.CompiledInstruction) : Option DepositCall :=
  if tx.accountKeys[instruction.programIdIndex]? = some programId then
    (tx.accountsOf instruction).bind fun accounts => DepositCall.ofInstruction accounts instruction.data
  else none

end Paraloom.OffChain
