import Paraloom.OffChain.ListenerRun

/-!
# The pool of a node next to the chain

The chain executes transactions with deposits and settlements and lists them. The node reads the deposits off the list with its
listener, and marks the nullifiers of the transacts it settles as spent. Both work on one pool.
-/

namespace Paraloom.OffChain

/-! ## What a transaction does on chain -/

section Chain

variable (Γ : Ctx) (address : Bytes32 → Pubkey) (programId : Bytes32)

/-- What an instruction of a transaction does: a deposit, a settlement, or whatever other programs do. -/
inductive InstructionEffect (tx : FinalizedTransaction) (instruction : Sdk.CompiledInstruction) : List Action → Prop where
  | deposit {call : DepositCall} {clock : Clock} (reads : tx.depositCall programId instruction = some call) :
      InstructionEffect tx instruction [.program clock (call.toInstruction address)]
  | transact {clock : Clock} {authority : Signer} {recipient : Pubkey} {quorum : List AccountMeta} {args : TransactArgs}
      (program : tx.accountKeys[instruction.programIdIndex]? = some programId)
      (kind : instruction.data.take 8 = transactDiscriminator) :
      InstructionEffect tx instruction [.program clock (.transact authority recipient quorum args)]
  | transactSpl {clock : Clock} {authority : Signer} {mint recipient feeAccount : Pubkey} {quorum : List AccountMeta}
      {args : TransactArgs} (program : tx.accountKeys[instruction.programIdIndex]? = some programId)
      (kind : instruction.data.take 8 = transactSplDiscriminator) :
      InstructionEffect tx instruction [.program clock (.transactSpl authority mint recipient feeAccount quorum args)]
  | other {actions : List Action} (program : tx.accountKeys[instruction.programIdIndex]? ≠ some programId)
      (foreign : ∀ a ∈ actions, ∀ clock ix, a ≠ .program clock ix) : InstructionEffect tx instruction actions

/-- What a transaction does: nothing if it failed, and otherwise what its instructions do, in the order of their execution. -/
def FinalizedTransaction.Effect (tx : FinalizedTransaction) (actions : List Action) : Prop :=
  if tx.error.isSome then actions = []
  else ∃ effects, List.Forall₂ (InstructionEffect address programId tx) tx.executed effects ∧ actions = effects.flatten

def TransactionStep (s : State) (entry : FinalizedEntry) (s' : State) : Prop :=
  ∃ actions, entry.transaction.Effect address programId actions ∧ Execution Γ s actions s'

/-- A history of the chain. -/
abbrev History (s : State) (entries : List FinalizedEntry) (s' : State) : Prop :=
  Run (TransactionStep Γ address programId) s entries s'

end Chain

/-! ## The node -/

/-- What the loop of `poll_events` learns from `process_deposit`, with the flags of the writes by call. A panic ends the task, and
counts as a failure here. -/
def processCall (noteCommitment : Note → Bytes32) (poseidon : List Fr → Fr) (acknowledged : Nat → Bool × Bool) (call : Nat)
    (event : DepositEvent) (node : OpenPool) : Bool × OpenPool :=
  match processDeposit noteCommitment poseidon (acknowledged call).1 (acknowledged call).2 event node with
  | some (.returned (.ok _), node) => (true, node)
  | some (.returned (.error _), node) => (false, node)
  | some (.panicked, node) => (false, node)
  | none => (false, node)

structure MirrorSystem where
  chain : State
  node : ListenerSystem OpenPool

/-- What happens: transactions are finalized, the listener polls, or the node carries a settlement through. -/
inductive MirrorEvent where
  | finalize (entries : List FinalizedEntry)
  | poll (p : Poll OpenPool) (acknowledged : Nat → Bool × Bool)
  | settle (approved : ApprovedTransact) (bridge : Option SettlementBridge) (cosign : Bytes32 → Except String Transaction)
      (acknowledged : Bool × Bool)

inductive MirrorStep (Γ : Ctx) (address : Bytes32 → Pubkey) (noteCommitment : Note → Bytes32) (poseidon : List Fr → Fr)
    (config : ListenerConfig) (s : MirrorSystem) : MirrorEvent → MirrorSystem → Prop where
  | finalize {entries : List FinalizedEntry} {s' : MirrorSystem}
      (chain : History Γ address config.programId s.chain entries s'.chain)
      (node : s.node.Step poseidon config (.finalize entries) s'.node) :
      MirrorStep Γ address noteCommitment poseidon config s (.finalize entries) s'
  | poll {p : Poll OpenPool} {acknowledged : Nat → Bool × Bool} {s' : MirrorSystem}
      (process : p.process = processCall noteCommitment poseidon acknowledged)
      (chain : History Γ address config.programId s.chain p.arrivals s'.chain)
      (node : s.node.Step poseidon config (.poll p) s'.node) :
      MirrorStep Γ address noteCommitment poseidon config s (.poll p acknowledged) s'
  | settle {approved : ApprovedTransact} {bridge : Option SettlementBridge} {cosign : Bytes32 → Except String Transaction}
      {acknowledged : Bool × Bool} :
      MirrorStep Γ address noteCommitment poseidon config s (.settle approved bridge cosign acknowledged)
        { s with node := { s.node with
          pool := (settleTransactViaCosign bridge cosign acknowledged approved s.node.pool).2 } }

namespace MirrorSystem

/-- The deposits of all transactions so far, as the listener reads them, are credited. -/
def Observed (poseidon : List Fr → Fr) (config : ListenerConfig) (s : MirrorSystem) : Prop :=
  ∀ entry ∈ s.node.finalized, s.node.EntryCredited poseidon config entry

/-- The pool holds the leaves of the chain, in order, and the native supply that the bridge accounts for. -/
structure Mirrors (s : MirrorSystem) : Prop where
  leaves : s.node.pool.pool.commitmentTree.leaves = s.chain.leaves
  supply : ((s.node.pool.pool.supplyOf nativeSolAsset).toNat : Int) = s.chain.totalDeposited - s.chain.totalWithdrawn

end MirrorSystem

end Paraloom.OffChain
