import Paraloom.OffChain.CoSignRound
import Paraloom.OffChain.ShieldedPool
import Paraloom.Program.Exec

/-!
# Nodes that settle approved transacts

The leader of a round submits the transaction that the quorum signed. When the submission fails it asks the chain whether a
peer was faster, and in both cases it records the nullifiers as spent. Between the calls of a node the chain takes any steps.
-/

namespace Paraloom.OffChain

/-- What the bridge answers during one settlement. -/
structure SettlementBridge where
  latestBlockhash : Except NodeError Bytes32
  submitSignedTransaction : Transaction → Except NodeError String
  /-- `get_account`, as far as the owner of the account. It fails for an account that does not exist. -/
  getAccount : Pubkey → Option Pubkey

/-- An account that cannot be read counts as not spent. -/
def SettlementBridge.isNullifierSpent (bridge : SettlementBridge) (nullifier : Bytes32) : Bool :=
  match bridge.getAccount (.nullifier nullifier) with
  | some owner => owner = programId
  | none => false

/-- The pool of a node with the disk under it. -/
structure OpenPool where
  pool : ShieldedPool
  store : PrivacyStorage

/-- With the co-sign round as a function of the blockhash. The flags are for the two writes of
`record_spent`. -/
def settleTransactViaCosign (bridge : Option SettlementBridge) (cosign : Bytes32 → Except String Transaction)
    (acknowledged : Bool × Bool) (approved : ApprovedTransact) (node : OpenPool) : Except NodeError String × OpenPool :=
  match bridge with
  | none => (.error (.configError "no bridge configured"), node)
  | some bridge =>
    match bridge.latestBlockhash with
    | .error e => (.error e, node)
    | .ok blockhash =>
      match cosign blockhash with
      | .error e => (.error (.network s!"transact co-signing round: {e}"), node)
      | .ok tx =>
        let result := bridge.submitSignedTransaction tx
        let settled := match result with
          | .ok _ => true
          | .error _ => bridge.isNullifierSpent approved.request.nullifiers.1
        let node :=
          if settled then
            let recorded := node.pool.recordSpent node.store acknowledged approved.request.nullifiers
            ⟨recorded.1, recorded.2⟩
          else node
        match result with
        | .ok sig => (.ok sig, node)
        | .error e => (.error (if settled then .alreadySettled else e), node)

/-! ## The nodes and the chain -/

/-- The chain with the actions it has executed, and the pool of each node. -/
structure SettlementSystem (N : Type) where
  chain : State
  landed : List Action
  nodes : N → OpenPool

/-- What happens: an action lands on the chain, or a node carries a settlement through. -/
inductive SettlementEvent (N : Type) where
  | land (a : Action)
  | settle (node : N) (approved : ApprovedTransact) (bridge : Option SettlementBridge)
      (cosign : Bytes32 → Except String Transaction) (acknowledged : Bool × Bool)

/-- The answers of the bridge fit the chain: a submission that succeeds has landed with the nullifiers of the request, and an
account that can be read has the owner it has on chain. Nothing is asked of a submission that fails. -/
structure SettlementBridge.Truthful (bridge : SettlementBridge) (chain : State) (landed : List Action)
    (nullifiers : Bytes32 × Bytes32) : Prop where
  submitted : ∀ tx sig, bridge.submitSignedTransaction tx = .ok sig →
    ∃ a ∈ landed, a.nullifiers = [nullifiers.1, nullifiers.2]
  read : ∀ key owner, bridge.getAccount key = some owner → owner = chain.owner key

/-- A step of the chain and the nodes. -/
inductive SettlementStep {N : Type} [DecidableEq N] (Γ : Ctx) (s : SettlementSystem N) :
    SettlementEvent N → SettlementSystem N → Prop where
  | land {a : Action} {chain : State} (step : Step Γ s.chain a chain) :
      SettlementStep Γ s (.land a) { s with chain, landed := s.landed ++ [a] }
  | settle {node : N} {approved : ApprovedTransact} {bridge : Option SettlementBridge}
      {cosign : Bytes32 → Except String Transaction} {acknowledged : Bool × Bool}
      (truthful : ∀ b ∈ bridge, b.Truthful s.chain s.landed approved.request.nullifiers) :
      SettlementStep Γ s (.settle node approved bridge cosign acknowledged) { s with
          nodes := Function.update s.nodes node (settleTransactViaCosign bridge cosign acknowledged approved (s.nodes node)).2 }

end Paraloom.OffChain
