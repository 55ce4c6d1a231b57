import Paraloom.Lemmas.Stake
import Paraloom.Lib.KeyValue
import Paraloom.Lib.Redelivery

/-!
# The reconcile tool

`reconcile_validators`: the tool reads all validator accounts, checks the wallets it is told to keep, and sends its
transactions one after the other: every account of an earlier layout is migrated, every active validator outside the keep-set
is deactivated, and the registry is rebuilt last, from the keep-set.
-/

namespace Paraloom.OffChain

/-- The data length of the current layout. -/
def newLen : Nat := 145

/-- A validator account as the tool reads it. -/
structure ValidatorRow where
  wallet : Pubkey
  dataLen : Nat
  isActive : Bool
  deriving DecidableEq

/-- The flag is at byte 88, so an account of an earlier layout is read too. -/
def ValidatorRow.decode (account : ProgramAccount ValidatorAccount) : Option ValidatorRow :=
  if account.dataLen < 89 then none
  else some { wallet := account.data.validator, dataLen := account.dataLen, isActive := account.data.isActive }

def validatorRows (Γ : Ctx) (s : State) : List ValidatorRow :=
  (s.validators.entries.filterMap fun account => ValidatorRow.decode account.2).insertionSort
    fun a b => (Γ.toBytes a.wallet).toList ≤ (Γ.toBytes b.wallet).toList

/-- Why a wallet cannot be kept. -/
inductive KeepFault where
  /-- no on-chain ValidatorAccount — register it first -/
  | missing
  /-- inactive — reset would abort -/
  | inactive
  deriving DecidableEq

def keepFault (rows : List ValidatorRow) (wallet : Pubkey) : Option KeepFault :=
  match rows.reverse.find? fun r => r.wallet = wallet with
  | none => some .missing
  | some r => if r.isActive then none else some .inactive

inductive ReconcileError where
  /-- RECONCILE_KEEP is empty — refusing to reset to zero validators -/
  | keepEmpty
  /-- the settler is not in RECONCILE_KEEP — deactivating it would brick settlement; add it to the keep-set -/
  | settlerNotKept (settler : Pubkey)
  /-- unusable wallets in the keep-set; fix before reconciling -/
  | unusableKeep (bad : Finset (Pubkey × Option KeepFault))

/-- What the operator tells the tool. The keep-set is held in memory, so its size is a machine word. -/
structure ReconcileTool where
  authority : Signer
  keep : Finset Pubkey
  settler : Pubkey
  stakeMint : Pubkey
  keep_card : keep.card < 2 ^ 64

namespace ReconcileTool

variable (tool : ReconcileTool)

def toMigrate (rows : List ValidatorRow) : List ValidatorRow := rows.filter fun r => r.dataLen < newLen

def toDeactivate (rows : List ValidatorRow) : List ValidatorRow := rows.filter fun r => r.isActive && r.wallet ∉ tool.keep

def keepWallets (rows : List ValidatorRow) : List Pubkey := (rows.filter fun r => r.wallet ∈ tool.keep).map (·.wallet)

def migrateInstructions (rows : List ValidatorRow) : List Instruction :=
  (toMigrate rows).map fun r => .migrateValidatorAccount tool.authority r.wallet

def deactivateInstructions (rows : List ValidatorRow) : List Instruction :=
  (tool.toDeactivate rows).map fun r => .deactivateValidator tool.authority r.wallet

/-- `create_reset_validator_registry_instruction` over the account addresses of the wallets, which states their number. -/
def resetInstruction (wallets : List Pubkey) : Instruction :=
  .resetValidatorRegistry tool.authority tool.stakeMint (UInt64.ofNat wallets.length) (wallets.map .validator)

/-- The transactions of a run, in the order in which they are sent. -/
def transactions (rows : List ValidatorRow) : List Instruction :=
  tool.migrateInstructions rows ++ tool.deactivateInstructions rows ++ [tool.resetInstruction (tool.keepWallets rows)]

/-- The wallets of the keep-set that cannot be kept. -/
def badKeep (rows : List ValidatorRow) : Finset Pubkey := tool.keep.filter fun w => keepFault rows w ≠ none

/-- `main` up to its first transaction: the checks, and then what it is going to send. -/
def plan (Γ : Ctx) (s : State) : Except ReconcileError (List Instruction) := do
  Checked.require (tool.keep ≠ ∅) .keepEmpty
  Checked.require (tool.settler ∈ tool.keep) (.settlerNotKept tool.settler)
  let rows := validatorRows Γ s
  Checked.require (tool.badKeep rows = ∅) (.unusableKeep ((tool.badKeep rows).image fun w => (w, keepFault rows w)))
  pure (tool.transactions rows)

/-! ## Runs -/

/-- An instruction reaches the chain, at some clock. -/
def Carries (ix : Instruction) (a : Action) : Prop := ∃ clock, a = .program clock ix

/-- What the chain does of its own: anything but the instructions about stakes. -/
def Other (a : Action) : Prop := a.staking = false

/-- Runs of the tool that broke off, one after the other. Each works through a beginning of its plan; a transaction whose
confirmation failed may have reached the chain or not, may reach it several times, and may reach it later. -/
inductive Interrupted (Γ : Ctx) (s : State) : Set Instruction → State → Prop where
  | none : Interrupted Γ s ∅ s
  | again {sent : Set Instruction} {t u : State} {plan started : List Instruction} {as : List Action}
      (before : Interrupted Γ s sent t) (planned : tool.plan Γ t = .ok plan) (broke : started <+: plan)
      (sends : Redelivery.Sends Carries Other False sent started as) (run : Execution Γ t as u) :
      Interrupted Γ s (sent ∪ {ix | ix ∈ started}) u

/-- A complete run: every transaction of the plan was confirmed before the next one was sent. -/
def Complete (Γ : Ctx) (sent : Set Instruction) (s s' : State) : Prop :=
  ∃ plan as, tool.plan Γ s = .ok plan ∧ Redelivery.Sends Carries Other True sent plan as ∧ Execution Γ s as s'

end ReconcileTool

end Paraloom.OffChain
