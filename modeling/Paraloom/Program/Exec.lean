import Paraloom.Program.Validators
import Paraloom.Lib.Run

/-!
# Executions of the chain

The instructions of the program as one type, what the world outside the program can do to the accounts it looks at, and the
step from one state of the chain to the next. A failed transaction changes nothing, so only successful ones are steps.
-/

namespace Paraloom

/-- The instructions of the program, with the accounts the caller chooses. -/
inductive Instruction where
  | initializeBridge (authority : Signer) (programVersion : UInt32) (initialMerkleRoot : Bytes32)
  | initializeMerkleTree (authority : Signer)
  | migrateBridgeState (authority : Signer)
  | depositNote (depositor : Signer) (amount : UInt64) (pubkey blinding : Bytes32)
  | transact (authority : Signer) (recipient : Pubkey) (quorum : List AccountMeta) (args : TransactArgs)
  | transactSpl (authority : Signer) (mint recipientTokenAccount feeTokenAccount : Pubkey) (quorum : List AccountMeta)
      (args : TransactArgs)
  | pause (authority : Signer)
  | unpause (authority : Signer)
  | setBridgeAuthority (authority : Signer) (newAuthority : Pubkey)
  | setDepositCap (authority : Signer) (newCap : UInt64)
  | initAssetVault (authority : Signer) (mint : Pubkey)
  | setAssetDepositCap (authority : Signer) (mint : Pubkey) (newCap : UInt64)
  | depositNoteSpl (depositor : Signer) (mint depositorTokenAccount : Pubkey) (amount : UInt64) (pubkey blinding : Bytes32)
  | initializeValidatorRegistry (authority : Signer) (stakeMint : Pubkey)
  | initStakeTokenVault (authority : Signer) (stakeMint : Pubkey)
  | setMinTokenStake (authority : Signer) (newMin : UInt64)
  | resetValidatorRegistry (authority : Signer) (stakeMint : Pubkey) (expectedActiveValidators : UInt64)
      (accounts : List Pubkey)
  | registerValidator (validator : Signer) (validatorTokenAccount : Pubkey) (stakeAmount tokenStakeAmount : UInt64)
  | unregisterValidator (validator : Signer)
  | deactivateValidator (authority : Signer) (wallet : Pubkey)
  | withdrawUnbondedStake (validator : Signer) (validatorTokenAccount : Pubkey)
  | slashValidator (authority : Signer) (wallet validator : Pubkey) (slashPercentage : UInt8)
  | claimRewards (validator : Signer)
  | updateReputation (authority : Signer) (wallet validator : Pubkey) (newReputation : UInt64)
  | migrateValidatorAccount (authority : Signer) (wallet : Pubkey)

/-- Run an instruction. -/
def Instruction.exec (Γ : Ctx) (clock : Clock) (s : State) : Instruction → Result State
  | .initializeBridge authority programVersion initialMerkleRoot =>
    Paraloom.initializeBridge Γ s authority programVersion initialMerkleRoot
  | .initializeMerkleTree authority => Paraloom.initializeMerkleTree Γ s authority
  | .migrateBridgeState authority => Paraloom.migrateBridgeState Γ s authority
  | .depositNote depositor amount pubkey blinding => Paraloom.depositNote Γ clock s depositor amount pubkey blinding
  | .transact authority recipient quorum args => Paraloom.transact Γ clock s authority recipient quorum args
  | .transactSpl authority mint recipientTokenAccount feeTokenAccount quorum args =>
    Paraloom.transactSpl Γ clock s authority mint recipientTokenAccount feeTokenAccount quorum args
  | .pause authority => Paraloom.pause s authority
  | .unpause authority => Paraloom.unpause s authority
  | .setBridgeAuthority authority newAuthority => Paraloom.setBridgeAuthority s authority newAuthority
  | .setDepositCap authority newCap => Paraloom.setDepositCap s authority newCap
  | .initAssetVault authority mint => Paraloom.initAssetVault Γ s authority mint
  | .setAssetDepositCap authority mint newCap => Paraloom.setAssetDepositCap Γ s authority mint newCap
  | .depositNoteSpl depositor mint depositorTokenAccount amount pubkey blinding =>
    Paraloom.depositNoteSpl Γ clock s depositor mint depositorTokenAccount amount pubkey blinding
  | .initializeValidatorRegistry authority stakeMint => Paraloom.initializeValidatorRegistry Γ s authority stakeMint
  | .initStakeTokenVault authority stakeMint => Paraloom.initStakeTokenVault Γ s authority stakeMint
  | .setMinTokenStake authority newMin => Paraloom.setMinTokenStake s authority newMin
  | .resetValidatorRegistry authority stakeMint expectedActiveValidators accounts =>
    Paraloom.resetValidatorRegistry Γ clock s authority stakeMint expectedActiveValidators accounts
  | .registerValidator validator validatorTokenAccount stakeAmount tokenStakeAmount =>
    Paraloom.registerValidator Γ clock s validator validatorTokenAccount stakeAmount tokenStakeAmount
  | .unregisterValidator validator => Paraloom.unregisterValidator clock s validator
  | .deactivateValidator authority wallet => Paraloom.deactivateValidator clock s authority wallet
  | .withdrawUnbondedStake validator validatorTokenAccount =>
    Paraloom.withdrawUnbondedStake Γ clock s validator validatorTokenAccount
  | .slashValidator authority wallet validator slashPercentage =>
    Paraloom.slashValidator clock s authority wallet validator slashPercentage
  | .claimRewards validator => Paraloom.claimRewards clock s validator
  | .updateReputation authority wallet validator newReputation =>
    Paraloom.updateReputation clock s authority wallet validator newReputation
  | .migrateValidatorAccount authority wallet => Paraloom.migrateValidatorAccount Γ s authority wallet

/-- What can happen on the chain: an instruction of the program at a clock, a transfer of lamports by a wallet, a transfer of
tokens by their owner, and a new token account that somebody opens and funds. -/
inductive Action where
  | program (clock : Clock) (ix : Instruction)
  | systemTransfer (source : Signer) (target : Pubkey) (amount : UInt64)
  | tokenTransfer (owner : Signer) (mint source target : Pubkey) (amount : UInt64)
  | openTokenAccount (address : Signer) (mint owner : Pubkey) (amount : UInt64)

/-- The fee that a native settlement credits to the validator. -/
def nativeFee (extAmount : Int64) : Nat := extAmount.toInt.natAbs * withdrawalFeeBps / 10000

/-- The lamports that a native settlement sends to the recipient. -/
def nativePayout (extAmount : Int64) : Nat := extAmount.toInt.natAbs - nativeFee extAmount

/-- The lamports an action adds to the bridge vault that no deposit accounts for: a donation, or a payout that a settlement
sends to the vault itself. -/
def Action.intoVault : Action → Nat
  | .systemTransfer _ .bridgeVault amount => amount.toNat
  | .program _ (.transact _ .bridgeVault _ args) => nativePayout args.extAmount
  | _ => 0

def Action.nullifiers : Action → List Bytes32
  | .program _ (.transact _ _ _ args) => [args.nullifier0, args.nullifier1]
  | .program _ (.transactSpl _ _ _ _ _ args) => [args.nullifier0, args.nullifier1]
  | _ => []

/-- Run an action. -/
def Action.exec (Γ : Ctx) (s : State) : Action → Result State
  | .program clock ix => ix.exec Γ clock s
  | .systemTransfer source target amount => do
    let lamports ← transferLamports s.lamports (.key source) target amount.toNat
    pure { s with lamports }
  | .tokenTransfer owner mint source target amount => do
    let tokens ← transferChecked Γ s.tokens mint source target (.key owner) amount.toNat
    pure { s with tokens }
  | .openTokenAccount address mint owner amount => do
    constraint ((s.tokens.lookup (.key address)).isSome = false) .accountAlreadyInUse
    pure { s with tokens := s.tokens.insert (.key address) ⟨mint, owner, amount.toNat⟩ }

/-- A step of the chain: an action that succeeds. -/
def Step (Γ : Ctx) (s : State) (a : Action) (s' : State) : Prop := a.exec Γ s = .ok s'

/-- A run of the chain. -/
abbrev Execution (Γ : Ctx) (s : State) (actions : List Action) (s' : State) : Prop := Run (Step Γ) s actions s'

theorem Step.functional (h₁ : Step Γ s a s₁) (h₂ : Step Γ s a s₂) : s₁ = s₂ :=
  Except.ok.inj (h₁.symm.trans h₂)

theorem Execution.functional (h₁ : Execution Γ s actions s₁) (h₂ : Execution Γ s actions s₂) : s₁ = s₂ :=
  Run.functional h₁ (fun _ _ _ _ h h' => Step.functional h h') h₂

def runActions (Γ : Ctx) (s : State) : List Action → Result State
  | [] => pure s
  | a :: rest => do
    let s' ← a.exec Γ s
    runActions Γ s' rest

theorem Execution.of_runActions (h : runActions Γ s actions = .ok s') : Execution Γ s actions s' := by
  induction actions generalizing s with
  | nil =>
    obtain rfl := Checked.return_ok_iff.mp h
    exact Run.nil
  | cons a rest ih =>
    simp only [runActions, Checked.seq_ok_iff] at h
    obtain ⟨t, hstep, hrest⟩ := h
    exact (Run.nil.snoc hstep).trans (ih hrest)

/-- The actions succeed and the state they lead to passes a check. -/
def succeedsWith (Γ : Ctx) (s : State) (actions : List Action) (check : State → Bool) : Bool :=
  match runActions Γ s actions with
  | .ok s' => check s'
  | .error _ => false

theorem exists_execution (h : succeedsWith Γ s actions check = true) : ∃ s', Execution Γ s actions s' ∧ check s' = true := by
  unfold succeedsWith at h
  split at h
  · rename_i s' hrun
    exact ⟨s', Execution.of_runActions hrun, h⟩
  · cases h

/-! ## A sample run

A small deployment on which every kind of instruction of the bridge and of the validators succeeds once, under a context that
accepts every proof. -/

namespace Sample

def word (n : Nat) : Bytes32 := LittleEndian.vec 32 n

def ctx : Ctx where
  solPoseidon _ := some zero32
  groth16 _ _ _ _ := true
  sha256 _ := zero32
  pdaBytes _ := zero32
  minimumBalance dataLen := 890880 + 6960 * dataLen
  transferFee _ _ := 0

def operator : Signer := word 1

def cosigner : Signer := word 2

def depositor : Signer := word 3

def mint : Pubkey := .key (word 9)

def operatorTokens : Pubkey := .key (word 11)

def cosignerTokens : Pubkey := .key (word 12)

def genesis : State :=
  .genesis ⟨bpfLoaderUpgradeable, [3, 0, 0, 0] ++ List.replicate 8 0 ++ [1] ++ operator.val⟩
    (((∅ : Table Pubkey TokenAccount).insert operatorTokens ⟨mint, .key operator, 5000000000000⟩).insert cosignerTokens
      ⟨mint, .key cosigner, 5000000000000⟩)
    ((((∅ : Ledger Pubkey).insert (.key operator) 100000000000).insert (.key cosigner) 100000000000).insert (.key depositor)
      100000000000)

def withdrawal : TransactArgs where
  nullifier0 := word 21
  nullifier1 := word 22
  outCommitment0 := word 23
  outCommitment1 := word 24
  root := zeroHash treeDepth
  extAmount := -400000000
  proof := List.replicate 256 0

def settlement : List Action := [ .program ⟨10, 0⟩ (.initializeBridge operator 1 zero32),
  .program ⟨11, 0⟩ (.initializeMerkleTree operator),
  .program ⟨12, 0⟩ (.initializeValidatorRegistry operator mint),
  .program ⟨13, 0⟩ (.registerValidator operator operatorTokens 2000000000 1000000000000),
  .program ⟨14, 0⟩ (.registerValidator cosigner cosignerTokens 3000000000 2000000000000),
  .program ⟨15, 0⟩ (.setDepositCap operator 1000000000000),
  .program ⟨16, 0⟩ (.depositNote depositor 1000000000 (word 5) (word 6)),
  .systemTransfer depositor .bridgeVault 7,
  .program ⟨17, 0⟩ (.transact operator (.key depositor) [⟨.key cosigner, true⟩, ⟨.validator (.key cosigner), false⟩] withdrawal),
  .program ⟨18, 0⟩ (.claimRewards operator)]

def exits : List Action := [ .program ⟨19, 0⟩ (.slashValidator operator (.key cosigner) (.key cosigner) 70),
  .program ⟨20, 0⟩ (.slashValidator operator (.key cosigner) (.key cosigner) 50),
  .program ⟨21, 0⟩ (.unregisterValidator operator),
  .program ⟨216019, 0⟩ (.withdrawUnbondedStake cosigner cosignerTokens)]

end Sample

end Paraloom
