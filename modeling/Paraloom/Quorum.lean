import Paraloom.Accounts

/-!
# The settlement quorum

A settlement is authorised by a supermajority of the active stake that co-signs the transaction. The co-signers come as
pairs of a wallet and its validator account; a pair that does not prove an active validator is skipped, and every wallet
counts once.
-/

namespace Paraloom

/-- An account as the runtime hands it to the program. `validator` is what its data deserializes to as a validator account,
if it does. -/
structure AccountInfo where
  key : Pubkey
  isSigner : Bool
  owner : Pubkey
  validator : Option ValidatorAccount

/-- An account that a transaction names. -/
structure AccountMeta where
  key : Pubkey
  isSigner : Bool

/-- `ValidatorAccount::try_deserialize` of the data at an address. -/
def State.deserializeValidator (s : State) : Pubkey → Option ValidatorAccount
  | .validator wallet => (s.validators.lookup wallet).bind fun a =>
    if validatorAccountSpace ≤ a.dataLen then some a.data else none
  | _ => none

/-- The account a transaction names, in a state. -/
def State.accountInfo (s : State) (m : AccountMeta) : AccountInfo where
  key := m.key
  isSigner := m.isSigner
  owner := s.owner m.key
  validator := s.deserializeValidator m.key

/-- `find_program_address(&[b"validator", wallet])`. -/
def findValidatorAddress (wallet : Pubkey) : Pubkey := .validator wallet

def quorumThreshold (totalActiveStake : Nat) : Nat := Checked.satMul totalActiveStake 2 / 3 + 1

/-- The running count of the quorum loop. -/
structure QuorumTally where
  countedStake : Nat
  seen : List Pubkey

def provenValidator (settlementAuthority : Pubkey) (wallet pda : AccountInfo) : Option ValidatorAccount :=
  if wallet.isSigner = false then none
  else if wallet.key = settlementAuthority then none
  else if pda.owner ≠ programId then none
  else if findValidatorAddress wallet.key ≠ pda.key then none
  else match pda.validator with
    | none => none
    | some validator => if validator.isActive = false ∨ validator.validator ≠ wallet.key then none else some validator

def countPair (settlementAuthority : Pubkey) (tally : QuorumTally) (wallet pda : AccountInfo) : QuorumTally :=
  match provenValidator settlementAuthority wallet pda with
  | none => tally
  | some validator =>
    if wallet.key ∈ tally.seen then tally
    else ⟨Checked.satAdd tally.countedStake validator.stakeAmount, tally.seen ++ [wallet.key]⟩

/-- The quorum loop over `chunks(2)`: an unpaired last account ends it. -/
def countPairs (settlementAuthority : Pubkey) : (tally : QuorumTally) → List AccountInfo → QuorumTally
  | tally, wallet :: pda :: rest => countPairs settlementAuthority (countPair settlementAuthority tally wallet pda) rest
  | tally, _ => tally

def tallyQuorum (settlementAuthority : Pubkey) (quorumAccounts : List AccountInfo) : QuorumTally :=
  countPairs settlementAuthority ⟨0, []⟩ quorumAccounts

/-- The active stake that may count: all of it without the settlement authority's own. -/
def eligibleStake (registry : ValidatorRegistry) (authorityActiveStake : Nat) : Nat :=
  Checked.satSub registry.totalActiveStake authorityActiveStake

/-- Verify that a supermajority of the active stake co-signed. -/
def verifyValidatorQuorum (registry : ValidatorRegistry) (settlementAuthority : Pubkey) (authorityActiveStake : Nat)
    (quorumAccounts : List AccountInfo) : Result Unit := do
  let eligible := eligibleStake registry authorityActiveStake
  let threshold := quorumThreshold eligible
  let tally := tallyQuorum settlementAuthority quorumAccounts
  require (tally.countedStake ≤ eligible) .quorumNotMet
  require (threshold ≤ tally.countedStake) .quorumNotMet

/-- When a pair proves a validator. -/
theorem provenValidator_some_iff : provenValidator authority wallet pda = some v ↔
      wallet.isSigner = true ∧ wallet.key ≠ authority ∧ pda.owner = programId ∧
        findValidatorAddress wallet.key = pda.key ∧ pda.validator = some v ∧ v.isActive = true ∧ v.validator = wallet.key := by
  unfold provenValidator
  cases pda.validator with
  | none => simp
  | some v' =>
    simp only [Option.ite_none_left_eq_some, Bool.not_eq_false, ne_eq, not_not, not_or, Option.some.injEq]
    constructor
    · rintro ⟨hs, ha, ho, hk, ⟨hact, hval⟩, rfl⟩
      exact ⟨hs, ha, ho, hk, rfl, hact, hval⟩
    · rintro ⟨hs, ha, ho, hk, rfl, hact, hval⟩
      exact ⟨hs, ha, ho, hk, ⟨hact, hval⟩, rfl⟩

theorem verifyValidatorQuorum_ok_iff : verifyValidatorQuorum registry authority stake accounts = .ok u ↔
      (tallyQuorum authority accounts).countedStake ≤ eligibleStake registry stake ∧
        quorumThreshold (eligibleStake registry stake) ≤ (tallyQuorum authority accounts).countedStake := by
  simp [verifyValidatorQuorum, Checked.seq_ok_iff]

end Paraloom
