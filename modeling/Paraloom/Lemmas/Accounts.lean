import Paraloom.Lemmas.Stake

/-!
# The steps that write a validator account

What a step does to the table of the validator accounts: nothing, one account is written over, a wallet registers, or an
account is closed. An account keeps its wallet, never shrinks, and leaves the active set only with a slot at which its stake
may be withdrawn.
-/

namespace Paraloom

/-- An account that has left the active set knows from which slot on its stake may be withdrawn. -/
def ValidatorAccount.ExitDated (v : ValidatorAccount) : Prop := v.isActive = false → 0 < v.unbondingSlot

inductive AccountStep (s s' : State) : Prop where
  | same (validators : s'.validators = s.validators)
  | write {w : Pubkey} {v v' : ProgramAccount ValidatorAccount} (before : s.validators.lookup w = some v)
      (validators : s'.validators = s.validators.insert w v') (name : v'.data.validator = v.data.validator)
      (grown : v.dataLen ≤ v'.dataLen) (dated : v.data.ExitDated → v'.data.ExitDated)
  | register {validator : Signer} {stake tokenStake : Nat} {clock : Clock}
      (validators : s'.validators = s.validators.insert (.key validator)
        ⟨.registered (.key validator) stake tokenStake clock, validatorAccountSpace⟩)
      (vault : (s'.tokens.lookup .stakeTokenVault).isSome)
  | close {w : Pubkey} (validators : s'.validators = s.validators.erase w)

namespace AccountsAux

theorem unbondingSlotAt_pos : 0 < unbondingSlotAt clock := by
  unfold unbondingSlotAt Checked.satAdd unbondingSlots
  have : 0 < Checked.u64Max := by decide
  omega

theorem slash_exitDated (v : ValidatorAccount) (registry : ValidatorRegistry) (pct : UInt8) (h : v.ExitDated) :
    (v.slash registry.minimumStake pct clock).ExitDated := by
  rcases slash_cases v registry pct clock with ⟨hinactive, -, hp⟩ | ⟨hactive, -, -, hp⟩ | ⟨-, -, hp⟩
  all_goals
    intro hout
    simp only [ValidatorAccount.position, Position.mk.injEq] at hp
    obtain ⟨hstate, -, -, hslot, -⟩ := hp
    rw [hslot]
  · exact h hinactive
  · rw [hstate, hactive] at hout
    cases hout
  · exact unbondingSlotAt_pos

theorem slash_validator (v : ValidatorAccount) (minimumStake : Nat) (pct : UInt8) :
    (v.slash minimumStake pct clock).validator = v.validator := by
  unfold ValidatorAccount.slash
  dsimp only
  split
  · split <;> rfl
  · rfl

theorem accountStep_of_instruction {ix : Instruction} (h : ix.exec Γ clock s = .ok s') : AccountStep s s' := by
  by_cases hk : ix.housekeeping = true
  · exact .same (Instruction.housekept h hk).validators
  cases ix with
  | initializeMerkleTree =>
    obtain ⟨-, _, _, -, rfl⟩ := initializeMerkleTree_ok h
    exact .same rfl
  | depositNote =>
    obtain ⟨_, _, _, _, _, _, _, -, -, -, -, -, -, -, rfl⟩ := depositNote_ok h
    exact .same rfl
  | transact =>
    obtain ⟨-, _, _, hst, -, _, rfl⟩ := transact_ok h
    exact .write hst.validator rfl rfl le_rfl id
  | transactSpl =>
    obtain ⟨_, _, _, hst, -, -, -, rfl⟩ := transactSpl_ok h
    exact .write hst.validator rfl rfl le_rfl id
  | depositNoteSpl =>
    obtain ⟨_, _, _, _, _, _, _, -, -, -, -, -, -, -, -, rfl⟩ := depositNoteSpl_ok h
    exact .same rfl
  | initializeValidatorRegistry =>
    obtain ⟨-, -, _, _, _, _, _, -, -, -, -, -, rfl⟩ := initializeValidatorRegistry_ok h
    exact .same rfl
  | initStakeTokenVault =>
    obtain ⟨-, _, _, -, rfl⟩ := initStakeTokenVault_ok h
    exact .same rfl
  | setMinTokenStake =>
    obtain ⟨_, -, rfl⟩ := setMinTokenStake_ok h
    exact .same rfl
  | resetValidatorRegistry =>
    obtain ⟨_, _, _, _, -, -, -, -, -, -, -, rfl⟩ := resetValidatorRegistry_ok h
    exact .same rfl
  | registerValidator =>
    obtain ⟨-, -, _, _, _, _, _, _, _, -, -, -, -, -, -, hafter, -, rfl⟩ := registerValidator_ok h
    exact .register rfl (Option.isSome_of_mem hafter)
  | unregisterValidator =>
    obtain ⟨_, _, hv, -, -, rfl⟩ := unregisterValidator_ok h
    exact .write hv rfl rfl le_rfl (fun _ _ => unbondingSlotAt_pos)
  | deactivateValidator =>
    obtain ⟨_, _, hv, -, ⟨-, rfl⟩ | ⟨-, rfl⟩⟩ := deactivateValidator_ok h
    · exact .same rfl
    · exact .write hv rfl rfl le_rfl (fun _ _ => unbondingSlotAt_pos)
  | withdrawUnbondedStake =>
    obtain ⟨_, _, _, _, _, _, -, -, -, -, -, -, -, -, -, -, rfl⟩ := withdrawUnbondedStake_ok h
    exact .close rfl
  | slashValidator =>
    obtain ⟨v, registry, _, _, hv, -, -, -, -, -, rfl⟩ := slashValidator_ok h
    exact .write hv rfl (slash_validator _ _ _) le_rfl (slash_exitDated v.data registry.data _)
  | claimRewards =>
    obtain ⟨_, _, _, hv, -, rfl⟩ := claimRewards_ok h
    exact .write hv rfl rfl le_rfl id
  | updateReputation =>
    obtain ⟨_, hv, rfl⟩ := updateReputation_ok h
    exact .write hv rfl rfl le_rfl id
  | migrateValidatorAccount =>
    obtain rfl | ⟨v, _, hv, hshort, -, rfl⟩ := migrateValidatorAccount_ok h
    · exact .same rfl
    · exact .write hv rfl rfl hshort.le id
  | _ => exact absurd rfl hk

end AccountsAux

theorem Step.accountStep {a : Action} (h : Step Γ s a s') : AccountStep s s' := by
  cases a with
  | program clock ix => exact AccountsAux.accountStep_of_instruction h
  | systemTransfer =>
    obtain ⟨_, -, rfl⟩ := systemTransfer_ok h
    exact .same rfl
  | tokenTransfer =>
    obtain ⟨_, -, rfl⟩ := tokenTransfer_ok h
    exact .same rfl
  | openTokenAccount =>
    obtain rfl := openTokenAccount_ok h
    exact .same rfl

theorem AccountStep.lookup_cases (h : AccountStep s s') (hv' : s'.validators.lookup w = some v') :
    s.validators.lookup w = some v' ∨
      (∃ v, s.validators.lookup w = some v ∧ v'.data.validator = v.data.validator ∧ v.dataLen ≤ v'.dataLen ∧
        (v.data.ExitDated → v'.data.ExitDated)) ∨
      ∃ validator stake tokenStake clock, w = .key validator ∧
        v' = ⟨.registered (.key validator) stake tokenStake clock, validatorAccountSpace⟩ ∧
        (s'.tokens.lookup .stakeTokenVault).isSome := by
  cases h with
  | same validators => exact .inl (validators ▸ hv')
  | write before validators name grown dated =>
    rw [validators] at hv'
    rcases Table.lookup_insert_eq_some.mp hv' with ⟨rfl, rfl⟩ | ⟨-, hv'⟩
    · exact .inr (.inl ⟨_, before, name, grown, dated⟩)
    · exact .inl hv'
  | register validators vault =>
    rw [validators] at hv'
    rcases Table.lookup_insert_eq_some.mp hv' with ⟨hw, hnew⟩ | ⟨-, hv'⟩
    · exact .inr (.inr ⟨_, _, _, _, hw, hnew, vault⟩)
    · exact .inl hv'
  | close validators =>
    rw [validators, Table.lookup_erase_if] at hv'
    split at hv'
    · cases hv'
    · exact .inl hv'

/-- An account as the program keeps it: it is named after the wallet that registered it, it has the current layout, and it
leaves the active set only with a date. -/
structure KeptAccount (w : Pubkey) (v : ProgramAccount ValidatorAccount) : Prop where
  wallet : ∃ k : Signer, w = .key k
  name : v.data.validator = w
  whole : validatorAccountSpace ≤ v.dataLen
  dated : v.data.ExitDated

theorem Step.keptAccounts (h : Step Γ s a s') (hs : ∀ w v, s.validators.lookup w = some v → KeptAccount w v)
    (hv' : s'.validators.lookup w = some v') : KeptAccount w v' := by
  rcases h.accountStep.lookup_cases hv' with hv | ⟨v, hv, hname, hgrown, hdated⟩ | ⟨validator, _, _, _, rfl, rfl, -⟩
  · exact hs w v' hv
  · have hkept := hs w v hv
    exact ⟨hkept.wallet, hname.trans hkept.name, hkept.whole.trans hgrown, hdated hkept.dated⟩
  · exact ⟨⟨validator, rfl⟩, rfl, Nat.le_refl _, fun hinactive => (by cases hinactive)⟩

end Paraloom
