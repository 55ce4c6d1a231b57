import Paraloom.Lemmas.Program

/-!
# The steps that move tokens

What a step does to the token accounts. Somebody opens an account, an owner transfers, or the program moves tokens: into a
vault with the signature of a wallet, and out of a vault with that of the vault's own authority, which is no wallet.
-/

namespace Paraloom

open Checked

inductive TokenStep (Γ : Ctx) (s : State) : Action → State → Prop where
  | quiet {a : Action} {s' : State} (tokens : s'.tokens = s.tokens) : TokenStep Γ s a s'
  | openKey {a : Action} {s' : State} {address : Signer} {account : TokenAccount}
      (tokens : s'.tokens = s.tokens.insert (.key address) account) : TokenStep Γ s a s'
  | openStakeVault {a : Action} {s' : State} {mint : Pubkey} (new : s.tokens.lookup .stakeTokenVault = none)
      (tokens : s'.tokens = s.tokens.insert .stakeTokenVault ⟨mint, .stakeVaultAuthority, 0⟩) : TokenStep Γ s a s'
  | openAssetVault {a : Action} {s' : State} {mint : Pubkey} (new : s.tokens.lookup (.assetVault mint) = none)
      (tokens : s'.tokens = s.tokens.insert (.assetVault mint) ⟨mint, .assetVaultAuthority, 0⟩) : TokenStep Γ s a s'
  | send {s' : State} {owner : Signer} {mint source target : Pubkey} {amount : UInt64}
      (h : transferChecked Γ s.tokens mint source target (.key owner) amount.toNat = .ok s'.tokens) :
      TokenStep Γ s (.tokenTransfer owner mint source target amount) s'
  | depositSpl {s' : State} {clock : Clock} {depositor : Signer} {mint account : Pubkey} {amount : UInt64}
      {pubkey blinding : Bytes32} (h : depositNoteSpl Γ clock s depositor mint account amount pubkey blinding = .ok s') :
      TokenStep Γ s (.program clock (.depositNoteSpl depositor mint account amount pubkey blinding)) s'
  | settleSpl {s' : State} {clock : Clock} {authority : Signer} {mint recipient fee : Pubkey} {quorum : List AccountMeta}
      {args : TransactArgs} (h : transactSpl Γ clock s authority mint recipient fee quorum args = .ok s') :
      TokenStep Γ s (.program clock (.transactSpl authority mint recipient fee quorum args)) s'
  | register {s' : State} {clock : Clock} {validator : Signer} {account : Pubkey} {stake tokenStake : UInt64}
      (h : registerValidator Γ clock s validator account stake tokenStake = .ok s') :
      TokenStep Γ s (.program clock (.registerValidator validator account stake tokenStake)) s'
  | withdraw {s' : State} {clock : Clock} {validator : Signer} {account : Pubkey}
      (h : withdrawUnbondedStake Γ clock s validator account = .ok s') :
      TokenStep Γ s (.program clock (.withdrawUnbondedStake validator account)) s'
  | slash {s' : State} {clock : Clock} {authority : Signer} {wallet validator : Pubkey} {pct : UInt8}
      (h : slashValidator clock s authority wallet validator pct = .ok s') :
      TokenStep Γ s (.program clock (.slashValidator authority wallet validator pct)) s'

namespace TokensAux

theorem tokens_of_updateBridge (h : updateBridge s authority update = .ok s') : s'.tokens = s.tokens := by
  obtain ⟨_, -, rfl⟩ := updateBridge_ok h
  rfl

theorem tokenStep_of_instruction (h : ix.exec Γ clock s = .ok s') : TokenStep Γ s (.program clock ix) s' := by
  cases ix with
  | initializeBridge =>
    obtain ⟨-, _, _, _, -, -, -, rfl⟩ := initializeBridge_ok h
    exact .quiet rfl
  | migrateBridgeState =>
    obtain ⟨_, _, _, _, -, -, rfl⟩ := migrateBridgeState_ok h
    exact .quiet rfl
  | initializeMerkleTree =>
    obtain ⟨-, _, _, -, rfl⟩ := initializeMerkleTree_ok h
    exact .quiet rfl
  | depositNote =>
    obtain ⟨_, _, _, _, _, _, _, -, -, -, -, -, -, -, rfl⟩ := depositNote_ok h
    exact .quiet rfl
  | transact =>
    obtain ⟨-, _, _, -, -, _, rfl⟩ := transact_ok h
    exact .quiet rfl
  | transactSpl => exact .settleSpl h
  | pause =>
    simp only [Instruction.exec, Paraloom.pause] at h
    exact .quiet (tokens_of_updateBridge h)
  | unpause =>
    simp only [Instruction.exec, Paraloom.unpause] at h
    exact .quiet (tokens_of_updateBridge h)
  | setBridgeAuthority =>
    simp only [Instruction.exec, Paraloom.setBridgeAuthority] at h
    exact .quiet (tokens_of_updateBridge h)
  | setDepositCap =>
    simp only [Instruction.exec, Paraloom.setDepositCap] at h
    exact .quiet (tokens_of_updateBridge h)
  | initAssetVault =>
    obtain ⟨_, _, _, _, _, hnone, -, -, rfl⟩ := initAssetVault_ok h
    exact .openAssetVault hnone rfl
  | setAssetDepositCap =>
    obtain ⟨_, rfl⟩ := setAssetDepositCap_ok h
    exact .quiet rfl
  | depositNoteSpl => exact .depositSpl h
  | initializeValidatorRegistry =>
    obtain ⟨-, hnone, _, _, _, _, _, -, -, -, -, -, rfl⟩ := initializeValidatorRegistry_ok h
    exact .openStakeVault hnone rfl
  | initStakeTokenVault =>
    obtain ⟨hnone, _, _, -, rfl⟩ := initStakeTokenVault_ok h
    exact .openStakeVault hnone rfl
  | setMinTokenStake =>
    obtain ⟨_, -, rfl⟩ := setMinTokenStake_ok h
    exact .quiet rfl
  | resetValidatorRegistry =>
    obtain ⟨_, _, _, _, -, -, -, -, -, -, -, rfl⟩ := resetValidatorRegistry_ok h
    exact .quiet rfl
  | registerValidator => exact .register h
  | unregisterValidator =>
    obtain ⟨_, _, -, -, -, rfl⟩ := unregisterValidator_ok h
    exact .quiet rfl
  | deactivateValidator =>
    obtain ⟨_, _, -, -, ⟨-, rfl⟩ | ⟨-, rfl⟩⟩ := deactivateValidator_ok h <;> exact .quiet rfl
  | withdrawUnbondedStake => exact .withdraw h
  | slashValidator => exact .slash h
  | claimRewards =>
    obtain ⟨_, _, _, -, -, rfl⟩ := claimRewards_ok h
    exact .quiet rfl
  | updateReputation =>
    obtain ⟨_, -, rfl⟩ := updateReputation_ok h
    exact .quiet rfl
  | migrateValidatorAccount =>
    obtain rfl | ⟨_, _, -, -, -, rfl⟩ := migrateValidatorAccount_ok h <;> exact .quiet rfl

end TokensAux

theorem Step.tokenStep (h : Step Γ s a s') : TokenStep Γ s a s' := by
  cases a with
  | program clock ix => exact TokensAux.tokenStep_of_instruction h
  | systemTransfer =>
    obtain ⟨_, -, rfl⟩ := systemTransfer_ok h
    exact .quiet rfl
  | tokenTransfer =>
    obtain ⟨_, hpay, rfl⟩ := tokenTransfer_ok h
    exact .send hpay
  | openTokenAccount =>
    obtain rfl := openTokenAccount_ok h
    exact .openKey rfl

theorem transferChecked_complete (hsrc : tokens.lookup source = some src) (hdst : tokens.lookup target = some dst)
    (hmints : src.mint = mint ∧ dst.mint = mint) (howner : src.owner = authority) (hfunds : amount ≤ src.amount)
    (hne : source ≠ target) (hroom : dst.amount + (amount - Γ.transferFee mint amount) ≤ u64Max) :
    transferChecked Γ tokens mint source target authority amount =
      .ok ((tokens.insert source { src with amount := src.amount - amount }).insert target
        { dst with amount := dst.amount + (amount - Γ.transferFee mint amount) }) := by
  simp only [transferChecked, Checked.seq_ok_iff, Checked.okOr_ok_iff, Checked.require_ok_iff, if_neg hne,
    Checked.return_ok_iff, exists_const]
  exact ⟨src, hsrc, dst, hdst, ⟨hmints.1, hmints.2, howner, hfunds⟩, hroom, rfl⟩

/-- A payment that may be skipped leaves every account but its two ends alone. -/
theorem transferAny_lookup (h : transferAny Γ tokens mint source target authority amount = .ok tokens') (hs : k ≠ source)
    (ht : k ≠ target) : tokens'.lookup k = tokens.lookup k := by
  unfold transferAny at h
  split at h
  · exact transferChecked_lookup h hs ht
  · rw [return_ok_iff.mp h]

theorem burnAny_lookup (h : burnAny tokens mint source authority amount = .ok tokens') (hs : k ≠ source) :
    tokens'.lookup k = tokens.lookup k := by
  unfold burnAny at h
  split at h
  · obtain ⟨_, -, -, -, rfl⟩ := burn_ok h
    exact AList.lookup_insert_ne hs
  · rw [return_ok_iff.mp h]

/-! ## One vault -/

section Vault

theorem transferChecked_vault (h : transferChecked Γ tokens mint source target signer amount = .ok tokens')
    (howner : ∀ a, tokens.lookup vault = some a → a.owner = authority) (hsigner : signer ≠ authority)
    (htarget : target ≠ vault) :
    tokens'.lookup vault = tokens.lookup vault := by
  refine transferChecked_lookup h ?_ (Ne.symm htarget)
  rintro rfl
  obtain ⟨src, _, hsrc, -, -, -, howns, -, -⟩ := transferChecked_ok h
  exact hsigner (howns.symm.trans (howner src hsrc))

/-- What a vault has after it received a transfer that its authority did not sign: as much or more. -/
theorem transferChecked_into (h : transferChecked Γ tokens mint source vault signer amount = .ok tokens')
    (howner : ∀ a, tokens.lookup vault = some a → a.owner = authority) (hsigner : signer ≠ authority) :
    ∃ a, tokens.lookup vault = some a ∧ a.amount + (amount - Γ.transferFee mint amount) ≤ u64Max ∧
      tokens'.lookup vault = some { a with amount := a.amount + (amount - Γ.transferFee mint amount) } := by
  obtain ⟨src, dst, hsrc, hdst, -, -, howns, -, ⟨rfl, -⟩ | ⟨-, hfits, rfl⟩⟩ := transferChecked_ok h
  · exact absurd (howns.symm.trans (howner src hsrc)) hsigner
  · exact ⟨dst, hdst, hfits, AList.lookup_insert _⟩

/-- What a vault has after it paid: the amount less, unless it paid itself. -/
theorem transferChecked_out (h : transferChecked Γ tokens mint vault target signer amount = .ok tokens')
    (ha : tokens.lookup vault = some a) :
    amount ≤ a.amount ∧ tokens'.lookup vault = some { a with amount := a.amount - if target = vault then 0 else amount } := by
  obtain ⟨src, dst, hsrc, -, -, -, -, hle, hcase⟩ := transferChecked_ok h
  obtain rfl : a = src := Option.some.inj (ha.symm.trans hsrc)
  refine ⟨hle, ?_⟩
  rcases hcase with ⟨rfl, rfl⟩ | ⟨hne, -, rfl⟩
  · simpa using ha
  · rw [if_neg (Ne.symm hne), AList.lookup_insert_ne hne, AList.lookup_insert]

/-- The same for a payment that is skipped when it is zero. -/
theorem transferAny_out (h : transferAny Γ tokens mint vault target signer amount = .ok tokens')
    (ha : tokens.lookup vault = some a) :
    amount ≤ a.amount ∧ tokens'.lookup vault = some { a with amount := a.amount - if target = vault then 0 else amount } := by
  unfold transferAny at h
  split at h
  · exact transferChecked_out h ha
  · rename_i hzero
    obtain rfl : amount = 0 := by omega
    rw [return_ok_iff] at h
    subst h
    simpa using ha

end Vault

/-! ## The payout of a settlement -/

section Payout

variable (h : paySpl Γ s mint recipient feeAccount extAmount = .ok (fee, tokens))
include h

/-- A settlement of a token pays nothing, or it pays the recipient and then the fee. -/
theorem paySpl_ok : ∃ vault, s.tokens.lookup (.assetVault mint) = some vault ∧
      (0 ≤ extAmount.toInt ∧ tokens = s.tokens ∨
        fee ≤ extAmount.toInt.natAbs ∧ extAmount.toInt.natAbs ≤ vault.amount ∧
          ∃ paid, transferChecked Γ s.tokens mint (.assetVault mint) recipient .assetVaultAuthority
              (extAmount.toInt.natAbs - fee) = .ok paid ∧
            transferAny Γ paid mint (.assetVault mint) feeAccount .assetVaultAuthority fee = .ok tokens) := by
  simp only [paySpl, withdrawalFee, seq_ok_iff, loadFixed_ok_iff] at h
  obtain ⟨vault, hvault, h⟩ := h
  refine ⟨vault, hvault, ?_⟩
  split at h
  · simp only [seq_ok_iff, require_ok_iff, okOr_ok_iff, checkedMul_some_iff, return_ok_iff,
      Prod.mk.injEq, exists_const] at h
    obtain ⟨_, ⟨_, ⟨-, rfl⟩, rfl⟩, hle, paid, hpaid, _, hfinal, rfl, rfl⟩ := h
    refine .inr ⟨?_, hle, paid, hpaid, hfinal⟩
    rw [withdrawalFeeBps]
    omega
  · rename_i hnonneg
    rw [return_ok_iff, Prod.mk.injEq] at h
    exact .inl ⟨by omega, h.2.symm⟩

theorem paySpl_lookup (hvault : k ≠ .assetVault mint) (hrecipient : k ≠ recipient) (hfee : k ≠ feeAccount) :
    tokens.lookup k = s.tokens.lookup k := by
  obtain ⟨_, -, ⟨-, rfl⟩ | ⟨-, -, paid, hpaid, hfinal⟩⟩ := paySpl_ok h
  · rfl
  exact (transferAny_lookup hfinal hvault hfee).trans (transferChecked_lookup hpaid hvault hrecipient)

/-- The vault of the mint pays the whole amount, but for a payout to the vault itself. -/
theorem paySpl_vault (hnonpos : extAmount.toInt ≤ 0) (hfee : feeAccount ≠ .assetVault mint) :
    ∃ vault left, s.tokens.lookup (.assetVault mint) = some vault ∧
      tokens.lookup (.assetVault mint) = some { vault with amount := left } ∧
      vault.amount ≤ left + extAmount.toInt.natAbs ∧
      (recipient ≠ .assetVault mint → vault.amount = left + extAmount.toInt.natAbs) := by
  obtain ⟨vault, hvault, ⟨hnonneg, rfl⟩ | ⟨hle, hfunds, paid, hpaid, hfinal⟩⟩ := paySpl_ok h
  · exact ⟨vault, vault.amount, hvault, hvault, Nat.le_add_right _ _, fun _ => by omega⟩
  obtain ⟨-, hpaid⟩ := transferChecked_out hpaid hvault
  obtain ⟨hrest, hfinal⟩ := transferAny_out hfinal hpaid
  rw [if_neg hfee] at hfinal
  refine ⟨vault, _, hvault, hfinal, ?_⟩
  dsimp only at hrest ⊢
  split at hrest
  · rename_i hself
    exact ⟨by rw [if_pos hself]; omega, fun hne => absurd hself hne⟩
  · rename_i hother
    rw [if_neg hother]
    exact ⟨by omega, fun _ => by omega⟩

end Payout

/-! ## Token accounts are never closed -/

section Persist

variable {tokens tokens' : Table Pubkey TokenAccount}

theorem isSome_insert (hk : (tokens.lookup k).isSome) : ((tokens.insert x account).lookup k).isSome := by
  rw [Table.lookup_insert_if]
  split
  · rfl
  · exact hk

theorem transferChecked_isSome (h : transferChecked Γ tokens mint source target authority amount = .ok tokens')
    (hk : (tokens.lookup k).isSome) : (tokens'.lookup k).isSome := by
  obtain ⟨_, _, -, -, -, -, -, -, ⟨-, rfl⟩ | ⟨-, -, rfl⟩⟩ := transferChecked_ok h
  · exact hk
  · exact isSome_insert (isSome_insert hk)

theorem transferAny_isSome (h : transferAny Γ tokens mint source target authority amount = .ok tokens')
    (hk : (tokens.lookup k).isSome) : (tokens'.lookup k).isSome := by
  unfold transferAny at h
  split at h
  · exact transferChecked_isSome h hk
  · rwa [← return_ok_iff.mp h]

/-- A token account that is there stays. -/
theorem Step.isSome_lookup (h : Step Γ s a s') (hk : (s.tokens.lookup k).isSome) : (s'.tokens.lookup k).isSome := by
  cases h.tokenStep with
  | quiet htokens => rwa [htokens]
  | openKey htokens | openStakeVault _ htokens | openAssetVault _ htokens =>
    rw [htokens]
    exact isSome_insert hk
  | send h => exact transferChecked_isSome h hk
  | depositSpl h =>
    obtain ⟨_, _, _, _, _, _, _, -, -, -, hpay, -, -, -, -, rfl⟩ := depositNoteSpl_ok h
    exact transferChecked_isSome hpay hk
  | settleSpl h =>
    obtain ⟨_, _, _, -, -, -, hpaid, rfl⟩ := transactSpl_ok h
    obtain ⟨_, -, ⟨-, rfl⟩ | ⟨-, -, _, hpaid, hfee⟩⟩ := paySpl_ok hpaid
    · exact hk
    · exact transferAny_isSome hfee (transferChecked_isSome hpaid hk)
  | register h =>
    obtain ⟨-, -, _, _, _, _, _, _, _, -, -, -, -, hpay, -, -, -, rfl⟩ := registerValidator_ok h
    exact transferChecked_isSome hpay hk
  | withdraw h =>
    obtain ⟨_, _, _, _, _, _, -, -, -, -, -, -, -, -, -, hpay, rfl⟩ := withdrawUnbondedStake_ok h
    exact transferAny_isSome hpay hk
  | slash h =>
    obtain ⟨_, _, _, _, -, -, -, -, -, hburn, rfl⟩ := slashValidator_ok h
    unfold burnAny at hburn
    split at hburn
    · obtain ⟨_, -, -, -, rfl⟩ := burn_ok hburn
      exact isSome_insert hk
    · rwa [← return_ok_iff.mp hburn]

end Persist

end Paraloom
