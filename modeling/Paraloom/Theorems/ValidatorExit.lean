import Paraloom.Lemmas.Accounts
import Paraloom.Theorems.TokenStake

/-!
# A validator can always leave

A validator that has left the active set and claimed its rewards gets its stake back as soon as the unbonding slot has come:
the account holds what unbonds on top of its rent, the vault holds the tokens, and no check of `withdraw_unbonded_stake` fails.
Then the wallet can register again.
-/

namespace Paraloom

open Checked TokenStakeAux

/-- What a registration needs besides a wallet without an account: the registry, a token account and the vault of the pinned
mint, stakes above the two floors, and the funds for them. -/
@[mk_iff] structure CanRegister (Γ : Ctx) (s : State) (validator : Signer) (account : Pubkey) (stake tokenStake : UInt64)
    (registry : ProgramAccount ValidatorRegistry) (source vault : TokenAccount) : Prop where
  hasRegistry : s.validatorRegistry = some registry ∧ validatorRegistrySpace ≤ registry.dataLen
  hasSource : s.tokens.lookup account = some source ∧ source.mint = registry.data.stakeMint ∧ source.owner = .key validator
  hasVault : s.tokens.lookup .stakeTokenVault = some vault ∧ vault.mint = registry.data.stakeMint
  stakeFloor : minValidatorStake ≤ stake.toNat
  tokenFloor : registry.data.minTokenStake ≤ tokenStake.toNat - Γ.transferFee registry.data.stakeMint tokenStake.toNat
  lamportFunds : rentDue Γ (s.balance (.validator (.key validator))) validatorAccountSpace + stake.toNat ≤
    s.balance (.key validator)
  tokenFunds : tokenStake.toNat ≤ source.amount
  vaultRoom : vault.amount + (tokenStake.toNat - Γ.transferFee registry.data.stakeMint tokenStake.toNat) ≤ u64Max

instance {validator : Signer} {account : Pubkey} {stake tokenStake : UInt64} {registry : ProgramAccount ValidatorRegistry}
    {source vault : TokenAccount} : Decidable (CanRegister Γ s validator account stake tokenStake registry source vault) :=
  decidable_of_iff' _ (canRegister_iff ..)

namespace ValidatorExitAux

variable {vault : TokenAccount}

/-! ## The invariant -/

/-- What every validator account can rely on. -/
structure Ready (Γ : Ctx) (s : State) : Prop where
  backed : ∀ w, Backed Γ s w
  supply : s.lamports.supply ≤ u64Max
  account : ∀ w v, s.validators.lookup w = some v → KeptAccount w v
  vault : ∀ {w v}, s.validators.lookup w = some v → (s.tokens.lookup .stakeTokenVault).isSome
  owned : StakeVaultOwned s
  covered : s.tokenStakeSum ≤ s.stakeVaultTokens

theorem ready_start (hstart : NothingStaked s) (hsupply : s.lamports.supply < 2 ^ 64) : Ready Γ s := by
  have hnone : ∀ {w v}, s.validators.lookup w ≠ some v := fun {w v} hv =>
    absurd ((hstart.validators w).symm.trans hv) (by simp)
  have hsum : s.tokenStakeSum = 0 := Table.total_eq_zero fun w v hv => absurd hv hnone
  exact ⟨fun w => backed_of_none (hstart.validators w), Nat.le_sub_one_of_lt hsupply, fun w v hv => absurd hv hnone,
    fun hv => absurd hv hnone, hstart.owned, by omega⟩

theorem Ready.vault_step (hs : Ready Γ s) (h : Step Γ s a s') (hv' : s'.validators.lookup w = some v') :
    (s'.tokens.lookup .stakeTokenVault).isSome := by
  rcases h.accountStep.lookup_cases hv' with hv | ⟨v, hv, -⟩ | ⟨_, _, _, _, -, -, hvault⟩
  · exact h.isSome_lookup (hs.vault hv)
  · exact h.isSome_lookup (hs.vault hv)
  · exact hvault

theorem Ready.step (hs : Ready Γ s) (h : Step Γ s a s') : Ready Γ s' := by
  obtain ⟨howned, hcovered⟩ := covered_of_step hs.owned hs.covered h
  exact ⟨fun w => h.backed (hs.backed w), h.supply ▸ hs.supply, fun _ _ hv => h.keptAccounts hs.account hv,
    hs.vault_step h, howned, hcovered⟩

/-! ## Leaving -/

theorem Ready.tokens_le (hs : Ready Γ s) (hv : s.validators.lookup w = some v)
    (hvault : s.tokens.lookup .stakeTokenVault = some vault) : v.data.tokenUnbondingAmount ≤ vault.amount := by
  have hrecorded := recorded_le hv
  have hcovered := hs.covered
  unfold recorded at hrecorded
  simp only [State.stakeVaultTokens, hvault, Option.elim_some] at hcovered
  omega

/-- A payment out of a vault to another account of its mint that has room for it succeeds. -/
theorem exists_transferAny (hsrc : tokens.lookup source = some src) (hdst : tokens.lookup target = some dst)
    (hmints : src.mint = mint ∧ dst.mint = mint) (howner : src.owner = authority) (hfunds : amount ≤ src.amount)
    (hne : source ≠ target) (hroom : dst.amount + amount ≤ u64Max) :
    ∃ tokens', transferAny Γ tokens mint source target authority amount = .ok tokens' := by
  unfold transferAny
  split
  · exact ⟨_, transferChecked_complete hsrc hdst hmints howner hfunds hne (by omega)⟩
  · exact ⟨tokens, rfl⟩

theorem unbonding_le (hs : Ready Γ s) (hv : s.validators.lookup w = some v) :
    v.data.unbondingAmount ≤ s.balance (.validator w) := by
  have hcover := (hs.backed w v hv).lamports
  simp only [ValidatorAccount.position] at hcover
  omega

/-- `withdraw_unbonded_stake` succeeds for an account that has left and has no rewards, at its slot or later. -/
theorem exists_withdraw (hs : Ready Γ s) (hv : s.validators.lookup (.key validator) = some v)
    (hinactive : v.data.isActive = false) (hpending : v.data.pendingRewards = 0)
    (hslot : v.data.unbondingSlot ≤ clock.slot.toNat) (haccount : s.tokens.lookup account = some source)
    (howner : source.owner = .key validator) (hvault : s.tokens.lookup .stakeTokenVault = some vault)
    (hmint : source.mint = vault.mint) (hroom : source.amount + v.data.tokenUnbondingAmount ≤ u64Max) :
    ∃ s', withdrawUnbondedStake Γ clock s validator account = .ok s' := by
  obtain ⟨-, hname, hwhole, hdated⟩ := hs.account _ _ hv
  have hstake : v.data.stakeAmount = 0 := (hs.backed _ v hv).inactive hinactive
  have hexit : 0 < v.data.unbondingAmount ∨ v.data.unbondingAmount = 0 ∧ v.data.isActive = false ∧ v.data.stakeAmount = 0 ∧
      0 < v.data.unbondingSlot := by
    rcases Nat.eq_zero_or_pos v.data.unbondingAmount with hzero | hpos
    · exact .inr ⟨hzero, hinactive, hstake, hdated hinactive⟩
    · exact .inl hpos
  obtain ⟨lamports0, hpay⟩ := Ledger.exists_move (.key validator) hs.supply (unbonding_le hs hv)
  obtain ⟨lamports, hclose⟩ := Ledger.exists_move (.key validator)
    ((Ledger.move_moved hpay).supply ▸ hs.supply) (Nat.le_refl (lamports0.balance (.validator (.key validator))))
  obtain ⟨tokens, htokens⟩ := exists_transferAny (Γ := Γ) hvault haccount ⟨rfl, hmint⟩ (hs.owned vault hvault).1
    (hs.tokens_le hv hvault) (Ne.symm (not_vault hs.owned haccount howner)) hroom
  simp only [withdrawUnbondedStake, seq_ok_iff, loadAccount_ok_iff, loadFixed_ok_iff, constraint_ok_iff,
    require_ok_iff, moveLamports_ok_iff, return_ok_iff, exists_const]
  exact ⟨_, v, ⟨hv, hwhole⟩, source, haccount, vault, hvault, hname, ⟨hmint, howner⟩, hexit, hslot, hpending, lamports0, hpay,
    tokens, htokens, lamports, hclose, rfl⟩

/-- What a withdrawal leaves: the wallet has all lamports of the account, and the account is gone. -/
theorem withdraw_pays (h : withdrawUnbondedStake Γ clock s validator account = .ok s') :
    s'.balance (.key validator) = s.balance (.key validator) + s.balance (.validator (.key validator)) ∧
      s'.balance (.validator (.key validator)) = 0 ∧ s'.validators.lookup (.key validator) = none := by
  obtain ⟨_, _, _, lamports0, lamports, _, -, -, -, -, -, -, -, hpay, hclose, -, rfl⟩ := withdrawUnbondedStake_ok h
  have htarget := hpay.balance_target (by simp)
  have hsource := hpay.balance_source (by simp)
  have htarget' := hclose.balance_target (by simp)
  have hsource' := hclose.balance_source (by simp)
  refine ⟨?_, ?_, AList.lookup_erase _ _⟩
  · simp only [State.balance]
    omega
  · simp only [State.balance]
    omega

/-! ## Registering -/

theorem exists_initAccount (payer address : Pubkey) (space : Nat) (hsupply : l.supply ≤ u64Max)
    (hfunds : rentDue Γ (l.balance address) space ≤ l.balance payer) :
    ∃ l', initAccount Γ l false payer address space = .ok l' ∧
      l.Moved payer address (rentDue Γ (l.balance address) space) l' := by
  have hpaid : ∃ l', topUp l payer address (rentDue Γ (l.balance address) space) = .ok l' := by
    unfold topUp
    split
    · exact ⟨l, rfl⟩
    · obtain ⟨l', hmove⟩ := Ledger.exists_move address hsupply hfunds
      exact ⟨l', transferLamports_ok_iff.mpr hmove⟩
  obtain ⟨l', hpay⟩ := hpaid
  exact ⟨l', initAccount_ok_iff.mpr ⟨rfl, hpay⟩, topUp_moved hpay⟩

theorem exists_register (hsupply : s.lamports.supply ≤ u64Max) (howned : StakeVaultOwned s)
    (hnew : s.validators.lookup (.key validator) = none)
    (hcan : CanRegister Γ s validator account stake tokenStake registry source vault) :
    ∃ s', registerValidator Γ clock s validator account stake tokenStake = .ok s' := by
  obtain ⟨hregistry, ⟨hsource, hmint, howner⟩, ⟨hvault, hvaultMint⟩, hstake, htokenStake, hlamports, htokens, hroom⟩ := hcan
  have hne : account ≠ .stakeTokenVault := not_vault howned hsource howner
  simp only [State.balance] at hlamports
  obtain ⟨lamports0, hinit, hrent⟩ := exists_initAccount (Γ := Γ) (.key validator) (.validator (.key validator))
    validatorAccountSpace hsupply (by omega)
  have hleft := hrent.balance_source (by simp)
  obtain ⟨lamports, hpay⟩ := Ledger.exists_move (n := stake.toNat) (.validator (.key validator))
    (hrent.supply ▸ hsupply) (show stake.toNat ≤ lamports0.balance (.key validator) by omega)
  simp only [registerValidator, seq_ok_iff, loadAccount_ok_iff, loadFixed_ok_iff, constraint_ok_iff, require_ok_iff,
    transferLamports_ok_iff, okOr_ok_iff, checkedSub_some_iff, return_ok_iff, exists_const, hnew,
    Option.isSome_none]
  refine ⟨_, registry, hregistry, source, hsource, vault, hvault, lamports0, hinit, ⟨hmint, howner⟩, hstake, ?_, lamports,
    hpay, _, transferChecked_complete hsource hvault ⟨hmint, hvaultMint⟩ howner htokens hne hroom, _,
    AList.lookup_insert _, _, ⟨?_, rfl⟩, ?_, rfl⟩
  · omega
  · exact Nat.le_add_right _ _
  · simpa using htokenStake

end ValidatorExitAux

/-- In every run from a state without stakes, a validator that is inactive and has no rewards left withdraws at its unbonding
slot or later, into any token account of its own that has the mint of the vault and room. It gets what unbonds and all lamports
of its account, and its wallet registers again as soon as it has what a registration needs. -/
theorem validator_exit_enabled {s₀ : State} {actions : List Action} (hstart : NothingStaked s₀)
    (hsupply : s₀.lamports.supply < 2 ^ 64) (h : Execution Γ s₀ actions s) {validator : Signer}
    {v : ProgramAccount ValidatorAccount} (hv : s.validators.lookup (.key validator) = some v)
    (hinactive : v.data.isActive = false) (hpending : v.data.pendingRewards = 0) :
    ∃ vault, s.tokens.lookup .stakeTokenVault = some vault ∧
      ∀ (clock : Clock) account source, v.data.unbondingSlot ≤ clock.slot.toNat →
        s.tokens.lookup account = some source → source.mint = vault.mint → source.owner = .key validator →
        source.amount + v.data.tokenUnbondingAmount ≤ Checked.u64Max →
        ∃ s' rest, withdrawUnbondedStake Γ clock s validator account = .ok s' ∧
          s.balance (.validator (.key validator)) = v.data.unbondingAmount + rest ∧
          s'.balance (.key validator) = s.balance (.key validator) + (v.data.unbondingAmount + rest) ∧
          s'.balance (.validator (.key validator)) = 0 ∧ s'.validators.lookup (.key validator) = none ∧
          ∀ (clock' : Clock) account' stake tokenStake registry source' vault',
            CanRegister Γ s' validator account' stake tokenStake registry source' vault' →
            ∃ s'', registerValidator Γ clock' s' validator account' stake tokenStake = .ok s'' := by
  have hready : ValidatorExitAux.Ready Γ s :=
    h.invariant (ValidatorExitAux.ready_start hstart hsupply) fun _ _ _ hs hstep => hs.step hstep
  obtain ⟨vault, hvault⟩ := Option.isSome_iff_exists.mp (hready.vault hv)
  refine ⟨vault, hvault, fun clock account source hslot haccount hmint howner hroom => ?_⟩
  obtain ⟨s', hwithdraw⟩ := ValidatorExitAux.exists_withdraw hready hv hinactive hpending hslot haccount howner hvault hmint hroom
  have hready' : ValidatorExitAux.Ready Γ s' :=
    hready.step (a := .program clock (.withdrawUnbondedStake validator account)) hwithdraw
  obtain ⟨hpaid, hempty, hclosed⟩ := ValidatorExitAux.withdraw_pays hwithdraw
  obtain ⟨rest, hrest⟩ := Nat.exists_eq_add_of_le (ValidatorExitAux.unbonding_le hready hv)
  refine ⟨s', rest, hwithdraw, hrest, ?_, hempty, hclosed, fun clock' account' stake tokenStake registry source' vault' hcan => ?_⟩
  · rw [hpaid, hrest]
  · exact ValidatorExitAux.exists_register hready'.supply hready'.owned hclosed hcan

namespace ValidatorExitAux

def slashedOut : List Action := [ .program ⟨12, 0⟩ (.initializeValidatorRegistry Sample.operator Sample.mint),
  .program ⟨13, 0⟩ (.registerValidator Sample.cosigner Sample.cosignerTokens 3000000000 2000000000000),
  .program ⟨14, 0⟩ (.slashValidator Sample.operator (.key Sample.cosigner) (.key Sample.cosigner) 100)]

/-- The cosigner is out, has nothing left and may withdraw at slot 216014. -/
abbrev Out (s : State) : Prop :=
  ∃ v ∈ s.validators.lookup (.key Sample.cosigner), v.data.isActive = false ∧ v.data.pendingRewards = 0 ∧
    v.data.unbondingAmount = 0 ∧ v.data.tokenUnbondingAmount = 0 ∧ v.data.unbondingSlot ≤ 216014

abbrev Back (s : State) : Prop :=
  ∃ registry ∈ s.validatorRegistry, ∃ source ∈ s.tokens.lookup Sample.cosignerTokens,
    ∃ vault ∈ s.tokens.lookup .stakeTokenVault,
      CanRegister Sample.ctx s Sample.cosigner Sample.cosignerTokens 3000000000 2000000000000 registry source vault

/-- The withdrawal of the cosigner, if it succeeds, leads to a state in which it can register. -/
def backAfter (s : State) : Bool :=
  match withdrawUnbondedStake Sample.ctx ⟨216014, 0⟩ s Sample.cosigner Sample.cosignerTokens with
  | .ok s' => Back s'
  | .error _ => true

end ValidatorExitAux

open ValidatorExitAux

/-- The theorem at a validator that was slashed to nothing: it gets the rent of its account back and registers again. -/
theorem validator_exit_enabled_slashed : ∃ s v s' s'', Execution Sample.ctx Sample.genesis ValidatorExitAux.slashedOut s ∧
      s.validators.lookup (.key Sample.cosigner) = some v ∧ v.data.unbondingAmount = 0 ∧
      withdrawUnbondedStake Sample.ctx ⟨216014, 0⟩ s Sample.cosigner Sample.cosignerTokens = .ok s' ∧
      s'.balance (.key Sample.cosigner) = s.balance (.key Sample.cosigner) + s.balance (.validator (.key Sample.cosigner)) ∧
      registerValidator Sample.ctx ⟨216015, 0⟩ s' Sample.cosigner Sample.cosignerTokens 3000000000 2000000000000 = .ok s'' := by
  have hsucceeds : succeedsWith Sample.ctx Sample.genesis slashedOut (fun s => Out s ∧
        s.tokens.lookup Sample.cosignerTokens = some ⟨Sample.mint, .key Sample.cosigner, 3000000000000⟩ ∧
        (s.tokens.lookup .stakeTokenVault).map (·.mint) = some Sample.mint ∧ backAfter s) = true := by
    decide +kernel
  obtain ⟨s, hrun, hcheck⟩ := exists_execution hsucceeds
  obtain ⟨⟨v, hv, hinactive, hpending, hnothing, hnoTokens, hslot⟩, hsource, hmint, hback⟩ := of_decide_eq_true hcheck
  obtain ⟨vault, hvault, hexit⟩ := validator_exit_enabled nothingStaked_genesis (by decide +kernel) hrun hv
    hinactive hpending
  rw [hvault, Option.map_some, Option.some.injEq] at hmint
  obtain ⟨s', rest, hwithdraw, hrest, hpaid, -, -, hregister⟩ := hexit ⟨216014, 0⟩ _ _ hslot hsource hmint.symm rfl
    (by rw [hnoTokens]; decide)
  rw [backAfter, hwithdraw] at hback
  obtain ⟨registry, -, source, -, vault', -, hcan⟩ := of_decide_eq_true hback
  obtain ⟨s'', hagain⟩ := hregister ⟨216015, 0⟩ _ _ _ _ _ _ hcan
  exact ⟨s, v, s', s'', hrun, hv, hnothing, hwithdraw, by rw [hpaid, hrest], hagain⟩

end Paraloom
