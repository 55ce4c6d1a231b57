import Paraloom.Lemmas.Backing
import Paraloom.Lemmas.Tokens

/-!
# The vault of the token stakes

The tokens that validators stake lie in one vault, and the validator accounts record whose they are. `deactivate_validator`
does not move the token stake into unbonding, so when the account of a deactivated validator is closed its tokens stay in the
vault and no account records them.
-/

namespace Paraloom

open Option

variable {Γ : Ctx} {clock : Clock} {s s' : State}

def Action.paysStakeVault : Action → Bool
  | .tokenTransfer _ _ _ target _ => target = .stakeTokenVault
  | .program _ (.transactSpl _ _ recipient _ _ _) => recipient = .stakeTokenVault
  | _ => false

/-- The token stake of the account that an action closes, which is not paid out with what unbonds. -/
def strandedBy (s : State) : Action → Nat
  | .program _ (.withdrawUnbondedStake validator _) =>
    (s.validators.lookup (.key validator)).elim 0 fun v => v.data.tokenStakeAmount
  | _ => 0

/-- The vault of the token stakes, if it exists, belongs to the program, and its balance fits a token account. -/
def StakeVaultOwned (s : State) : Prop :=
  ∀ a, s.tokens.lookup .stakeTokenVault = some a → a.owner = .stakeVaultAuthority ∧ a.amount ≤ Checked.u64Max

/-- No validator account exists, and the vault of the token stakes is empty or not yet there. -/
structure NothingStaked (s : State) : Prop where
  validators : ∀ w, s.validators.lookup w = none
  owned : StakeVaultOwned s
  empty : s.stakeVaultTokens = 0

namespace TokenStakeAux

variable {a : Action} {v : ProgramAccount ValidatorAccount}

def movesStakedTokens : Action → Bool
  | .program _ (.registerValidator ..) => true
  | .program _ (.withdrawUnbondedStake ..) => true
  | .program _ (.slashValidator ..) => true
  | _ => false

def VaultKept (s s' : State) : Prop := s'.stakeVaultTokens = s.stakeVaultTokens ∧ StakeVaultOwned s'

theorem kept_of_new (hnone : s.tokens.lookup .stakeTokenVault = none)
    (h : s'.tokens = s.tokens.insert .stakeTokenVault ⟨mint, .stakeVaultAuthority, 0⟩) : VaultKept s s' := by
  have hnew : s'.tokens.lookup .stakeTokenVault = some ⟨mint, .stakeVaultAuthority, 0⟩ := by rw [h, AList.lookup_insert]
  refine ⟨by simp [State.stakeVaultTokens, hnew, hnone], fun a ha => ?_⟩
  rw [hnew, some.injEq] at ha
  subst ha
  exact ⟨rfl, Nat.zero_le _⟩

/-- From `s` to `s'` the vault gained `n` tokens more than the accounts record. -/
def Flow (s s' : State) (n : Nat) : Prop :=
  s'.stakeVaultTokens + s.tokenStakeSum = s.stakeVaultTokens + s'.tokenStakeSum + n

def recorded (v : ValidatorAccount) : Nat := v.tokenStakeAmount + v.tokenUnbondingAmount

theorem sum_write (hv : s.validators.lookup w = some v) (hwrite : s'.validators = s.validators.insert w v') :
    s'.tokenStakeSum + recorded v.data = s.tokenStakeSum + recorded v'.data := by
  rw [State.tokenStakeSum, hwrite]
  exact Table.total_insert _ v' hv

theorem recorded_le (hv : s.validators.lookup w = some v) : recorded v.data ≤ s.tokenStakeSum :=
  Table.le_total (fun _ a => a.data.tokenStakeAmount + a.data.tokenUnbondingAmount) hv

section Owned

variable (howned : StakeVaultOwned s)
include howned

theorem kept_of_same (h : s'.tokens.lookup .stakeTokenVault = s.tokens.lookup .stakeTokenVault) : VaultKept s s' := by
  refine ⟨?_, fun a ha => howned a (h ▸ ha)⟩
  rw [State.stakeVaultTokens, h, State.stakeVaultTokens]

theorem not_vault {a : TokenAccount} (ha : s.tokens.lookup account = some a) (hwallet : a.owner = .key wallet) :
    account ≠ .stakeTokenVault := by
  rintro rfl
  have := hwallet.symm.trans (howned a ha).1
  cases this

theorem kept_of_step (h : Step Γ s a s') (hmoves : movesStakedTokens a = false) (hpays : a.paysStakeVault = false) :
    VaultKept s s' := by
  have howner : ∀ b, s.tokens.lookup .stakeTokenVault = some b → b.owner = .stakeVaultAuthority :=
    fun b hb => (howned b hb).1
  cases h.tokenStep with
  | quiet tokens => exact kept_of_same howned (by rw [tokens])
  | openKey tokens | openAssetVault _ tokens =>
    refine kept_of_same howned ?_
    rw [tokens, AList.lookup_insert_ne (by simp)]
  | openStakeVault new tokens => exact kept_of_new new tokens
  | send hpay => exact kept_of_same howned (transferChecked_vault hpay howner (by simp) (of_decide_eq_false hpays))
  | depositSpl h =>
    obtain ⟨_, _, _, _, _, _, _, -, -, -, hpay, -, -, -, -, rfl⟩ := depositNoteSpl_ok h
    exact kept_of_same howned (transferChecked_vault hpay howner (by simp) (by simp))
  | settleSpl h =>
    obtain ⟨_, _, _, -, -, ⟨feeData, hfee, hwallet⟩, hpaid, rfl⟩ := transactSpl_ok h
    have hrecipient := of_decide_eq_false hpays
    exact kept_of_same howned (paySpl_lookup hpaid (by simp) (Ne.symm hrecipient) (Ne.symm (not_vault howned hfee hwallet)))
  | register | withdraw | slash => cases hmoves

/-- A sum of two parts of the vault's balance is not clamped. -/
theorem satAdd_of_owned (h : m + n ≤ s.stakeVaultTokens) : Checked.satAdd m n = m + n := by
  refine Checked.satAdd_eq (h.trans ?_)
  unfold State.stakeVaultTokens
  cases hvault : s.tokens.lookup .stakeTokenVault with
  | none => exact Nat.zero_le _
  | some a => exact (howned a hvault).2

theorem flow_register (hok : registerValidator Γ clock s validator account stake tokenStake = .ok s') :
    StakeVaultOwned s' ∧ Flow s s' 0 := by
  obtain ⟨hnew, -, registry, vault, vaultAfter, _, _, _, tokens, -, -, -, -, htokens, hvault, hafter, hle, hs'⟩ :=
    registerValidator_ok hok
  have hlookup : s'.tokens.lookup .stakeTokenVault = some vaultAfter := by rw [hs']; exact hafter
  have hsum : s'.tokenStakeSum = s.tokenStakeSum + (vaultAfter.amount - vault.amount) := by
    rw [State.tokenStakeSum, hs']
    exact Table.total_insert_new _ _ hnew
  constructor
  · intro a ha
    rw [hlookup, some.injEq] at ha
    subst ha
    obtain ⟨src, dst, hsrc, hdst, -, -, -, -, ⟨-, rfl⟩ | ⟨-, hfits, rfl⟩⟩ := transferChecked_ok htokens
    · exact howned _ hafter
    · rw [AList.lookup_insert, some.injEq] at hafter
      rw [← hafter]
      exact ⟨(howned dst hdst).1, hfits⟩
  · simp only [Flow, State.stakeVaultTokens, hlookup, hvault, elim_some, hsum]
    omega

theorem flow_withdraw {account : Pubkey} (hok : withdrawUnbondedStake Γ clock s validator account = .ok s') :
    StakeVaultOwned s' ∧ Flow s s' (strandedBy s (.program clock (.withdrawUnbondedStake validator account))) := by
  obtain ⟨v, vault, tokenAccount, _, _, tokens, hv, hvault, haccount, howner, -, -, -, -, -, htokens, rfl⟩ :=
    withdrawUnbondedStake_ok hok
  have hne := not_vault howned haccount howner
  have hsum := Table.total_erase (fun _ a => a.data.tokenStakeAmount + a.data.tokenUnbondingAmount) hv
  obtain ⟨hamount, hpaid⟩ := transferAny_out htokens hvault
  rw [if_neg hne] at hpaid
  constructor
  · intro a ha
    rw [hpaid, some.injEq] at ha
    subst ha
    have := howned vault hvault
    exact ⟨this.1, (Nat.sub_le _ _).trans this.2⟩
  · simp only [Flow, State.stakeVaultTokens, hpaid, hvault, elim_some, State.tokenStakeSum, strandedBy, hv]
    omega

theorem gained_of_pays (hstep : Step Γ s a s') (hpays : a.paysStakeVault = true) :
    StakeVaultOwned s' ∧ s.stakeVaultTokens ≤ s'.stakeVaultTokens := by
  have howner : ∀ b, s.tokens.lookup .stakeTokenVault = some b → b.owner = .stakeVaultAuthority :=
    fun b hb => (howned b hb).1
  have hgain : ∀ {b : TokenAccount} {n : Nat}, s.tokens.lookup .stakeTokenVault = some b → b.amount + n ≤ Checked.u64Max →
      s'.tokens.lookup .stakeTokenVault = some { b with amount := b.amount + n } →
      StakeVaultOwned s' ∧ s.stakeVaultTokens ≤ s'.stakeVaultTokens := by
    intro b n hb hfits hafter
    refine ⟨fun c hc => ?_, ?_⟩
    · rw [hafter, some.injEq] at hc
      rw [← hc]
      exact ⟨howner b hb, hfits⟩
    · simp [State.stakeVaultTokens, hb, hafter]
  unfold Action.paysStakeVault at hpays
  split at hpays
  · obtain rfl := of_decide_eq_true hpays
    obtain ⟨_, hpay, rfl⟩ := tokenTransfer_ok hstep
    obtain ⟨b, hb, hfits, hafter⟩ := transferChecked_into hpay howner (by simp)
    exact hgain hb hfits hafter
  · obtain rfl := of_decide_eq_true hpays
    obtain ⟨_, _, _, -, -, ⟨_, hfeeData, hwallet⟩, hpaid, rfl⟩ := transactSpl_ok hstep
    obtain ⟨_, -, ⟨-, rfl⟩ | ⟨-, -, _, hpaid, hfee⟩⟩ := paySpl_ok hpaid
    · exact ⟨howned, Nat.le_refl _⟩
    · obtain ⟨b, hb, hfits, hafter⟩ := transferChecked_into hpaid howner (by simp)
      rw [← transferAny_lookup hfee (by simp) (Ne.symm (not_vault howned hfeeData hwallet))] at hafter
      exact hgain hb hfits hafter
  · cases hpays

variable (hcovered : s.tokenStakeSum ≤ s.stakeVaultTokens)
include hcovered

theorem recorded_slash {registry : ValidatorRegistry} (hpct : pct.toNat ≤ 100) (hv : s.validators.lookup w = some v) :
    recorded (v.data.slash registry.minimumStake pct clock) + slashOf v.data.tokenAtRisk pct = recorded v.data := by
  have hrecorded := recorded_le hv
  have hstake := slashOf_le hpct v.data.tokenStakeAmount
  have hunbonding := slashOf_le hpct v.data.tokenUnbondingAmount
  unfold recorded at hrecorded ⊢
  rcases slash_cases v.data registry pct clock with ⟨hact, -, hp⟩ | ⟨hact, -, -, hp⟩ | ⟨hact, -, hp⟩
  all_goals
    simp only [ValidatorAccount.position, Position.mk.injEq] at hp
    obtain ⟨-, -, -, -, htoken, htokens⟩ := hp
    rw [htoken, htokens, ValidatorAccount.tokenAtRisk, hact]
  · simp only [Bool.false_eq_true, if_false]
    omega
  · simp only [if_true]
    omega
  · rw [satAdd_of_owned howned (by omega)]
    simp only [if_true]
    omega

theorem flow_slash (hok : slashValidator clock s authority wallet validator pct = .ok s') :
    StakeVaultOwned s' ∧ Flow s s' 0 := by
  obtain ⟨v, registry, _, tokens, hv, -, -, hpct, -, htokens, hs'⟩ := slashValidator_ok hok
  have hsum := sum_write hv (show s'.validators = s.validators.insert wallet _ by rw [hs'])
  have hslash : recorded (v.data.slash registry.data.minimumStake pct clock) + slashOf v.data.tokenAtRisk pct =
      recorded v.data := recorded_slash howned hcovered hpct hv
  dsimp only at hsum
  have htokens' : s'.tokens = tokens := by rw [hs']
  unfold burnAny at htokens
  split at htokens
  · obtain ⟨src, hsrc, -, hamount, rfl⟩ := burn_ok htokens
    have hlookup : s'.tokens.lookup .stakeTokenVault =
        some { src with amount := src.amount - slashOf v.data.tokenAtRisk pct } := by rw [htokens', AList.lookup_insert]
    constructor
    · intro a ha
      rw [hlookup, some.injEq] at ha
      subst ha
      have := howned src hsrc
      exact ⟨this.1, (Nat.sub_le _ _).trans this.2⟩
    · simp only [Flow, State.stakeVaultTokens, hlookup, hsrc, elim_some]
      omega
  · rename_i hzero
    rw [Checked.return_ok_iff] at htokens
    obtain ⟨hkept, howned'⟩ := kept_of_same howned (show s'.tokens.lookup .stakeTokenVault = _ by rw [htokens', ← htokens])
    refine ⟨howned', ?_⟩
    simp only [Flow, hkept]
    omega

/-- The actions that move no staked tokens keep the record. -/
theorem sum_kept (hstep : Step Γ s a s') (hmoves : movesStakedTokens a = false) : s'.tokenStakeSum = s.tokenStakeSum := by
  cases hstep.stakeStep with
  | quiet _ hkept => exact hkept.total fun p => p.tokenStakeAmount + p.tokenUnbondingAmount
  | create hok =>
    obtain ⟨-, -, _, _, _, _, _, -, -, -, -, -, rfl⟩ := initializeValidatorRegistry_ok hok
    rfl
  | reset hok =>
    obtain ⟨_, _, _, _, -, -, -, -, -, -, -, rfl⟩ := resetValidatorRegistry_ok hok
    rfl
  | register | withdraw | slash => cases hmoves
  | unregister hok =>
    obtain ⟨v, _, hv, -, -, hs'⟩ := unregisterValidator_ok hok
    have hsum := sum_write hv (show s'.validators = s.validators.insert _ _ by rw [hs'])
    have hle := recorded_le hv
    unfold recorded at hsum hle
    simp only [ValidatorAccount.unbond, satAdd_of_owned howned
      (show v.data.tokenUnbondingAmount + v.data.tokenStakeAmount ≤ s.stakeVaultTokens by omega)] at hsum
    omega
  | deactivate hok =>
    obtain ⟨v, _, hv, -, ⟨-, rfl⟩ | ⟨-, hs'⟩⟩ := deactivateValidator_ok hok
    · rfl
    · have hsum := sum_write hv (show s'.validators = s.validators.insert _ _ by rw [hs'])
      simp only [recorded, ValidatorAccount.deactivate] at hsum
      omega

theorem flow_of_step (hstep : Step Γ s a s') (hpays : a.paysStakeVault = false) :
    StakeVaultOwned s' ∧ Flow s s' (strandedBy s a) := by
  cases hmoves : movesStakedTokens a with
  | true =>
    unfold movesStakedTokens at hmoves
    split at hmoves
    · exact flow_register howned hstep
    · exact flow_withdraw howned hstep
    · exact flow_slash howned hcovered hstep
    · cases hmoves
  | false =>
    obtain ⟨hkept, howned'⟩ := kept_of_step howned hstep hmoves hpays
    have hsum := sum_kept howned hcovered hstep hmoves
    have hzero : strandedBy s a = 0 := by
      unfold strandedBy
      split
      · cases hmoves
      · rfl
    refine ⟨howned', ?_⟩
    simp only [Flow, hkept, hsum, hzero]
    omega

/-- Whatever happens, the vault holds the tokens that the accounts record. -/
theorem covered_of_step (hstep : Step Γ s a s') : StakeVaultOwned s' ∧ s'.tokenStakeSum ≤ s'.stakeVaultTokens := by
  cases hpays : a.paysStakeVault with
  | false =>
    obtain ⟨howned', hflow⟩ := flow_of_step howned hcovered hstep hpays
    unfold Flow at hflow
    exact ⟨howned', by omega⟩
  | true =>
    obtain ⟨howned', hgained⟩ := gained_of_pays howned hstep hpays
    have hmoves : movesStakedTokens a = false := by
      unfold Action.paysStakeVault at hpays
      split at hpays
      · rfl
      · rfl
      · cases hpays
    exact ⟨howned', by rw [sum_kept howned hcovered hstep hmoves]; omega⟩

end Owned

/-- No account of the run was closed with a token stake, one more action at a time. -/
theorem clean_snoc (h : Execution Γ s₀ actions s) :
    (∀ pre b post t, actions ++ [a] = pre ++ b :: post → Execution Γ s₀ pre t → strandedBy t b = 0) ↔
      (∀ pre b post t, actions = pre ++ b :: post → Execution Γ s₀ pre t → strandedBy t b = 0) ∧ strandedBy s a = 0 := by
  constructor
  · intro hclean
    refine ⟨fun pre b post t hsplit ht => hclean pre b (post ++ [a]) t (by simp [hsplit]) ht, ?_⟩
    exact hclean actions a [] s rfl h
  · rintro ⟨hclean, hlast⟩ pre b post t hsplit ht
    rcases List.eq_nil_or_concat post with rfl | ⟨post', c, rfl⟩
    · obtain ⟨rfl, hb⟩ := List.append_inj' hsplit rfl
      rw [List.singleton_inj] at hb
      rw [← hb, ← Execution.functional h ht]
      exact hlast
    · rw [List.concat_eq_append, ← List.cons_append, ← List.append_assoc] at hsplit
      exact hclean pre b post' t (List.append_inj' hsplit rfl).1 ht

theorem run_flow (hstart : NothingStaked s₀) (h : Execution Γ s₀ actions s) (hpays : ∀ a ∈ actions, a.paysStakeVault = false) :
    StakeVaultOwned s ∧ ∃ stranded, s.stakeVaultTokens = s.tokenStakeSum + stranded ∧
      (stranded = 0 ↔
        ∀ pre b post t, actions = pre ++ b :: post → Execution Γ s₀ pre t → strandedBy t b = 0) := by
  revert hpays
  refine h.induction (P := fun as t => (∀ a ∈ as, a.paysStakeVault = false) → StakeVaultOwned t ∧
    ∃ stranded, t.stakeVaultTokens = t.tokenStakeSum + stranded ∧
      (stranded = 0 ↔ ∀ pre b post u, as = pre ++ b :: post → Execution Γ s₀ pre u → strandedBy u b = 0)) ?_ ?_
  · intro _
    have hsum : s₀.tokenStakeSum = 0 := Table.total_eq_zero fun w v hv =>
      absurd ((hstart.validators w).symm.trans hv) (by simp)
    exact ⟨hstart.owned, 0, by rw [hstart.empty, hsum], by simp⟩
  · intro as t a u hrun ih hstep hpays
    obtain ⟨howned, stranded, hvault, hclean⟩ := ih fun b hb => hpays b (List.mem_append_left _ hb)
    obtain ⟨howned', hflow⟩ := flow_of_step howned (by omega) hstep (hpays a (by simp))
    refine ⟨howned', stranded + strandedBy t a, ?_, ?_⟩
    · unfold Flow at hflow
      omega
    · rw [clean_snoc hrun, ← hclean]
      omega

end TokenStakeAux

/-- In every run from a state without stakes in which nobody sends tokens into the vault, the vault holds exactly the tokens
that the validator accounts record, if and only if every account that was closed had no token stake left in it. -/
theorem stake_vault_exact_iff {s₀ : State} {actions : List Action} (hstart : NothingStaked s₀)
    (h : Execution Γ s₀ actions s) (hpays : ∀ a ∈ actions, a.paysStakeVault = false) :
    s.stakeVaultTokens = s.tokenStakeSum ↔
      ∀ pre a post t, actions = pre ++ a :: post → Execution Γ s₀ pre t → strandedBy t a = 0 := by
  obtain ⟨-, stranded, hvault, hclean⟩ := TokenStakeAux.run_flow hstart h hpays
  rw [← hclean]
  omega

namespace TokenStakeAux

def deactivation : List Action := [ .program ⟨12, 0⟩ (.initializeValidatorRegistry Sample.operator Sample.mint),
  .program ⟨13, 0⟩ (.registerValidator Sample.operator Sample.operatorTokens 2000000000 1000000000000),
  .program ⟨14, 0⟩ (.deactivateValidator Sample.operator (.key Sample.operator)),
  .program ⟨216014, 0⟩ (.withdrawUnbondedStake Sample.operator Sample.operatorTokens)]

theorem nothingStaked_genesis : NothingStaked Sample.genesis := by
  have hvault : Sample.genesis.tokens.lookup .stakeTokenVault = none := by decide +kernel
  refine ⟨AList.lookup_empty, fun a ha => absurd (hvault.symm.trans ha) (by simp), ?_⟩
  rw [State.stakeVaultTokens, hvault, elim_none]

end TokenStakeAux

open TokenStakeAux

/-- After a deactivation the closed account leaves its tokens in the vault, with no account that records them. -/
theorem deactivated_token_stake_stranded : NothingStaked Sample.genesis ∧
    (∀ a ∈ TokenStakeAux.deactivation, a.paysStakeVault = false) ∧
    ∃ s, Execution Sample.ctx Sample.genesis TokenStakeAux.deactivation s ∧
      s.stakeVaultTokens = 1000000000000 ∧ s.tokenStakeSum = 0 := by
  have hsucceeds : succeedsWith Sample.ctx Sample.genesis deactivation
      (fun s => s.stakeVaultTokens = 1000000000000 ∧ s.tokenStakeSum = 0) = true := by decide +kernel
  obtain ⟨s, hrun, hcheck⟩ := exists_execution hsucceeds
  exact ⟨nothingStaked_genesis, by decide +kernel, s, hrun, of_decide_eq_true hcheck⟩

/-- The theorem at the sample run, in which a slash burns tokens and the cosigner is paid out. -/
theorem stake_vault_exact_iff_sample : ∃ s,
    Execution Sample.ctx Sample.genesis (Sample.settlement ++ Sample.exits) s ∧ s.stakeVaultTokens = 1000000000000 ∧
      (s.stakeVaultTokens = s.tokenStakeSum ↔
        ∀ pre a post t, Sample.settlement ++ Sample.exits = pre ++ a :: post →
          Execution Sample.ctx Sample.genesis pre t → strandedBy t a = 0) := by
  have hsucceeds : succeedsWith Sample.ctx Sample.genesis (Sample.settlement ++ Sample.exits)
      (fun s => s.stakeVaultTokens = 1000000000000) = true := by decide +kernel
  obtain ⟨s, hrun, hcheck⟩ := exists_execution hsucceeds
  exact ⟨s, hrun, of_decide_eq_true hcheck, stake_vault_exact_iff nothingStaked_genesis hrun (by decide +kernel)⟩

end Paraloom
