import Paraloom.Lemmas.Tokens
import Paraloom.Theorems.NoInflation

/-!
# The vaults of the tokens

Every mint has a vault and an asset of its own. A deposit of a token adds the same amount to the notes of its asset and to the
vault of its mint, and a settlement takes the same amount out of both. Nothing else takes tokens out of the vault.
-/

namespace Paraloom

open LittleEndian

/-- An asset of the pool: native SOL, or the token of a mint. -/
inductive Asset where
  | native
  | token (mint : Pubkey)
  deriving DecidableEq

def Asset.id (Γ : Ctx) : Asset → Result Bytes32
  | .native => pure nativeSolAsset
  | .token mint => mintToAsset Γ mint

def Instruction.asset : Instruction → Option Asset
  | .depositNote .. => some .native
  | .transact .. => some .native
  | .initAssetVault _ mint => some (.token mint)
  | .setAssetDepositCap _ mint _ => some (.token mint)
  | .depositNoteSpl _ mint .. => some (.token mint)
  | .transactSpl _ mint .. => some (.token mint)
  | _ => none

def State.assetVaultTokens (s : State) (mint : Pubkey) : Nat := (s.tokens.lookup (.assetVault mint)).elim 0 (·.amount)

def State.vaultBalance (s : State) : Asset → Nat
  | .native => s.balance .bridgeVault
  | .token mint => s.assetVaultTokens mint

/-- `mint_to_asset` is injective. -/
def MintsApart (Γ : Ctx) : Prop :=
  ∀ m m' asset, mintToAsset Γ m = .ok asset → mintToAsset Γ m' = .ok asset → m = m'

/-- An action that sends tokens into the vault of a mint without a deposit: a transfer from outside, or a settlement of the
mint whose payout names the vault itself. -/
def Action.paysAssetVault (mint : Pubkey) : Action → Bool
  | .tokenTransfer _ _ _ target _ => target = .assetVault mint
  | .program _ (.transactSpl _ m recipient _ _ _) => m = mint ∧ recipient = .assetVault mint
  | _ => false

namespace SplSolvencyAux

open NoInflationAux

variable {s s' : State}
variable {ix : Instruction}

/-! ## The assets of the mints -/

/-- The number that a half of an address holds survives the lift to the field. -/
theorem half_inj (hl : l.length = 16) (hl' : l'.length = 16) (h : fromLeBytesModOrder (vec 32 (toNat l)) =
      fromLeBytesModOrder (vec 32 (toNat l'))) : toNat l = toNat l' := by
  have hlt : ∀ {k : List UInt8}, k.length = 16 → toNat k < 256 ^ 16 := fun {k} hk => hk ▸ toNat_lt k
  rw [lift_vec ((hlt hl).trans (by decide)), lift_vec ((hlt hl').trans (by decide))] at h
  exact natCast_fr_inj ((hlt hl).trans (by decide)) ((hlt hl').trans (by decide)) h

theorem toBytes_eq_of_lift (ideal : Ideal Γ Hash) (h : mintToAsset Γ m = .ok x) (h' : mintToAsset Γ m' = .ok x')
    (hlift : fromLeBytesModOrder x = fromLeBytesModOrder x') : Γ.toBytes m = Γ.toBytes m' := by
  have hhash := hashv_ok ideal h
  have hhash' := hashv_ok ideal h'
  rw [← hlift] at hhash'
  have hinputs := ideal.hash.injective hhash hhash' (by simp)
  simp only [List.map_cons, List.map_nil, List.cons.injEq, and_true] at hinputs
  have hlo := toNat_inj (by simp) (half_inj (by simp) (by simp) hinputs.1)
  have hhi := toNat_inj (by simp) (half_inj (by simp) (by simp) hinputs.2)
  apply Subtype.ext
  rw [← List.take_append_drop 16 (Γ.toBytes m).val, hlo, hhi, List.take_append_drop]

theorem mint_eq_of_lift (ideal : Ideal Γ Hash) (hmints : MintsApart Γ) (h : mintToAsset Γ m = .ok x)
    (h' : mintToAsset Γ m' = .ok x') (hlift : fromLeBytesModOrder x = fromLeBytesModOrder x') : m = m' := by
  have heq : mintToAsset Γ m = mintToAsset Γ m' := by
    simp only [mintToAsset]
    rw [toBytes_eq_of_lift ideal h h' hlift]
  exact hmints m m' x' (heq.trans h') h'

theorem lift_id_eq_iff (ideal : Ideal Γ Hash) (hmints : MintsApart Γ) {b c : Asset} (hb : b.id Γ = .ok x)
    (hc : c.id Γ = .ok y) :
    fromLeBytesModOrder x = fromLeBytesModOrder y ↔ b = c := by
  constructor
  · intro hlift
    cases b with
    | native =>
      cases c with
      | native => rfl
      | token m =>
        cases hb
        exact absurd (hlift.symm.trans lift_zero32) (mintToAsset_ne ideal hc)
    | token m =>
      cases c with
      | native =>
        cases hc
        exact absurd (hlift.trans lift_zero32) (mintToAsset_ne ideal hb)
      | token m' => rw [mint_eq_of_lift ideal hmints hb hc hlift]
  · rintro rfl
    rw [Except.ok.inj (hb.symm.trans hc)]

/-! ## The notes -/

def touchesNotes : Action → Bool
  | .program _ (.depositNote ..) => true
  | .program _ (.transact ..) => true
  | .program _ (.depositNoteSpl ..) => true
  | .program _ (.transactSpl ..) => true
  | _ => false

def flow (b : Asset) : Action → Int
  | .program _ (.depositNote _ amount _ _) => if .native = b then amount.toNat else 0
  | .program _ (.transact _ _ _ args) => if .native = b then args.extAmount.toInt else 0
  | .program _ (.depositNoteSpl _ mint _ amount _ _) => if .token mint = b then amount.toNat else 0
  | .program _ (.transactSpl _ mint _ _ _ args) => if .token mint = b then args.extAmount.toInt else 0
  | _ => 0

theorem flow_of_quiet (hquiet : touchesNotes a = false) : flow b a = 0 := by
  unfold flow
  split
  · cases hquiet
  · cases hquiet
  · cases hquiet
  · cases hquiet
  · rfl

/-- The other actions leave the pool alone. -/
theorem pool_of_quiet (h : Step Γ s a s') (hquiet : touchesNotes a = false) : s'.pool = s.pool := by
  cases h.noteStep with
  | quiet _ notes | plant _ notes => exact pool_kept notes
  | deposit | depositSpl | settle | settleSpl => cases hquiet

section Notes

variable (ideal : Ideal Γ Hash) (hmints : MintsApart Γ) (hs : Sound Γ Hash s) {b c : Asset}
  (hb : b.id Γ = .ok x)

include ideal hmints hs hb

theorem outstanding_deposit {amount : UInt64} (hc : c.id Γ = .ok asset)
    (hleaf : commitment Γ amount pubkey blinding asset = .ok leaf) (hleaves : s'.leaves = s.leaves ++ [leaf])
    (hnull : s'.nullifiers = s.nullifiers) :
    (s'.pool.outstanding Hash (fromLeBytesModOrder x) : Int) =
      s.pool.outstanding Hash (fromLeBytesModOrder x) + if c = b then (amount.toNat : Int) else 0 := by
  rw [pool_append hleaves hnull, Pool.outstanding_append ideal.hash _ hs.pool (holds_of_commitment ideal hleaf)]
  simp only [lift_id_eq_iff ideal hmints hc hb]
  push_cast
  rfl

theorem outstanding_settle {authority : Signer} (h : SettleOk Γ s authority recipient (c.id Γ) args st)
    (hleaves : s'.leaves = s.leaves ++ [args.outCommitment0, args.outCommitment1]) (hnull : s'.nullifiers = st.nullifiers) :
    (s'.pool.outstanding Hash (fromLeBytesModOrder x) : Int) =
      s.pool.outstanding Hash (fromLeBytesModOrder x) + if c = b then args.extAmount.toInt else 0 := by
  obtain ⟨-, asset, hc, houtstanding⟩ := settle_outstanding ideal hs h hleaves hnull
  rw [houtstanding]
  simp only [lift_id_eq_iff ideal hmints hc hb]

theorem outstanding_of_step (h : Step Γ s a s') : (s'.pool.outstanding Hash (fromLeBytesModOrder x) : Int) =
      s.pool.outstanding Hash (fromLeBytesModOrder x) + flow b a := by
  cases hquiet : touchesNotes a with
  | false => rw [pool_of_quiet h hquiet, flow_of_quiet hquiet, add_zero]
  | true =>
    unfold touchesNotes at hquiet
    split at hquiet
    · obtain ⟨_, _, _, _, _, _, _, -, -, -, -, -, hleaf, -, hs'⟩ := depositNote_ok h
      exact outstanding_deposit ideal hmints hs hb (c := .native) rfl hleaf (by rw [hs']; exact State.leaves_append)
        (by rw [hs'])
    · obtain ⟨-, _, _, hst, -, _, hs'⟩ := transact_ok h
      exact outstanding_settle ideal hmints hs hb (c := .native) hst (by rw [hs']; exact State.leaves_append) (by rw [hs'])
    · obtain ⟨_, _, _, _, _, _, _, -, -, -, -, -, hasset, hleaf, -, hs'⟩ := depositNoteSpl_ok h
      exact outstanding_deposit ideal hmints hs hb (c := .token _) hasset hleaf (by rw [hs']; exact State.leaves_append)
        (by rw [hs'])
    · obtain ⟨_, _, _, hst, -, -, -, hs'⟩ := transactSpl_ok h
      exact outstanding_settle ideal hmints hs hb (c := .token _) hst (by rw [hs']; exact State.leaves_append) (by rw [hs'])
    · cases hquiet

end Notes

/-! ## The vaults -/

/-- A vault holds tokens of its mint and belongs to the program. -/
def VaultsOwned (s : State) : Prop :=
  ∀ m vault, s.tokens.lookup (.assetVault m) = some vault → vault.mint = m ∧ vault.owner = .assetVaultAuthority

/-- From `s` to `s'` the vault of a mint gained `n` tokens, and more than that only if somebody paid into it. -/
structure VaultStep (s s' : State) (mint : Pubkey) (n : Int) (pays : Bool) : Prop where
  owned : ∀ vault, s'.tokens.lookup (.assetVault mint) = some vault → vault.mint = mint ∧ vault.owner = .assetVaultAuthority
  gains : s.assetVaultTokens mint + n ≤ s'.assetVaultTokens mint
  exact : pays = false → (s'.assetVaultTokens mint : Int) = s.assetVaultTokens mint + n

section Vaults

variable (howned : VaultsOwned s) {n : Int}

include howned

theorem vaultStep_of_same (h : s'.tokens.lookup (.assetVault mint) = s.tokens.lookup (.assetVault mint)) :
    VaultStep s s' mint 0 pays := by
  have heq : s'.assetVaultTokens mint = s.assetVaultTokens mint := by
    rw [State.assetVaultTokens, h, State.assetVaultTokens]
  exact ⟨fun vault hvault => howned mint vault (h ▸ hvault), by omega, fun _ => by omega⟩

theorem vaultStep_of_amount (hvault : s.tokens.lookup (.assetVault mint) = some vault)
    (h : s'.tokens.lookup (.assetVault mint) = some { vault with amount := amount }) (hle : vault.amount + n ≤ amount)
    (heq : pays = false → (amount : Int) = vault.amount + n) : VaultStep s s' mint n pays := by
  refine ⟨fun after hafter => ?_, ?_, ?_⟩
  · rw [h, Option.some.injEq] at hafter
    rw [← hafter]
    exact howned mint vault hvault
  · simpa [State.assetVaultTokens, hvault, h] using hle
  · simpa [State.assetVaultTokens, hvault, h] using heq

theorem ne_vault (hdata : s.tokens.lookup account = some data) (hwallet : data.owner = .key wallet) :
    .assetVault mint ≠ account := by
  rintro rfl
  have := hwallet.symm.trans (howned mint data hdata).2
  cases this

theorem vaultStep_openAssetVault (hnew : s.tokens.lookup (.assetVault m) = none)
    (htokens : s'.tokens = s.tokens.insert (.assetVault m) ⟨m, .assetVaultAuthority, 0⟩) : VaultStep s s' mint 0 pays := by
  by_cases hm : mint = m
  · subst hm
    have hlookup : s'.tokens.lookup (.assetVault mint) = some ⟨mint, .assetVaultAuthority, 0⟩ := by
      rw [htokens, AList.lookup_insert]
    refine ⟨fun vault hvault => ?_, ?_, fun _ => ?_⟩
    · rw [hlookup, Option.some.injEq] at hvault
      rw [← hvault]
      exact ⟨rfl, rfl⟩
    · simp [State.assetVaultTokens, hnew, hlookup]
    · simp [State.assetVaultTokens, hnew, hlookup]
  · refine vaultStep_of_same howned ?_
    rw [htokens, AList.lookup_insert_ne (by simpa using hm)]

theorem vaultStep_send (h : transferChecked Γ s.tokens m source target (.key owner) amount = .ok s'.tokens) :
    VaultStep s s' mint 0 (decide (target = .assetVault mint)) := by
  have howner := fun vault hvault => (howned mint vault hvault).2
  by_cases htarget : target = .assetVault mint
  · subst htarget
    obtain ⟨vault, hvault, -, hafter⟩ := transferChecked_into h howner (by simp)
    exact vaultStep_of_amount howned hvault hafter (by omega) (fun hpays => by simp at hpays)
  · exact vaultStep_of_same howned (transferChecked_vault h howner (by simp) htarget)

theorem vaultStep_deposit (h : depositNoteSpl Γ clock s depositor m account amount pubkey blinding = .ok s') :
    VaultStep s s' mint (if Asset.token m = .token mint then (amount.toNat : Int) else 0) pays := by
  obtain ⟨_, tokens, _, _, _, _, _, -, -, -, hpay, ⟨vault, after, hvault, hafter, hreceived⟩, -, -, -, hs'⟩ := depositNoteSpl_ok h
  have htokens : s'.tokens = tokens := by rw [hs']
  rw [← htokens] at hpay hafter
  by_cases hm : m = mint
  · subst hm
    rw [if_pos rfl]
    obtain ⟨_, hbefore, -, hlookup⟩ := transferChecked_into hpay (fun _ hb => (howned m _ hb).2) (by simp)
    obtain rfl : vault = _ := Option.some.inj (hvault.symm.trans hbefore)
    obtain rfl : after = _ := Option.some.inj (hafter.symm.trans hlookup)
    dsimp only at hreceived
    exact vaultStep_of_amount howned hvault hafter (by omega) (fun _ => by omega)
  · rw [if_neg (by simpa using hm)]
    exact vaultStep_of_same howned (transferChecked_vault hpay (fun _ hb => (howned mint _ hb).2) (by simp) (by simpa using hm))

theorem vaultStep_settle (h : transactSpl Γ clock s authority m recipient feeAccount quorum args = .ok s') :
    VaultStep s s' mint (if Asset.token m = .token mint then args.extAmount.toInt else 0)
      (decide (m = mint ∧ recipient = .assetVault mint)) := by
  obtain ⟨_, _, _, hst, ⟨payee, hpayee, hpayeeMint⟩, ⟨feeData, hfee, hwallet⟩, hpaid, rfl⟩ := transactSpl_ok h
  have hfeeNe : ∀ k, .assetVault k ≠ feeAccount := fun _ => ne_vault howned hfee hwallet
  have hnonpos := hst.extAmount_nonpos
  by_cases hm : m = mint
  · subst hm
    rw [if_pos rfl]
    obtain ⟨vault, left, hvault, hafter, hle, heq⟩ := paySpl_vault hpaid hnonpos (Ne.symm (hfeeNe m))
    refine vaultStep_of_amount howned hvault hafter (by omega) (fun hpays => ?_)
    have hleft := heq (by simpa using hpays)
    omega
  · rw [if_neg (by simpa using hm)]
    -- the recipient holds tokens of the settled mint, so it is not the vault of another
    have hrecipient : .assetVault mint ≠ recipient := by
      rintro rfl
      exact hm (hpayeeMint.symm.trans (howned mint payee hpayee).1)
    exact vaultStep_of_same howned (paySpl_lookup hpaid (by simpa using Ne.symm hm) hrecipient (hfeeNe mint))

theorem vault_of_step (mint : Pubkey) (h : Step Γ s a s') :
    VaultStep s s' mint (flow (.token mint) a) (a.paysAssetVault mint) := by
  cases hquiet : touchesNotes a with
  | true =>
    unfold touchesNotes at hquiet
    split at hquiet
    · obtain ⟨_, _, _, _, _, _, _, -, -, -, -, -, -, -, rfl⟩ := depositNote_ok h
      exact vaultStep_of_same howned rfl
    · obtain ⟨-, _, _, -, -, _, rfl⟩ := transact_ok h
      exact vaultStep_of_same howned rfl
    · exact vaultStep_deposit howned h
    · exact vaultStep_settle howned h
    · cases hquiet
  | false =>
    rw [flow_of_quiet hquiet]
    cases h.tokenStep with
    | quiet tokens => exact vaultStep_of_same howned (by rw [tokens])
    | openKey tokens | openStakeVault _ tokens =>
      refine vaultStep_of_same howned ?_
      rw [tokens, AList.lookup_insert_ne (by simp)]
    | openAssetVault hnew tokens => exact vaultStep_openAssetVault howned hnew tokens
    | send h => exact vaultStep_send howned h
    | depositSpl => cases hquiet
    | settleSpl => cases hquiet
    | register h =>
      obtain ⟨-, -, _, _, _, _, _, _, _, -, -, -, -, hpay, -, -, -, rfl⟩ := registerValidator_ok h
      exact vaultStep_of_same howned (transferChecked_vault hpay (fun _ hb => (howned mint _ hb).2) (by simp) (by simp))
    | withdraw h =>
      obtain ⟨_, _, _, _, _, _, -, -, hdata, hwallet, -, -, -, -, -, hpay, rfl⟩ := withdrawUnbondedStake_ok h
      exact vaultStep_of_same howned (transferAny_lookup hpay (by simp) (ne_vault howned hdata hwallet))
    | slash h =>
      obtain ⟨_, _, _, _, -, -, -, -, -, hburn, rfl⟩ := slashValidator_ok h
      exact vaultStep_of_same howned (burnAny_lookup hburn (by simp))

end Vaults

/-! ## Runs -/

/-- What holds of the accounts at every point of a run. -/
structure Covered (Γ : Ctx) (Hash : HashRel) (s : State) : Prop where
  sound : Sound Γ Hash s
  owned : VaultsOwned s

theorem Covered.step (ideal : Ideal Γ Hash) (hs : Covered Γ Hash s) (h : Step Γ s a s') : Covered Γ Hash s' :=
  ⟨hs.sound.step ideal h, fun mint => (vault_of_step hs.owned mint h).owned⟩

theorem covered_genesis
    (hvaults : ∀ m, tokens.lookup (.assetVault m) = none) : Covered Γ Hash (.genesis programData tokens lamports) :=
  ⟨sound_genesis, fun m vault hvault => absurd ((hvaults m).symm.trans hvault) (by simp)⟩

theorem outstanding_genesis : (State.genesis programData tokens lamports).pool.outstanding Hash x = 0 := by
  simp [State.pool, State.leaves, State.genesis, Pool.outstanding]

theorem covered_of_run (ideal : Ideal Γ Hash) (hvaults : ∀ m, tokens.lookup (.assetVault m) = none)
    (h : Execution Γ (.genesis programData tokens lamports) actions s) : Covered Γ Hash s :=
  h.invariant (covered_genesis hvaults) (fun _ _ _ hs hstep => hs.step ideal hstep)

theorem run_covered (ideal : Ideal Γ Hash) (hmints : MintsApart Γ) (hvaults : ∀ m, tokens.lookup (.assetVault m) = none)
    (h : Execution Γ (.genesis programData tokens lamports) actions s) (hasset : mintToAsset Γ mint = .ok asset) :
    s.pool.outstanding Hash (fromLeBytesModOrder asset) ≤ s.assetVaultTokens mint ∧
      ((∀ a ∈ actions, a.paysAssetVault mint = false) →
        s.pool.outstanding Hash (fromLeBytesModOrder asset) = s.assetVaultTokens mint) := by
  refine h.induction (P := fun as t => t.pool.outstanding Hash (fromLeBytesModOrder asset) ≤ t.assetVaultTokens mint ∧
    ((∀ a ∈ as, a.paysAssetVault mint = false) →
      t.pool.outstanding Hash (fromLeBytesModOrder asset) = t.assetVaultTokens mint)) ?_ ?_
  · have hempty : (State.genesis programData tokens lamports).assetVaultTokens mint = 0 := by
      simp [State.assetVaultTokens, State.genesis, hvaults mint]
    rw [outstanding_genesis, hempty]
    exact ⟨Nat.le_refl _, fun _ => rfl⟩
  · rintro as t a u hrun ⟨hle, heq⟩ hstep
    have hcovered := covered_of_run ideal hvaults hrun
    have hnotes := outstanding_of_step ideal hmints hcovered.sound (b := .token mint) hasset hstep
    have hvault := vault_of_step hcovered.owned mint hstep
    have hgains := hvault.gains
    refine ⟨by omega, fun hpays => ?_⟩
    have hbefore := heq fun b hb => hpays b (List.mem_append_left _ hb)
    have hexact := hvault.exact (hpays a (by simp))
    omega

/-! ## Isolation -/

/-- An instruction on one asset adds nothing to the notes of another. -/
theorem flow_of_ne (hix : ix.asset = some b) (hne : c ≠ b) : flow c (.program clock ix) = 0 := by
  cases ix <;> first | rfl | (obtain rfl := Option.some.inj hix; exact if_neg (Ne.symm hne))

theorem not_paysAssetVault (hix : ix.asset = some b) (hne : .token mint ≠ b) :
    (Action.program clock ix).paysAssetVault mint = false := by
  cases ix with
  | transactSpl _ m =>
    obtain rfl := Option.some.inj hix
    have hm : m ≠ mint := fun heq => hne (by rw [heq])
    simp [Action.paysAssetVault, hm]
  | _ => rfl

theorem bridgeVault_of_token (hix : ix.asset = some (.token m)) (h : ix.exec Γ clock s = .ok s') :
    s'.balance .bridgeVault = s.balance .bridgeVault := by
  cases ix with
  | initAssetVault | setAssetDepositCap => exact (Instruction.housekept h rfl).bridgeVault
  | depositNoteSpl =>
    obtain ⟨_, _, _, _, _, _, _, -, -, -, -, -, -, -, -, rfl⟩ := depositNoteSpl_ok h
    rfl
  | transactSpl =>
    obtain ⟨_, _, _, hst, -, -, -, rfl⟩ := transactSpl_ok h
    obtain ⟨_, _, _, hpay0, hpay1⟩ := hst.lamports
    exact (hpay1.balance_of_ne (by simp) (by simp)).trans (hpay0.balance_of_ne (by simp) (by simp))
  | _ => cases hix

/-- An instruction on one asset changes neither the notes nor the vault of another. -/
theorem isolated (ideal : Ideal Γ Hash) (hmints : MintsApart Γ) (hs : Covered Γ Hash s) (hix : ix.asset = some b)
    (h : Step Γ s (.program clock ix) s') (hne : c ≠ b) (hc : c.id Γ = .ok x) :
    s'.pool.outstanding Hash (fromLeBytesModOrder x) = s.pool.outstanding Hash (fromLeBytesModOrder x) ∧
      s'.vaultBalance c = s.vaultBalance c := by
  have hflow : flow c (.program clock ix) = 0 := flow_of_ne hix hne
  have hnotes := outstanding_of_step ideal hmints hs.sound hc h
  refine ⟨by omega, ?_⟩
  cases c with
  | native =>
    cases b with
    | native => exact absurd rfl hne
    | token m => exact bridgeVault_of_token hix h
  | token mint =>
    have hexact := (vault_of_step hs.owned mint h).exact (not_paysAssetVault hix hne)
    rw [hflow, add_zero] at hexact
    exact_mod_cast hexact

end SplSolvencyAux

open SplSolvencyAux

/-- Over every run from genesis the vault of each mint covers the notes of its asset with unrevealed nullifiers, exactly if
nothing but deposits was sent into it. An instruction on one asset, native or token, leaves the notes and the vault of every
other asset as they were. -/
theorem asset_vaults_solvent {Γ : Ctx} {Hash : HashRel} (ideal : Ideal Γ Hash) (hmints : MintsApart Γ)
    {programData : RawAccount} {tokens : Table Pubkey TokenAccount} {lamports : Ledger Pubkey} {actions : List Action}
    {s : State} (hvaults : ∀ m, tokens.lookup (.assetVault m) = none)
    (h : Execution Γ (.genesis programData tokens lamports) actions s) :
    (∀ mint asset, mintToAsset Γ mint = .ok asset →
      s.pool.outstanding Hash (fromLeBytesModOrder asset) ≤ s.assetVaultTokens mint ∧
      ((∀ a ∈ actions, a.paysAssetVault mint = false) →
        s.pool.outstanding Hash (fromLeBytesModOrder asset) = s.assetVaultTokens mint)) ∧
    ∀ clock ix s' b c x, ix.asset = some b → Step Γ s (.program clock ix) s' → c ≠ b → c.id Γ = .ok x →
      s'.pool.outstanding Hash (fromLeBytesModOrder x) = s.pool.outstanding Hash (fromLeBytesModOrder x) ∧
        s'.vaultBalance c = s.vaultBalance c := by
  refine ⟨fun mint asset hasset => run_covered ideal hmints hvaults h hasset, ?_⟩
  intro clock ix s' b c x hix hstep hne hc
  exact isolated ideal hmints (covered_of_run ideal hvaults h) hix hstep hne hc

/-! ## A deposit of a token

The hash is the table of the evaluations that the deposit makes, with the outputs the syscall has on these inputs. -/

namespace Sample

def mintAsset : Fr :=
  0x27d57eaafc1200a277a65b85017c63908162ad80d83a5332d643979598944d9f

def tokenLeaf : Fr :=
  0x24c917aebaca90c08be6e7206374ee1b73163078e2d9ca5172e149e609e112f1

/-- The nodes above it; the last one is the root. -/
def tokenPath : List Fr := [ 0x2be906a242401a7e4415901212a63b6a5692385ec65ead41ef419b350a4857f,
  0x26fa904a8f3ba7f7be147be77be78316af695243d1a00fdc77aaf0424fa159c8,
  0x262aa77fd5d1c0ee042a26c76ee7c1af21bdab1e33d23924816299d43fff8795,
  0x21fa109adb61ebe861bc23dc225d4558ecdcb495b9cf7a800903281fddb0b937,
  0x71f11cab6476cd1d47b2df6461a23f0607fcdd317a0bdcd6da93c84b4654394,
  0x22cf7aae0e55bd2228830e3ab39da9cd8f6105d8dff3786dace32047ec157c0d,
  0x54f14f3841b789e3567695382cc66dd70524f876f600be8b7dfafa13b1fb26a,
  0x15a0aea0e674152ac12f0507a5a37226982de92f9cf00000faa945e508b1f5d,
  0x2195241576dd6fab73ffb84197078da1d80b93fd1c6c8d8a2e0d775e96c7138,
  0xfa8814800184db102c1eb86dc64a1d05eea792df3e061781106566cb5c5b784,
  0x25fef921ca28ae51a70f00f2ab28fadbb178b9cf2bdab56f7b67fa6e5fae8834,
  0x18be7b0768b63c337b177fdfc49868d5805d9dbe4232a8b5a005a8b5315d66d8,
  0x2de446115e1874a8a09d443b49d87bff5e18e2c36ecdde6d06c433feaa393778,
  0x1d1c36151314136f4e6b96f26c66f2947186bc54ac7c544e80f07f5af5ef1a2,
  0x2c506de667262624011a752f9d020b45650c1fa2f6415a7b14cb2debaaffb147,
  0x20a29103a0414d1d55c1fd798e082b99e25d0d5df7584be78f9fdb94c7ea1c7,
  0x20b8eae5218f5e2d44c8a8204d87efafeeec8c65e256f14ccae64978b25b46b2,
  0x17607e7ef527074507072179adc2b79dec34c10f657380a0bc7cf0258c80a596,
  0x195b6a340d643186fef9a8c040604e662a5ab8b15ad5d31b03bf00b966e94894,
  0x22f5b5decc2a111cbad5b6e8663b4f13e9d83c81bc48199d6a9fccf040272543,
  0xadbd58b1aeacf7e116d924cd86c2f7efc02660edc0f9fed0d47e66b13966980,
  0x7d836ca3553e32ceea54f05d46cce931ced5fa9ba75ecc526b0ceb6c1e53c36,
  0x272d2bd241ecf4cd90ee86889d4abe1cad9eee18b4d61ca8b613c0d69899e0ee,
  0x176daf479226fe48fe6a019b697c48c515fb123f08dd97587311a2225bc35f43,
  0x182febdec2ba359f7e6ea1654153ebba350454fa3d51b0e9dca5e0ce67a1f20c,
  0x26d826c56e22d011d9f496fc5cdab198205f2a7c961ff483182fac20d527842d,
  0x2a2c755807a7332b23743f42d3eedad6255c5aea80c72f751297b4b715eb2505,
  0x1f248b4ecf5aae6ee7e02dddd2bc8b2933fcdd8237099a80a7d8173b88a3a21a,
  0x13ee0c71be85ad363bdb366bda3ecfa75d6ad2e46529aa8ec11ab4ddb2776cb2,
  0x1e876d34f118682b63d7aa530ee2102c68badf53750a97c984feca67ff1cff6f,
  0x26645d8f9b12bd0a6d9f88c2f2475f7ae918f3db3269a4c3859d4970af1af91e,
  0x2d63ed5f444b1720fdc684c3e8e73053e162521b62161b569f925242d81be680]

/-- The empty subtrees, the asset, the note and the nodes above it. -/
def tokenEvaluations : List (List Fr × Fr) :=
  (List.range treeDepth).map (fun k =>
    (List.replicate 2 (fromLeBytesModOrder (zeroHash k)), fromLeBytesModOrder (zeroHash (k + 1)))) ++
  [([9, 0], mintAsset), ([1000000, ownerKey, 4, mintAsset], tokenLeaf)] ++ spine tokenLeaf 0 tokenPath

abbrev tokenHash : HashRel := .ofTable tokenEvaluations

/-- No proof is checked in this run. -/
def tokenCtx : Ctx := { ctx with
  solPoseidon := fun xs => (tokenEvaluations.lookup (xs.map fromLeBytesModOrder)).map toBytesLe
  groth16 := fun _ _ _ _ => false
  pdaBytes := fun _ => word (2 ^ 256 - 1) }

def tokenDeposit : List Action := [ .program ⟨10, 0⟩ (.initializeBridge operator 1 zero32),
  .program ⟨11, 0⟩ (.initializeMerkleTree operator),
  .program ⟨12, 0⟩ (.initAssetVault operator mint),
  .program ⟨13, 0⟩ (.setAssetDepositCap operator mint 5000000),
  .program ⟨14, 0⟩ (.depositNoteSpl operator mint operatorTokens 1000000 (toBytesLe ownerKey) (word 4))]

theorem tokenCtx_ideal : Ideal tokenCtx tokenHash := by
  refine ⟨HashRel.ofTable_ideal (by decide +kernel) (by decide +kernel), fun h => ?_, by decide +kernel, fun h => by cases h⟩
  obtain ⟨y, hy, rfl⟩ := Option.map_eq_some_iff.mp h
  rwa [fromLeBytesModOrder_toBytesLe]

/-- The hash is not defined on a program-derived address, so the mints that have an asset are keys. -/
theorem key_of_mintToAsset (h : mintToAsset tokenCtx m = .ok x) : ∃ b, m = .key b := by
  have hpda : mintToAsset tokenCtx .bridgeState ≠ .ok x := by
    have hfails : (mintToAsset tokenCtx .bridgeState).toOption = none := by decide +kernel
    intro hok
    simp [hok, Except.toOption] at hfails
  cases m with
  | key b => exact ⟨b, rfl⟩
  | _ => exact absurd h hpda

theorem tokenCtx_mintsApart : MintsApart tokenCtx := by
  intro m m' asset h h'
  obtain ⟨b, rfl⟩ := key_of_mintToAsset h
  obtain ⟨b', rfl⟩ := key_of_mintToAsset h'
  exact congrArg Pubkey.key (toBytes_eq_of_lift tokenCtx_ideal h h' rfl)

end Sample

/-- After the deposit the vault of the mint holds the tokens, and the notes of its asset are worth as many. -/
theorem asset_vaults_solvent_deposit : ∃ s asset, Execution Sample.tokenCtx Sample.genesis Sample.tokenDeposit s ∧
    mintToAsset Sample.tokenCtx Sample.mint = .ok asset ∧ s.assetVaultTokens Sample.mint = 1000000 ∧
      s.pool.outstanding Sample.tokenHash (fromLeBytesModOrder asset) = 1000000 := by
  have hsucceeds : succeedsWith Sample.tokenCtx Sample.genesis Sample.tokenDeposit
      (fun s => s.assetVaultTokens Sample.mint = 1000000) = true := by decide +kernel
  obtain ⟨s, hrun, hcheck⟩ := exists_execution hsucceeds
  have hvault : s.assetVaultTokens Sample.mint = 1000000 := of_decide_eq_true hcheck
  have hasset : mintToAsset Sample.tokenCtx Sample.mint = .ok (toBytesLe Sample.mintAsset) := by decide +kernel
  have hsolvent := (asset_vaults_solvent Sample.tokenCtx_ideal Sample.tokenCtx_mintsApart (fun m => rfl) hrun).1 _ _ hasset
  exact ⟨s, _, hrun, hasset, hvault, by rw [hsolvent.2 (by decide +kernel), hvault]⟩

end Paraloom
