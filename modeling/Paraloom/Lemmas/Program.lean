import Paraloom.Program.Exec

/-!
# What a successful instruction did

One lemma per instruction: from its success, the accounts it loaded, the checks it passed and the state it left. Everything
that is proved about steps of the chain goes through these lemmas.
-/

namespace Paraloom

open Checked

variable {quorum : List AccountMeta}

/-! ## Lamports and tokens -/

theorem transferLamports_moved (h : transferLamports l a b n = .ok l') : l.Moved a b n l' :=
  Ledger.move_moved (transferLamports_ok_iff.mp h)

theorem moveLamports_moved (h : moveLamports l a b n = .ok l') : l.Moved a b n l' :=
  Ledger.move_moved (moveLamports_ok_iff.mp h)

theorem topUp_moved (h : topUp l payer address due = .ok l') : l.Moved payer address due l' := by
  unfold topUp at h
  split at h
  · rename_i hdue
    rw [return_ok_iff] at h
    subst h hdue
    exact Ledger.Moved.refl l payer address
  · exact transferLamports_moved h

/-- An `init` finds no account and leaves its address with the rent of the account. -/
theorem initAccount_ok (h : initAccount Γ l e payer address space = .ok l') :
    e = false ∧ ∃ due, l.Moved payer address due l' ∧ Γ.minimumBalance space ≤ l.balance address + due := by
  obtain ⟨he, hpay⟩ := initAccount_ok_iff.mp h
  refine ⟨he, _, topUp_moved hpay, ?_⟩
  unfold rentDue
  split <;> omega

/-- A successful `transfer_checked`: the authority owns the source, and either the transfer is from an account to itself or
the source loses the amount and the target gains what is left of it after the fee. -/
theorem transferChecked_ok {authority : Pubkey} {amount : Nat}
    (h : transferChecked Γ tokens mint source target authority amount = .ok tokens') :
    ∃ src dst, tokens.lookup source = some src ∧ tokens.lookup target = some dst ∧ src.mint = mint ∧ dst.mint = mint ∧
      src.owner = authority ∧ amount ≤ src.amount ∧
      ((source = target ∧ tokens' = tokens) ∨
        (source ≠ target ∧ dst.amount + (amount - Γ.transferFee mint amount) ≤ u64Max ∧
          tokens' = (tokens.insert source { src with amount := src.amount - amount }).insert target
            { dst with amount := dst.amount + (amount - Γ.transferFee mint amount) })) := by
  simp only [transferChecked, Checked.seq_ok_iff, Checked.okOr_ok_iff, Checked.require_ok_iff, exists_const] at h
  obtain ⟨src, hsrc, dst, hdst, ⟨hsm, hdm, howner, hamount⟩, h⟩ := h
  refine ⟨src, dst, hsrc, hdst, hsm, hdm, howner, hamount, ?_⟩
  split at h
  · rename_i heq
    exact .inl ⟨heq, (Checked.return_ok_iff.mp h).symm⟩
  · rename_i hne
    simp only [Checked.seq_ok_iff, Checked.require_ok_iff, Checked.return_ok_iff, exists_const] at h
    exact .inr ⟨hne, h.1, h.2.symm⟩

/-- A transfer leaves every account but its two ends alone. -/
theorem transferChecked_lookup {authority : Pubkey} {amount : Nat}
    (h : transferChecked Γ tokens mint source target authority amount = .ok tokens') (hs : k ≠ source) (ht : k ≠ target) :
    tokens'.lookup k = tokens.lookup k := by
  obtain ⟨src, dst, -, -, -, -, -, -, ⟨-, rfl⟩ | ⟨-, -, rfl⟩⟩ := transferChecked_ok h
  · rfl
  · rw [AList.lookup_insert_ne ht, AList.lookup_insert_ne hs]

theorem burn_ok {authority : Pubkey} {amount : Nat} (h : burn tokens mint source authority amount = .ok tokens') :
    ∃ src, tokens.lookup source = some src ∧ src.owner = authority ∧ amount ≤ src.amount ∧
      tokens' = tokens.insert source { src with amount := src.amount - amount } := by
  simp only [burn, Checked.seq_ok_iff, Checked.okOr_ok_iff, Checked.require_ok_iff, Checked.return_ok_iff, exists_const] at h
  obtain ⟨src, hsrc, ⟨-, howner, hamount⟩, rfl⟩ := h
  exact ⟨src, hsrc, howner, hamount, rfl⟩

theorem initTokenAccount_ok (h : initTokenAccount Γ s payer address mint owner = .ok r) :
    s.tokens.lookup address = none ∧ (∃ due, s.lamports.Moved payer address due r.1) ∧
      r.2 = s.tokens.insert address ⟨mint, owner, 0⟩ := by
  simp only [initTokenAccount, seq_ok_iff, return_ok_iff] at h
  obtain ⟨lamports, hinit, rfl⟩ := h
  obtain ⟨hnew, due, hpay, -⟩ := initAccount_ok hinit
  exact ⟨by simpa using hnew, ⟨due, hpay⟩, rfl⟩

theorem tokenAccountOf_ok (h : tokenAccountOf s account mint = .ok a) : s.tokens.lookup account = some a ∧ a.mint = mint := by
  simp only [tokenAccountOf, seq_ok_iff, loadFixed_ok_iff, constraint_ok_iff, return_ok_iff, exists_const] at h
  obtain ⟨b, hb, hmint, rfl⟩ := h
  exact ⟨hb, hmint⟩

theorem loadRegistryAs_ok (h : loadRegistryAs s authority = .ok registry) :
    s.validatorRegistry = some registry ∧ registry.data.authority = .key authority := by
  simp only [loadRegistryAs, seq_ok_iff, loadAccount_ok_iff, constraint_ok_iff, return_ok_iff, exists_const] at h
  obtain ⟨r, ⟨hr, -⟩, hauth, rfl⟩ := h
  exact ⟨hr, hauth⟩

/-! ## The bridge -/

theorem initializeBridge_ok (h : initializeBridge Γ s authority version root = .ok s') :
    s.bridgeState = none ∧ ∃ bridge due lamports, bridge.data.totalDeposited = 0 ∧ bridge.data.totalWithdrawn = 0 ∧
      s.lamports.Moved (.key authority) .bridgeState due lamports ∧
      s' = { s with bridgeState := some bridge, lamports := lamports } := by
  simp only [initializeBridge, seq_ok_iff, return_ok_iff] at h
  obtain ⟨lamports, hinit, -, -, rfl⟩ := h
  obtain ⟨hnew, due, hpay, -⟩ := initAccount_ok hinit
  exact ⟨by simpa using hnew, _, due, lamports, rfl, rfl, hpay, rfl⟩

theorem initializeMerkleTree_ok (h : initializeMerkleTree Γ s authority = .ok s') :
    s.merkleTree = none ∧ ∃ due lamports, s.lamports.Moved (.key authority) .merkleTree due lamports ∧
      s' = { s with merkleTree := some .empty, lamports := lamports } := by
  simp only [initializeMerkleTree, seq_ok_iff, return_ok_iff] at h
  obtain ⟨lamports, hinit, -, -, rfl⟩ := h
  obtain ⟨hnew, due, hpay, -⟩ := initAccount_ok hinit
  exact ⟨by simpa using hnew, due, lamports, hpay, rfl⟩

theorem migrateBridgeState_ok (h : migrateBridgeState Γ s authority = .ok s') :
    ∃ bridge dataLen due lamports, s.bridgeState = some bridge ∧
      s.lamports.Moved (.key authority) .bridgeState due lamports ∧
      s' = { s with bridgeState := some { bridge with dataLen := dataLen }, lamports := lamports } := by
  simp only [migrateBridgeState, seq_ok_iff, okOr_ok_iff] at h
  obtain ⟨-, -, bridge, hb, h⟩ := h
  split at h
  · simp only [seq_ok_iff, return_ok_iff] at h
    obtain ⟨lamports, hpay, rfl⟩ := h
    exact ⟨bridge, _, _, lamports, hb, topUp_moved hpay, rfl⟩
  · rw [return_ok_iff] at h
    subst h
    refine ⟨bridge, bridge.dataLen, 0, s.lamports, hb, Ledger.Moved.refl _ _ _, ?_⟩
    cases s
    simp_all

theorem depositNote_ok (h : depositNote Γ clock s depositor amount pubkey blinding = .ok s') :
    ∃ bridge tree lamports leaf tree' root count, s.bridgeState = some bridge ∧ s.merkleTree = some tree ∧
      Canonical pubkey ∧ Canonical blinding ∧
      s.lamports.Moved (.key depositor) .bridgeVault amount.toNat lamports ∧
      commitment Γ amount pubkey blinding nativeSolAsset = .ok leaf ∧ tree.append Γ leaf = .ok (tree', root) ∧
      s' = { s with
        bridgeState := some { bridge with data := { bridge.data with
          totalDeposited := bridge.data.totalDeposited + amount.toNat, depositCount := count } }
        merkleTree := some tree'
        lamports := lamports
        log := s.log ++ [.depositNote (.key depositor) amount leaf tree.nextIndex clock.unixTimestamp] } := by
  simp only [depositNote, seq_ok_iff, loadAccount_ok_iff, loadFixed_ok_iff, require_ok_iff, okOr_ok_iff,
    requireCanonicalField_ok_iff, checkedAdd_some_iff, return_ok_iff, exists_const] at h
  obtain ⟨bridge, ⟨hb, -⟩, tree, ht, -, -, hpub, hbl, _, -, -, lamports, hpay, leaf, hleaf, ⟨tree', root⟩, happ, _,
    ⟨-, rfl⟩, rfl⟩ := h
  exact ⟨bridge, tree, lamports, leaf, tree', root, _, hb, ht, hpub, hbl, transferLamports_moved hpay, hleaf, happ, rfl⟩

/-- What the shared part of a settlement has checked and prepared. -/
structure SettleOk (Γ : Ctx) (s : State) (authority : Signer) (recipient : Pubkey) (assetOf : Result Bytes32)
    (args : TransactArgs) (st : Settled) : Prop where
  bridge : s.bridgeState = some st.bridge
  validator : s.validators.lookup (.key authority) = some st.validator
  extAmount_nonpos : args.extAmount.toInt ≤ 0
  canonicalNullifiers : Canonical args.nullifier0 ∧ Canonical args.nullifier1
  canonicalRoot : Canonical args.root
  distinct : args.nullifier0 ≠ args.nullifier1
  fresh : s.nullifiers.lookup args.nullifier0 = none ∧ s.nullifiers.lookup args.nullifier1 = none
  nullifiers : ∃ record0 record1, st.nullifiers = (s.nullifiers.insert args.nullifier0 record0).insert args.nullifier1 record1
  lamports : ∃ due0 due1 lamports0, s.lamports.Moved (.key authority) (.nullifier args.nullifier0) due0 lamports0 ∧
    lamports0.Moved (.key authority) (.nullifier args.nullifier1) due1 st.lamports
  tree : ∃ tree tree0 root0, s.merkleTree = some tree ∧ tree.isKnownRoot args.root = true ∧
    tree.append Γ args.outCommitment0 = .ok (tree0, root0) ∧
    tree0.append Γ args.outCommitment1 = .ok (st.tree, st.newRoot)
  proof : ∃ asset, assetOf = .ok asset ∧ verifyTransact Γ (args.publicInputs Γ recipient asset) args.proof = true

theorem settle_ok (h : settle Γ clock s authority recipient assetOf quorum args = .ok st) :
    SettleOk Γ s authority recipient assetOf args st := by
  simp only [settle, checkTransactArgs, seq_ok_iff, loadAccount_ok_iff, loadFixed_ok_iff, require_ok_iff,
    constraint_ok_iff, requireCanonicalField_ok_iff, requireCanonicalNullifier_ok_iff, return_ok_iff,
    exists_const] at h
  obtain ⟨bridge, ⟨hb, -⟩, tree, ht, validator, ⟨hv, -⟩, registry, -, lamports0, hinit0, lamports, hinit1, -,
    ⟨-, -, -, hext, hn0, hn1, hne, -, -, hroot, hknown⟩, asset, hasset, -, _, -, hproof, ⟨tree0, root0⟩, happ0,
    ⟨tree1, root1⟩, happ1, rfl⟩ := h
  obtain ⟨hnew0, due0, hpay0, -⟩ := initAccount_ok hinit0
  obtain ⟨hnew1, due1, hpay1, -⟩ := initAccount_ok hinit1
  refine ⟨hb, hv, hext, ⟨hn0, hn1⟩, hroot, hne, ⟨by simpa using hnew0, ?_⟩, ⟨_, _, rfl⟩, ⟨due0, due1, lamports0, hpay0, hpay1⟩,
    ⟨tree, tree0, root0, ht, hknown, happ0, happ1⟩, ⟨asset, hasset, hproof⟩⟩
  rw [AList.lookup_insert_ne (Ne.symm hne)] at hnew1
  simpa using hnew1

theorem payNative_ok (hnonpos : extAmount.toInt ≤ 0) (h : payNative Γ st recipient extAmount = .ok paid) :
    st.lamports.Moved .bridgeVault recipient (nativePayout extAmount) paid.lamports ∧
      paid.pendingRewards = st.validator.data.pendingRewards + nativeFee extAmount ∧
      paid.totalWithdrawn = st.bridge.data.totalWithdrawn + extAmount.toInt.natAbs := by
  unfold payNative at h
  split at h
  · simp only [withdrawalFee, seq_ok_iff, require_ok_iff, okOr_ok_iff, checkedAdd_some_iff,
      checkedMul_some_iff, return_ok_iff, exists_const] at h
    obtain ⟨_, ⟨_, ⟨-, rfl⟩, rfl⟩, -, lamports, hpay, _, ⟨-, rfl⟩, _, ⟨-, rfl⟩, rfl⟩ := h
    exact ⟨transferLamports_moved hpay, rfl, rfl⟩
  · have hzero : extAmount.toInt = 0 := by omega
    rw [return_ok_iff] at h
    subst h
    have hpayout : nativePayout extAmount = 0 := by simp [nativePayout, hzero]
    refine ⟨?_, ?_, ?_⟩
    · rw [hpayout]
      exact Ledger.Moved.refl _ _ _
    · simp [nativeFee, hzero]
    · simp [hzero]

theorem transact_ok (h : transact Γ clock s authority recipient quorum args = .ok s') :
    s.owner recipient = systemProgram ∧ ∃ st lamports, SettleOk Γ s authority recipient (pure nativeSolAsset) args st ∧
      st.lamports.Moved .bridgeVault recipient (nativePayout args.extAmount) lamports ∧
      ∃ fee, s' = { s with
        bridgeState := some { st.bridge with data := { st.bridge.data with
          totalWithdrawn := st.bridge.data.totalWithdrawn + args.extAmount.toInt.natAbs
          withdrawalCount := st.settlementId } }
        merkleTree := some st.tree
        validators := s.validators.insert (.key authority) { st.validator with data :=
          { st.validator.data.settledOne clock with
            pendingRewards := st.validator.data.pendingRewards + nativeFee args.extAmount } }
        nullifiers := st.nullifiers
        lamports := lamports
        log := s.log ++ [st.event clock args fee recipient] } := by
  simp only [transact, seq_ok_iff, constraint_ok_iff, return_ok_iff, exists_const] at h
  obtain ⟨howner, st, hsettle, paid, hpaid, rfl⟩ := h
  have hst := settle_ok hsettle
  obtain ⟨hpay, hpending, hwithdrawn⟩ := payNative_ok hst.extAmount_nonpos hpaid
  refine ⟨howner, st, paid.lamports, hst, hpay, paid.fee, ?_⟩
  rw [hpending, hwithdrawn]

theorem transactSpl_ok (h : transactSpl Γ clock s authority mint recipient feeAccount quorum args = .ok s') :
    ∃ st fee tokens, SettleOk Γ s authority recipient (mintToAsset Γ mint) args st ∧
      (∃ payee, s.tokens.lookup recipient = some payee ∧ payee.mint = mint) ∧
      (∃ feeData, s.tokens.lookup feeAccount = some feeData ∧ feeData.owner = .key authority) ∧
      paySpl Γ s mint recipient feeAccount args.extAmount = .ok (fee, tokens) ∧
      s' = { s with
        bridgeState := some { st.bridge with data := { st.bridge.data with withdrawalCount := st.settlementId } }
        merkleTree := some st.tree
        validators := s.validators.insert (.key authority) { st.validator with data := st.validator.data.settledOne clock }
        nullifiers := st.nullifiers
        tokens := tokens
        lamports := st.lamports
        log := s.log ++ [st.event clock args fee recipient] } := by
  simp only [transactSpl, seq_ok_iff, constraint_ok_iff, return_ok_iff, exists_const] at h
  obtain ⟨_, -, payee, hpayee, feeData, hfee, howner, st, hsettle, ⟨fee, tokens⟩, hpaid, rfl⟩ := h
  exact ⟨st, fee, tokens, settle_ok hsettle, ⟨payee, tokenAccountOf_ok hpayee⟩, ⟨feeData, (tokenAccountOf_ok hfee).1, howner⟩,
    hpaid, rfl⟩

theorem updateBridge_ok (h : updateBridge s authority update = .ok s') : ∃ bridge, s.bridgeState = some bridge ∧
      s' = { s with bridgeState := some { bridge with data := update bridge.data } } := by
  simp only [updateBridge, seq_ok_iff, loadAccount_ok_iff, return_ok_iff] at h
  obtain ⟨bridge, ⟨hb, -⟩, _, -, rfl⟩ := h
  exact ⟨bridge, hb, rfl⟩

/-! ## Shielded tokens -/

theorem initAssetVault_ok (h : initAssetVault Γ s authority mint = .ok s') :
    ∃ due0 due1 lamports0 lamports configs, s.tokens.lookup (.assetVault mint) = none ∧
      s.lamports.Moved (.key authority) (.assetVault mint) due0 lamports0 ∧
      lamports0.Moved (.key authority) (.assetConfig mint) due1 lamports ∧
      s' = { s with
        assetConfigs := configs
        tokens := s.tokens.insert (.assetVault mint) ⟨mint, .assetVaultAuthority, 0⟩
        lamports := lamports } := by
  simp only [initAssetVault, seq_ok_iff, return_ok_iff] at h
  obtain ⟨⟨lamports0, tokens⟩, hvault, lamports, hinit, -, -, rfl⟩ := h
  obtain ⟨hnew, ⟨due0, hpay0⟩, rfl⟩ := initTokenAccount_ok hvault
  obtain ⟨-, due1, hpay1, -⟩ := initAccount_ok hinit
  exact ⟨due0, due1, lamports0, lamports, _, hnew, hpay0, hpay1, rfl⟩

theorem setAssetDepositCap_ok (h : setAssetDepositCap Γ s authority mint newCap = .ok s') :
    ∃ configs, s' = { s with assetConfigs := configs } := by
  simp only [setAssetDepositCap, seq_ok_iff, return_ok_iff] at h
  obtain ⟨_, -, -, -, -, -, rfl⟩ := h
  exact ⟨_, rfl⟩

theorem depositNoteSpl_ok (h : depositNoteSpl Γ clock s depositor mint account amount pubkey blinding = .ok s') :
    ∃ tree tokens asset leaf tree' root configs, s.merkleTree = some tree ∧ Canonical pubkey ∧ Canonical blinding ∧
      transferChecked Γ s.tokens mint account (.assetVault mint) (.key depositor) amount.toNat = .ok tokens ∧
      (∃ vault after, s.tokens.lookup (.assetVault mint) = some vault ∧ tokens.lookup (.assetVault mint) = some after ∧
        after.amount = vault.amount + amount.toNat) ∧
      mintToAsset Γ mint = .ok asset ∧ commitment Γ amount pubkey blinding asset = .ok leaf ∧
      tree.append Γ leaf = .ok (tree', root) ∧
      s' = { s with
        assetConfigs := configs
        merkleTree := some tree'
        tokens := tokens
        log := s.log ++ [.depositNoteSpl (.key depositor) mint amount leaf tree.nextIndex clock.unixTimestamp] } := by
  simp only [depositNoteSpl, seq_ok_iff, loadAccount_ok_iff, loadFixed_ok_iff, require_ok_iff, constraint_ok_iff,
    okOr_ok_iff, requireCanonicalField_ok_iff, checkedAdd_some_iff, checkedSub_some_iff,
    return_ok_iff, exists_const] at h
  obtain ⟨bridge, -, config, -, vault, hvault, source, -, -, tree, ht, -, -, hpub, hbl, _, -, -, tokens, hpay, after, hafter, _,
    ⟨hle, rfl⟩, hrealized, asset, hasset, leaf, hleaf, ⟨tree', root⟩, happ, _, -, rfl⟩ := h
  exact ⟨tree, tokens, asset, leaf, tree', root, _, ht, hpub, hbl, hpay,
    ⟨vault, after, (tokenAccountOf_ok hvault).1, hafter, by omega⟩, hasset, hleaf, happ, rfl⟩

/-! ## Validators -/

theorem initializeValidatorRegistry_ok (h : initializeValidatorRegistry Γ s authority stakeMint = .ok s') :
    s.validatorRegistry = none ∧ s.tokens.lookup .stakeTokenVault = none ∧
      ∃ registry due0 due1 lamports0 lamports, registry.data.totalActiveStake = 0 ∧ registry.data.activeValidators = 0 ∧
        registry.data.minimumStake = minValidatorStake ∧
        s.lamports.Moved (.key authority) .validatorRegistry due0 lamports0 ∧
        lamports0.Moved (.key authority) .stakeTokenVault due1 lamports ∧
        s' = { s with
          validatorRegistry := some registry
          tokens := s.tokens.insert .stakeTokenVault ⟨stakeMint, .stakeVaultAuthority, 0⟩
          lamports := lamports } := by
  simp only [initializeValidatorRegistry, seq_ok_iff, return_ok_iff] at h
  obtain ⟨lamports0, hinit, ⟨lamports, tokens⟩, hvault, -, -, rfl⟩ := h
  obtain ⟨hnew, due0, hpay0, -⟩ := initAccount_ok hinit
  obtain ⟨hnone, ⟨due1, hpay1⟩, rfl⟩ := initTokenAccount_ok hvault
  exact ⟨by simpa using hnew, hnone, _, due0, due1, lamports0, lamports, rfl, rfl, rfl, hpay0, hpay1, rfl⟩

theorem initStakeTokenVault_ok (h : initStakeTokenVault Γ s authority stakeMint = .ok s') :
    s.tokens.lookup .stakeTokenVault = none ∧ ∃ due lamports, s.lamports.Moved (.key authority) .stakeTokenVault due lamports ∧
      s' = { s with
        tokens := s.tokens.insert .stakeTokenVault ⟨stakeMint, .stakeVaultAuthority, 0⟩, lamports := lamports } := by
  simp only [initStakeTokenVault, seq_ok_iff, return_ok_iff] at h
  obtain ⟨⟨lamports, tokens⟩, hvault, -, -, rfl⟩ := h
  obtain ⟨hnone, ⟨due, hpay⟩, rfl⟩ := initTokenAccount_ok hvault
  exact ⟨hnone, due, lamports, hpay, rfl⟩

theorem setMinTokenStake_ok (h : setMinTokenStake s authority newMin = .ok s') :
    ∃ registry, s.validatorRegistry = some registry ∧
      s' = { s with
        validatorRegistry := some { registry with data := { registry.data with minTokenStake := newMin.toNat } } } := by
  simp only [setMinTokenStake, seq_ok_iff, return_ok_iff] at h
  obtain ⟨registry, hr, rfl⟩ := h
  exact ⟨registry, (loadRegistryAs_ok hr).1, rfl⟩

theorem resetValidatorRegistry_ok (h : resetValidatorRegistry Γ clock s authority stakeMint expected accounts = .ok s') :
    ∃ registry total due lamports, countResetAccounts s accounts [] 0 0 = .ok (total, expected.toNat) ∧
      registry.data.authority = .key authority ∧ registry.data.totalActiveStake = total ∧
      registry.data.activeValidators = expected.toNat ∧ registry.data.minimumStake = minValidatorStake ∧
      validatorRegistrySpace ≤ registry.dataLen ∧
      s.lamports.Moved (.key authority) .validatorRegistry due lamports ∧
      s' = { s with
        validatorRegistry := some registry
        lamports := lamports
        log := s.log ++ [.registryReset (.key authority) expected.toNat total clock.unixTimestamp] } := by
  simp only [resetValidatorRegistry, seq_ok_iff, require_ok_iff, return_ok_iff, exists_const] at h
  obtain ⟨-, -, -, -, lamports, hpay, ⟨total, active⟩, hcount, hexpected, rfl⟩ := h
  simp only at hexpected
  subst hexpected
  exact ⟨_, total, _, lamports, hcount, rfl, rfl, rfl, rfl, Nat.le_refl _, topUp_moved hpay, rfl⟩

theorem registerValidator_ok (h : registerValidator Γ clock s validator account stake tokenStake = .ok s') :
    s.validators.lookup (.key validator) = none ∧ minValidatorStake ≤ stake.toNat ∧
      ∃ registry vault vaultAfter due lamports0 lamports tokens, s.validatorRegistry = some registry ∧
        s.lamports.Moved (.key validator) (.validator (.key validator)) due lamports0 ∧
        Γ.minimumBalance validatorAccountSpace ≤ s.balance (.validator (.key validator)) + due ∧
        lamports0.Moved (.key validator) (.validator (.key validator)) stake.toNat lamports ∧
        transferChecked Γ s.tokens registry.data.stakeMint account .stakeTokenVault (.key validator) tokenStake.toNat =
          .ok tokens ∧
        s.tokens.lookup .stakeTokenVault = some vault ∧ tokens.lookup .stakeTokenVault = some vaultAfter ∧
        vault.amount ≤ vaultAfter.amount ∧
        s' = { s with
          validatorRegistry := some { registry with data := registry.data.join stake.toNat }
          validators := s.validators.insert (.key validator) ⟨.registered (.key validator) stake.toNat
            (vaultAfter.amount - vault.amount) clock, validatorAccountSpace⟩
          tokens := tokens
          lamports := lamports
          log := s.log ++ [.validatorRegistered (.key validator) stake clock.unixTimestamp] } := by
  simp only [registerValidator, seq_ok_iff, loadAccount_ok_iff, loadFixed_ok_iff, constraint_ok_iff, require_ok_iff,
    okOr_ok_iff, checkedSub_some_iff, return_ok_iff, exists_const] at h
  obtain ⟨registry, ⟨hr, -⟩, _, -, vault, hvault, lamports0, hinit, -, hmin, -, lamports, hpay, tokens, htokens, vaultAfter,
    hafter, _, ⟨hle, rfl⟩, -, rfl⟩ := h
  obtain ⟨hnew, due, hrent, hdue⟩ := initAccount_ok hinit
  exact ⟨by simpa using hnew, hmin, registry, vault, vaultAfter, due, lamports0, lamports, tokens, hr, hrent, hdue,
    transferLamports_moved hpay, htokens, hvault, hafter, hle, rfl⟩

theorem unregisterValidator_ok (h : unregisterValidator clock s validator = .ok s') :
    ∃ v registry, s.validators.lookup (.key validator) = some v ∧ s.validatorRegistry = some registry ∧
      v.data.isActive = true ∧
      s' = { s with
        validatorRegistry := some { registry with data := registry.data.drop v.data.stakeAmount }
        validators := s.validators.insert (.key validator) { v with data := v.data.unbond clock }
        log := s.log ++ [.validatorUnregistered (.key validator) 0 clock.unixTimestamp] } := by
  simp only [unregisterValidator, seq_ok_iff, loadAccount_ok_iff, constraint_ok_iff, require_ok_iff,
    return_ok_iff, exists_const] at h
  obtain ⟨v, ⟨hv, -⟩, registry, ⟨hr, -⟩, -, hactive, rfl⟩ := h
  exact ⟨v, registry, hv, hr, hactive, rfl⟩

theorem deactivateValidator_ok (h : deactivateValidator clock s authority wallet = .ok s') :
    ∃ v registry, s.validators.lookup wallet = some v ∧ s.validatorRegistry = some registry ∧
      ((v.data.isActive = false ∧ s' = s) ∨
        (v.data.isActive = true ∧ s' = { s with
          validatorRegistry := some { registry with data := registry.data.drop v.data.stakeAmount }
          validators := s.validators.insert wallet { v with data := v.data.deactivate clock } })) := by
  simp only [deactivateValidator, seq_ok_iff, loadAccount_ok_iff, constraint_ok_iff, exists_const] at h
  obtain ⟨v, ⟨hv, -⟩, registry, hr, -, h⟩ := h
  refine ⟨v, registry, hv, (loadRegistryAs_ok hr).1, ?_⟩
  split at h
  · rename_i hactive
    exact .inr ⟨hactive, (return_ok_iff.mp h).symm⟩
  · rename_i hinactive
    exact .inl ⟨by simpa using hinactive, (return_ok_iff.mp h).symm⟩

theorem withdrawUnbondedStake_ok (h : withdrawUnbondedStake Γ clock s validator account = .ok s') :
    ∃ v vault tokenAccount lamports0 lamports tokens, s.validators.lookup (.key validator) = some v ∧
      s.tokens.lookup .stakeTokenVault = some vault ∧
      s.tokens.lookup account = some tokenAccount ∧ tokenAccount.owner = .key validator ∧
      (0 < v.data.unbondingAmount ∨ v.data.unbondingAmount = 0 ∧ v.data.isActive = false ∧ v.data.stakeAmount = 0 ∧
        0 < v.data.unbondingSlot) ∧
      v.data.unbondingSlot ≤ clock.slot.toNat ∧ v.data.pendingRewards = 0 ∧
      s.lamports.Moved (.validator (.key validator)) (.key validator) v.data.unbondingAmount lamports0 ∧
      lamports0.Moved (.validator (.key validator)) (.key validator) (lamports0.balance (.validator (.key validator)))
        lamports ∧
      transferAny Γ s.tokens vault.mint .stakeTokenVault account .stakeVaultAuthority v.data.tokenUnbondingAmount = .ok tokens ∧
      s' = { s with
        validators := s.validators.erase (.key validator)
        tokens := tokens
        lamports := lamports
        log := s.log ++ [.unbondedStakeWithdrawn v.data.validator v.data.unbondingAmount clock.unixTimestamp] } := by
  simp only [withdrawUnbondedStake, seq_ok_iff, loadAccount_ok_iff, loadFixed_ok_iff, constraint_ok_iff,
    require_ok_iff, return_ok_iff, exists_const] at h
  obtain ⟨v, ⟨hv, -⟩, tokenAccount, hta, vault, hvault, -, ⟨-, howner⟩, hexit, hslot, hpending, lamports0, hpay, tokens,
    htokens, lamports, hclose, rfl⟩ := h
  exact ⟨v, vault, tokenAccount, lamports0, lamports, tokens, hv, hvault, hta, howner, hexit, hslot, hpending,
    moveLamports_moved hpay, moveLamports_moved hclose, htokens, rfl⟩

theorem slashValidator_ok {validator : Pubkey} (h : slashValidator clock s authority wallet validator pct = .ok s') :
    ∃ v registry lamports tokens, s.validators.lookup wallet = some v ∧ s.validatorRegistry = some registry ∧
      0 < pct.toNat ∧ pct.toNat ≤ 100 ∧
      s.lamports.Moved (.validator wallet) .slashedFundsVault (slashOf v.data.atRisk pct) lamports ∧
      burnAny s.tokens registry.data.stakeMint .stakeTokenVault .stakeVaultAuthority (slashOf v.data.tokenAtRisk pct) =
        .ok tokens ∧
      s' = { s with
        validatorRegistry := some { registry with data := registry.data.slash v.data pct }
        validators := s.validators.insert wallet { v with data := v.data.slash registry.data.minimumStake pct clock }
        tokens := tokens
        lamports := lamports
        log := s.log ++ [.validatorSlashed validator (slashOf v.data.atRisk pct) pct v.data.atRisk
          (v.data.slash registry.data.minimumStake pct clock).stakeAmount clock.unixTimestamp] } := by
  simp only [slashValidator, seq_ok_iff, loadAccount_ok_iff, loadFixed_ok_iff, constraint_ok_iff, require_ok_iff,
    return_ok_iff, exists_const] at h
  obtain ⟨v, ⟨hv, -⟩, _, -, registry, hr, -, -, ⟨hpos, hle⟩, lamports, hpay, tokens, htokens, rfl⟩ := h
  exact ⟨v, registry, lamports, tokens, hv, (loadRegistryAs_ok hr).1, hpos, hle, moveLamports_moved hpay, htokens, rfl⟩

theorem claimRewards_ok (h : claimRewards clock s validator = .ok s') :
    ∃ v earnings lamports, s.validators.lookup (.key validator) = some v ∧
      s.lamports.Moved .bridgeVault (.key validator) v.data.pendingRewards lamports ∧
      s' = { s with
        validators := s.validators.insert (.key validator)
          { v with data := { v.data with pendingRewards := 0, totalEarnings := earnings } }
        lamports := lamports
        log := s.log ++ [.rewardClaimed (.key validator) v.data.pendingRewards clock.unixTimestamp] } := by
  simp only [claimRewards, seq_ok_iff, loadAccount_ok_iff, constraint_ok_iff, require_ok_iff, okOr_ok_iff,
    return_ok_iff, exists_const] at h
  obtain ⟨_, -, v, ⟨hv, -⟩, -, -, -, lamports, hpay, earnings, -, rfl⟩ := h
  exact ⟨v, earnings, lamports, hv, transferLamports_moved hpay, rfl⟩

theorem updateReputation_ok {validator : Pubkey} (h : updateReputation clock s authority wallet validator reputation = .ok s') :
    ∃ v, s.validators.lookup wallet = some v ∧
      s' = { s with
        validators := s.validators.insert wallet { v with data :=
          { v.data with reputationScore := reputation.toNat, lastActive := clock.unixTimestamp } } } := by
  simp only [updateReputation, seq_ok_iff, loadAccount_ok_iff, constraint_ok_iff, require_ok_iff,
    return_ok_iff, exists_const] at h
  obtain ⟨v, ⟨hv, -⟩, _, -, -, -, -, rfl⟩ := h
  exact ⟨v, hv, rfl⟩

theorem migrateValidatorAccount_ok (h : migrateValidatorAccount Γ s authority wallet = .ok s') :
    s' = s ∨ ∃ v lamports, s.validators.lookup wallet = some v ∧ v.dataLen < validatorAccountSpace ∧
      s.lamports.Moved (.key authority) (.validator wallet)
        (Γ.minimumBalance validatorAccountSpace - Γ.minimumBalance v.dataLen) lamports ∧
      s' = { s with
        validators := s.validators.insert wallet { v with dataLen := validatorAccountSpace }, lamports := lamports } := by
  simp only [migrateValidatorAccount, seq_ok_iff, okOr_ok_iff] at h
  obtain ⟨-, -, v, hv, h⟩ := h
  split at h
  · rename_i hshort
    simp only [seq_ok_iff, return_ok_iff] at h
    obtain ⟨lamports, hpay, rfl⟩ := h
    exact .inr ⟨v, lamports, hv, hshort, topUp_moved hpay, rfl⟩
  · exact .inl (return_ok_iff.mp h).symm

/-! ## The rest of the chain -/

theorem systemTransfer_ok {source : Signer} (h : Step Γ s (.systemTransfer source target amount) s') :
    ∃ lamports, s.lamports.Moved (.key source) target amount.toNat lamports ∧ s' = { s with lamports := lamports } := by
  simp only [Step, Action.exec, seq_ok_iff, return_ok_iff] at h
  obtain ⟨lamports, hpay, rfl⟩ := h
  exact ⟨lamports, transferLamports_moved hpay, rfl⟩

theorem tokenTransfer_ok (h : Step Γ s (.tokenTransfer owner mint source target amount) s') :
    ∃ tokens, transferChecked Γ s.tokens mint source target (.key owner) amount.toNat = .ok tokens ∧
      s' = { s with tokens := tokens } := by
  simp only [Step, Action.exec, seq_ok_iff, return_ok_iff] at h
  obtain ⟨tokens, hpay, rfl⟩ := h
  exact ⟨tokens, hpay, rfl⟩

theorem openTokenAccount_ok (h : Step Γ s (.openTokenAccount address mint owner amount) s') :
    s' = { s with tokens := s.tokens.insert (.key address) ⟨mint, owner, amount.toNat⟩ } := by
  simp only [Step, Action.exec, seq_ok_iff, return_ok_iff] at h
  obtain ⟨_, -, rfl⟩ := h
  rfl

/-! ## Housekeeping

The instructions that create and administer the accounts of the bridge and of the assets. What they leave alone is said
once. -/

def Instruction.housekeeping : Instruction → Bool
  | .initializeBridge .. => true
  | .migrateBridgeState .. => true
  | .pause .. => true
  | .unpause .. => true
  | .setBridgeAuthority .. => true
  | .setDepositCap .. => true
  | .initAssetVault .. => true
  | .setAssetDepositCap .. => true
  | _ => false

/-- No note, stake or reward changed, only wallets paid, and nothing went into or out of the two vaults. -/
structure Housekept (s s' : State) : Prop where
  validators : s'.validators = s.validators
  validatorRegistry : s'.validatorRegistry = s.validatorRegistry
  merkleTree : s'.merkleTree = s.merkleTree
  nullifiers : s'.nullifiers = s.nullifiers
  log : s'.log = s.log
  deposited : s'.totalDeposited = s.totalDeposited
  withdrawn : s'.totalWithdrawn = s.totalWithdrawn
  stakeVault : s'.tokens.lookup .stakeTokenVault = s.tokens.lookup .stakeTokenVault
  bridgeVault : s'.balance .bridgeVault = s.balance .bridgeVault
  lamports : ∀ w, s.balance (.validator w) ≤ s'.balance (.validator w)
  supply : s'.lamports.supply = s.lamports.supply

namespace HousekeepingAux

theorem of_bridge (hd : bridge.data.totalDeposited = s.totalDeposited) (hw : bridge.data.totalWithdrawn = s.totalWithdrawn) :
    Housekept s { s with bridgeState := some bridge } :=
  ⟨rfl, rfl, rfl, rfl, rfl, hd, hw, rfl, rfl, fun _ => Nat.le_refl _, rfl⟩

theorem paid (h : Housekept s s') {wallet : Signer} (hpay : s'.lamports.Moved (.key wallet) target n lamports)
    (ht : .bridgeVault ≠ target) : Housekept s { s' with lamports := lamports } := by
  refine ⟨h.validators, h.validatorRegistry, h.merkleTree, h.nullifiers, h.log, h.deposited, h.withdrawn, h.stakeVault, ?_,
    fun w => ?_, hpay.supply.trans h.supply⟩
  · exact (hpay.balance_of_ne (by simp) ht).trans h.bridgeVault
  · exact (h.lamports w).trans (hpay.le_balance (by simp))

theorem of_assets (ht : tokens.lookup .stakeTokenVault = s.tokens.lookup .stakeTokenVault) :
    Housekept s { s with assetConfigs := configs, tokens := tokens } :=
  ⟨rfl, rfl, rfl, rfl, rfl, rfl, rfl, ht, rfl, fun _ => Nat.le_refl _, rfl⟩

theorem of_updateBridge (h : updateBridge s authority update = .ok s') (hd : ∀ b, (update b).totalDeposited = b.totalDeposited)
    (hw : ∀ b, (update b).totalWithdrawn = b.totalWithdrawn) : Housekept s s' := by
  obtain ⟨bridge, hb, rfl⟩ := updateBridge_ok h
  exact of_bridge (by simp [State.totalDeposited, hb, hd]) (by simp [State.totalWithdrawn, hb, hw])

end HousekeepingAux

open HousekeepingAux in
theorem Instruction.housekept {ix : Instruction} (h : ix.exec Γ clock s = .ok s') (hk : ix.housekeeping = true) :
    Housekept s s' := by
  cases ix with
  | initializeBridge =>
    obtain ⟨hnone, bridge, _, _, hd, hw, hpay, rfl⟩ := initializeBridge_ok h
    exact paid (of_bridge (by simp [State.totalDeposited, hnone, hd]) (by simp [State.totalWithdrawn, hnone, hw])) hpay
      (by simp)
  | migrateBridgeState =>
    obtain ⟨bridge, _, _, _, hb, hpay, rfl⟩ := migrateBridgeState_ok h
    exact paid (of_bridge (by simp [State.totalDeposited, hb]) (by simp [State.totalWithdrawn, hb])) hpay (by simp)
  | pause =>
    simp only [Instruction.exec, Paraloom.pause] at h
    exact of_updateBridge h (fun _ => rfl) (fun _ => rfl)
  | unpause =>
    simp only [Instruction.exec, Paraloom.unpause] at h
    exact of_updateBridge h (fun _ => rfl) (fun _ => rfl)
  | setBridgeAuthority =>
    simp only [Instruction.exec, Paraloom.setBridgeAuthority] at h
    exact of_updateBridge h (fun _ => rfl) (fun _ => rfl)
  | setDepositCap =>
    simp only [Instruction.exec, Paraloom.setDepositCap] at h
    exact of_updateBridge h (fun _ => rfl) (fun _ => rfl)
  | initAssetVault =>
    obtain ⟨_, _, lamports0, _, _, -, hpay0, hpay1, rfl⟩ := initAssetVault_ok h
    exact paid (paid (of_assets (AList.lookup_insert_ne (by simp))) hpay0 (by simp)) hpay1 (by simp)
  | setAssetDepositCap =>
    obtain ⟨_, rfl⟩ := setAssetDepositCap_ok h
    exact of_assets rfl
  | _ => cases hk

end Paraloom
