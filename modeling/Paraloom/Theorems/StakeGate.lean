import Paraloom.Lemmas.Accounts
import Paraloom.Lemmas.Consensus
import Paraloom.Lemmas.Quorum
import Paraloom.OffChain.ProgramInterface

/-!
# The stake gate of the node and the quorum of the program

The node approves a request only when the wallets that voted valid hold the stake that the program will ask for. With an exact
snapshot of the chain the two agree: both clamp the same sum of stakes, over the same wallets, and compare it with the same
threshold.
-/

namespace Paraloom.OffChain

open TransactVerificationCoordinator List

/-- The wallet is an active validator with this stake: the account at its canonical address is a validator account of the
wallet, and it is active. -/
def ActiveStake (s : State) (wallet : Signer) (stake : Nat) : Prop :=
  ∃ v, s.deserializeValidator (findValidatorAddress (.key wallet)) = some v ∧ v.isActive = true ∧
    v.validator = .key wallet ∧ v.stakeAmount = stake

/-- The snapshot of a coordinator is exact for a settlement authority that is an active validator. -/
structure ExactSnapshot (c : TransactVerificationCoordinator) (s : State) (registry : ValidatorRegistry)
    (authority : Signer) (authorityStake : Nat) : Prop where
  stakes : ∀ name stake, c.onchainStakes.lookup name = some stake ↔
    ∃ wallet, walletName wallet = name ∧ ActiveStake s wallet stake
  registryTotal : c.onchainRegistryTotal = registry.totalActiveStake
  localWallet : c.localWallet = some (walletName authority)
  authorityActive : ActiveStake s authority authorityStake

def quorumAccounts (wallets : List Signer) : List AccountMeta :=
  wallets.flatMap fun w => [⟨.key w, true⟩, ⟨findValidatorAddress (.key w), false⟩]

/-- The wallets are those the gate counts, in any order and with repetitions, and possibly the authority. -/
structure ListsCounted (c : TransactVerificationCoordinator) (authority : Signer) (tally : VoteTally)
    (wallets : List Signer) : Prop where
  only : ∀ w ∈ wallets, w = authority ∨ walletName w ∈ c.countedWallets (walletName authority) tally
  all : ∀ name ∈ c.countedWallets (walletName authority) tally, ∃ w ∈ wallets, walletName w = name

namespace StakeGateAux

variable {s : State}


theorem stakeOf_of_active (h : ActiveStake s w n) : s.stakeOf (.key w) = n := by
  obtain ⟨v, hv, -, -, rfl⟩ := h
  rw [State.stakeOf, hv, Option.elim_some]

/-! ## The loop of the program -/

theorem provenValidator_pair :
    provenValidator (.key authority) (s.accountInfo ⟨.key w, true⟩) (s.accountInfo ⟨findValidatorAddress (.key w), false⟩) =
      some v ↔ w ≠ authority ∧ s.deserializeValidator (findValidatorAddress (.key w)) = some v ∧ v.isActive = true ∧
        v.validator = .key w := by
  rw [provenValidator_some_iff]
  simp only [State.accountInfo, ne_eq, Pubkey.key.injEq, true_and]
  constructor
  · rintro ⟨hne, -, hv, hactive, hname⟩
    exact ⟨hne, hv, hactive, hname⟩
  · rintro ⟨hne, hv, hactive, hname⟩
    refine ⟨hne, ?_, hv, hactive, hname⟩
    have hexists : s.hasAccount (findValidatorAddress (.key w)) = true := by
      simp only [State.deserializeValidator, findValidatorAddress] at hv
      simp only [State.hasAccount, findValidatorAddress]
      cases hlookup : s.validators.lookup (.key w) with
      | none => simp [hlookup] at hv
      | some _ => rfl
    simp [State.owner, hexists]

/-- After one pair the loop has seen what it had seen, and the wallet if it is an active validator other than the authority. -/
theorem mem_seen_countPair : k ∈ (countPair (.key authority) t (s.accountInfo ⟨.key w, true⟩)
      (s.accountInfo ⟨findValidatorAddress (.key w), false⟩)).seen ↔
        k ∈ t.seen ∨ k = .key w ∧ w ≠ authority ∧ ∃ stake, ActiveStake s w stake := by
  cases hproven : provenValidator (.key authority) (s.accountInfo ⟨.key w, true⟩)
      (s.accountInfo ⟨findValidatorAddress (.key w), false⟩) with
  | none =>
    rw [countPair, hproven]
    refine ⟨Or.inl, ?_⟩
    rintro (h | ⟨-, hne, _, v, hv, hactive, hname, -⟩)
    · exact h
    · rw [provenValidator_pair.mpr ⟨hne, hv, hactive, hname⟩] at hproven
      cases hproven
  | some v =>
    obtain ⟨hne, hv, hactive, hname⟩ := provenValidator_pair.mp hproven
    have hcosigner : w ≠ authority ∧ ∃ stake, ActiveStake s w stake := ⟨hne, _, v, hv, hactive, hname, rfl⟩
    simp only [countPair, hproven, hcosigner, ne_eq, not_false_eq_true, and_true]
    split
    · rename_i hseen
      exact ⟨Or.inl, fun h => h.elim id fun hk => hk ▸ hseen⟩
    · simp [State.accountInfo]

theorem mem_seen_iff : ∀ (wallets : List Signer) (t : QuorumTally),
    k ∈ (countPairs (.key authority) t ((quorumAccounts wallets).map s.accountInfo)).seen ↔
      k ∈ t.seen ∨ ∃ w ∈ wallets, k = .key w ∧ w ≠ authority ∧ ∃ stake, ActiveStake s w stake
  | [], t => by simp [quorumAccounts, countPairs]
  | w :: wallets, t => by
    have hsplit : (quorumAccounts (w :: wallets)).map s.accountInfo =
        s.accountInfo ⟨.key w, true⟩ :: s.accountInfo ⟨findValidatorAddress (.key w), false⟩ ::
          (quorumAccounts wallets).map s.accountInfo := rfl
    rw [hsplit, countPairs, mem_seen_iff wallets, mem_seen_countPair, exists_mem_cons_iff, or_assoc]

/-! ## The two loops -/

section Loops

variable (hexact : ExactSnapshot c s registry authority authorityStake)
include hexact

theorem activeStake_of_counted (h : name ∈ c.countedWallets (walletName authority) tally) :
    ∃ w, walletName w = name ∧ w ≠ authority ∧ ActiveStake s w (c.onchainStake name) := by
  obtain ⟨_, -, hlocal, -, -, hstaked⟩ := ConsensusAux.mem_countedWallets.mp h
  obtain ⟨stake, hstake⟩ := Option.isSome_iff_exists.mp hstaked
  obtain ⟨w, hname, hactive⟩ := (hexact.stakes _ _).mp hstake
  refine ⟨w, hname, ?_, ?_⟩
  · rintro rfl
    exact hlocal hname.symm
  · rwa [onchainStake, hstake, Option.getD_some]

/-- The two denominators are the same. -/
theorem eligibleStake_agrees : c.eligibleStake (walletName authority) = Paraloom.eligibleStake registry authorityStake := by
  have hstake : c.onchainStake (walletName authority) = authorityStake := by
    rw [onchainStake, (hexact.stakes _ _).mpr ⟨authority, rfl, hexact.authorityActive⟩, Option.getD_some]
  rw [TransactVerificationCoordinator.eligibleStake, Paraloom.eligibleStake, hexact.registryTotal, hstake]

theorem exists_listed (tally : VoteTally) : ∃ wallets, ListsCounted c authority tally wallets := by
  refine ⟨(c.countedWallets (walletName authority) tally).filterMap (Base58.decode 32), fun w hw => ?_, fun name hname => ?_⟩
  · obtain ⟨name, hname, hw⟩ := mem_filterMap.mp hw
    have hwritten : walletName w = name := Base58.decode_eq_some_iff.mp hw
    exact .inr (hwritten ▸ hname)
  · obtain ⟨w, hw, -, -⟩ := activeStake_of_counted hexact hname
    exact ⟨w, mem_filterMap.mpr ⟨name, hname, Base58.decode_eq_some_iff.mpr hw⟩, hw⟩

variable (hlist : ListsCounted c authority tally wallets)
include hlist

theorem activeStake_of_listed (hw : w ∈ wallets) (hne : w ≠ authority) : ActiveStake s w (c.onchainStake (walletName w)) := by
  have hcounted := (hlist.only w hw).resolve_left hne
  obtain ⟨w', hname, -, hactive⟩ := activeStake_of_counted hexact hcounted
  rwa [walletName_inj hname] at hactive

theorem seen_eq : (tallyQuorum (.key authority) ((quorumAccounts wallets).map s.accountInfo)).seen.toFinset =
      (wallets.toFinset.erase authority).image Pubkey.key := by
  ext k
  simp only [mem_toFinset, tallyQuorum, mem_seen_iff, not_mem_nil, false_or, Finset.mem_image, Finset.mem_erase]
  constructor
  · rintro ⟨w, hw, rfl, hne, -⟩
    exact ⟨w, ⟨hne, hw⟩, rfl⟩
  · rintro ⟨w, ⟨hne, hw⟩, rfl⟩
    exact ⟨w, hw, rfl, hne, _, activeStake_of_listed hexact hlist hw hne⟩

theorem countedWallets_eq : (c.countedWallets (walletName authority) tally).toFinset = (wallets.toFinset.erase authority).image walletName := by
  ext name
  simp only [mem_toFinset, Finset.mem_image, Finset.mem_erase]
  constructor
  · intro hname
    obtain ⟨w, hw, rfl⟩ := hlist.all name hname
    obtain ⟨w', hname', hne, -⟩ := activeStake_of_counted hexact hname
    exact ⟨w, ⟨walletName_inj hname' ▸ hne, hw⟩, rfl⟩
  · rintro ⟨w, ⟨hne, hw⟩, rfl⟩
    exact (hlist.only w hw).resolve_left hne

theorem countedStake_agrees : (tallyQuorum (.key authority) ((quorumAccounts wallets).map s.accountInfo)).countedStake =
      c.countedStake (walletName authority) tally := by
  have hloop := QuorumAux.counted_tally s (.key authority) (quorumAccounts wallets)
  rw [hloop.stake, ConsensusAux.countedStake_eq, ← sum_toFinset _ hloop.nodup,
    ← sum_toFinset _ (ConsensusAux.countedWallets_nodup c _ tally),
    seen_eq hexact hlist, countedWallets_eq hexact hlist, Finset.sum_image (by simp), Finset.sum_image (by
      intro w _ w' _ h
      exact walletName_inj h)]
  congr 1
  refine Finset.sum_congr rfl fun w hw => ?_
  obtain ⟨hne, hmem⟩ := Finset.mem_erase.mp hw
  exact stakeOf_of_active (activeStake_of_listed hexact hlist (mem_toFinset.mp hmem) hne)

end Loops

end StakeGateAux

open StakeGateAux in
/-- With an exact snapshot the gate of the node is met if and only if the program accepts every list of the accounts of the
wallets that the gate counts. -/
theorem stake_gate_agrees {c : TransactVerificationCoordinator} {s : State} {registry : ValidatorRegistry} {authority : Signer}
    {authorityStake : Nat} (hexact : ExactSnapshot c s registry authority authorityStake) (tally : VoteTally) :
    c.stakeQuorumMet tally = true ↔ ∀ wallets, ListsCounted c authority tally wallets →
      verifyValidatorQuorum registry (.key authority) authorityStake ((quorumAccounts wallets).map s.accountInfo) = .ok () := by
  rw [ConsensusAux.stakeQuorumMet_iff hexact.localWallet, eligibleStake_agrees hexact]
  constructor
  · intro hmet wallets hlist
    rw [verifyValidatorQuorum_ok_iff, countedStake_agrees hexact hlist]
    exact hmet
  · intro haccepts
    obtain ⟨wallets, hlist⟩ := exists_listed hexact tally
    have hok := haccepts wallets hlist
    rwa [verifyValidatorQuorum_ok_iff, countedStake_agrees hexact hlist] at hok

/-! ## A fresh snapshot is exact -/

namespace StakeGateAux

theorem lookup_stakeMap (hfun : ∀ e ∈ l, ∀ e' ∈ l, e.1 = e'.1 → e.2 = e'.2) :
    (stakeMap l).lookup name = some n ↔ ∃ w, walletName w = name ∧ (w, n) ∈ l := by
  rw [stakeMap, Table.lookup_foldl_insert (fun e : Bytes32 × Nat => walletName e.1) Prod.snd, AList.lookup_empty,
    Option.or_none, Option.map_eq_some_iff]
  constructor
  · rintro ⟨e, hfind, rfl⟩
    have hname := find?_some hfind
    exact ⟨e.1, of_decide_eq_true hname, mem_reverse.mp (mem_of_find?_eq_some hfind)⟩
  · rintro ⟨w, rfl, hmem⟩
    cases hfind : l.reverse.find? fun e => walletName e.1 = walletName w with
    | none => exact absurd (find?_eq_none.mp hfind (w, n) (mem_reverse.mpr hmem)) (by simp)
    | some e =>
      have hlisted := mem_reverse.mp (mem_of_find?_eq_some hfind)
      have hname := find?_some hfind
      exact ⟨e, rfl, hfun e hlisted (w, n) hmem (walletName_inj (of_decide_eq_true hname))⟩

theorem mem_listValidatorStakes (hkept : ∀ w v, s.validators.lookup w = some v → KeptAccount w v) :
    (w, n) ∈ listValidatorStakes Γ s ↔ ActiveStake s w n := by
  have hdeserialize : ∀ {k v}, s.validators.lookup k = some v → s.deserializeValidator (findValidatorAddress k) = some v.data := by
    intro k v hv
    simp [State.deserializeValidator, findValidatorAddress, hv, (hkept k v hv).whole]
  simp only [listValidatorStakes, mem_filterMap]
  constructor
  · rintro ⟨⟨k, v⟩, hmem, hlisted⟩
    have hv : s.validators.lookup k = some v := AList.mem_lookup_iff.mpr hmem
    obtain ⟨⟨k, rfl⟩, hname, -, -⟩ := hkept k v hv
    split at hlisted
    · cases hlisted
    · rename_i hactive
      simp only [hname, Ctx.toBytes, Option.some.injEq, Prod.mk.injEq] at hlisted
      obtain ⟨rfl, rfl⟩ := hlisted
      exact ⟨v.data, hdeserialize hv, by simpa using (not_or.mp hactive).2, hname, rfl⟩
  · rintro ⟨data, hdata, hactive, hname, rfl⟩
    cases hv : s.validators.lookup (.key w) with
    | none => simp [State.deserializeValidator, findValidatorAddress, hv] at hdata
    | some v =>
      rw [hdeserialize hv, Option.some.injEq] at hdata
      subst hdata
      have hwhole : ¬ v.dataLen < 89 := Nat.not_lt.mpr (Nat.le_trans (by decide) (hkept _ v hv).whole)
      exact ⟨⟨.key w, v⟩, AList.mem_lookup_iff.mp hv, by simp [hwhole, hactive, hname, Ctx.toBytes]⟩

end StakeGateAux

open StakeGateAux in
theorem reconcileStakes_exact (h : Execution Γ (.genesis programData tokens lamports) actions s)
    (hregistry : s.validatorRegistry = some registry) (hlen : 72 ≤ registry.dataLen)
    (hauthority : ActiveStake s authority authorityStake) (hlocal : c.localWallet = some (walletName authority)) :
    ExactSnapshot (reconcileStakes Γ s c) s registry.data authority authorityStake := by
  have hkept : ∀ w v, s.validators.lookup w = some v → KeptAccount w v :=
    h.invariant (P := fun s => ∀ w v, s.validators.lookup w = some v → KeptAccount w v)
      (fun w v hv => by cases hv) fun _ _ _ hs hstep w v hv => Step.keptAccounts hstep hs hv
  have hlookup : ∀ name stake, (stakeMap (listValidatorStakes Γ s)).lookup name = some stake ↔
      ∃ wallet, walletName wallet = name ∧ ActiveStake s wallet stake := by
    intro name stake
    rw [lookup_stakeMap]
    · simp [mem_listValidatorStakes hkept]
    · rintro ⟨w, n⟩ hmem ⟨w', n'⟩ hmem' rfl
      have hstake := stakeOf_of_active ((mem_listValidatorStakes hkept).mp hmem)
      exact hstake.symm.trans (stakeOf_of_active ((mem_listValidatorStakes hkept).mp hmem'))
  have hsome : (stakeMap (listValidatorStakes Γ s)).entries ≠ [] := by
    intro hempty
    have hstake := AList.mem_lookup_iff.mp ((hlookup _ _).mpr ⟨authority, rfl, hauthority⟩)
    simp [hempty] at hstake
  have htotal : registryTotalActiveStake s = .ok registry.data.totalActiveStake := by
    simp [registryTotalActiveStake, hregistry, Nat.not_lt.mpr hlen]
  have hsync : reconcileStakes Γ s c = c.syncOnchainStakes (stakeMap (listValidatorStakes Γ s)) registry.data.totalActiveStake := by
    rw [reconcileStakes, htotal]
  rw [hsync]
  constructor
  · simpa [syncOnchainStakes, hsome] using hlookup
  · simp [syncOnchainStakes, hsome]
  · simpa [syncOnchainStakes, hsome] using hlocal
  · exact hauthority

namespace StakeGateAux

def operatorCoordinator : TransactVerificationCoordinator :=
  { newWithApprovals with localWallet := some (walletName Sample.operator) }

def bothValid : VoteTally :=
  { VoteTally.new 0 "transact-0" 2 2 with
    votes := ((∅ : Table String VoteRecord).insert (walletName Sample.operator) ⟨.valid, [1], [1]⟩).insert
      (walletName Sample.cosigner) ⟨.valid, [2], [2]⟩ }

end StakeGateAux

open StakeGateAux in
/-- After the sample settlement the operator's gate is met by the vote of the cosigner, and the program accepts the two of
them, with the operator's own pair and a repetition in the list. -/
theorem stake_gate_agrees_sample : ∃ s registry, Execution Sample.ctx Sample.genesis Sample.settlement s ∧
    s.validatorRegistry = some registry ∧
    (reconcileStakes Sample.ctx s operatorCoordinator).stakeQuorumMet bothValid = true ∧
    verifyValidatorQuorum registry.data (.key Sample.operator) 2000000000
      ((quorumAccounts [Sample.cosigner, Sample.operator, Sample.cosigner]).map s.accountInfo) = .ok () := by
  have hsucceeds : succeedsWith Sample.ctx Sample.genesis Sample.settlement (fun s =>
      (∃ registry ∈ s.validatorRegistry, 72 ≤ registry.dataLen) ∧
      (∃ v ∈ s.deserializeValidator (findValidatorAddress (.key Sample.operator)), v.isActive = true ∧
        v.validator = .key Sample.operator ∧ v.stakeAmount = 2000000000) ∧
      (reconcileStakes Sample.ctx s operatorCoordinator).stakeQuorumMet bothValid = true ∧
      (reconcileStakes Sample.ctx s operatorCoordinator).countedWallets (walletName Sample.operator) bothValid =
        [walletName Sample.cosigner]) = true := by decide +kernel
  obtain ⟨s, hrun, hcheck⟩ := exists_execution hsucceeds
  obtain ⟨⟨registry, hregistry, hlen⟩, hoperator, hmet, hcounted⟩ := of_decide_eq_true hcheck
  have hexact := reconcileStakes_exact (c := operatorCoordinator) hrun hregistry hlen hoperator rfl
  refine ⟨s, registry, hrun, hregistry, hmet, (stake_gate_agrees hexact bothValid).mp hmet _ ⟨?_, ?_⟩⟩
  · simp [hcounted]
  · simp [hcounted]

end Paraloom.OffChain
