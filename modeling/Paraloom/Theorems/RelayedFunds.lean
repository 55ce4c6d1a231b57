import Paraloom.OffChain.Relayer

/-!
# Funds in the hands of the relayer

Of the checks that a request can fail whatever the network does, the relayer makes two before it withdraws. The others come
after the note is burned. The round trip also drops the keypair of the fresh address with every error, so an error after the
withdrawal leaves the funds at an address nobody can sign for.
-/

namespace Paraloom.OffChain

open Checked LittleEndian

namespace PrivateSwapRequest

variable (request : PrivateSwapRequest)

/-- The protocol fee does not fit a 64-bit product. -/
def FeeOverflows : Prop := u64Max < request.amountIn.toNat * withdrawalFeeBps

/-- A native amount that is no more than the overhead of its trade once the protocol fee is off. -/
def OverheadNotCovered (overhead : UInt64) : Prop :=
  request.assetIn = nativeSolAsset ∧
    request.amountIn.toNat - request.amountIn.toNat * withdrawalFeeBps / 10000 ≤ overhead.toNat

/-- The request fails whatever the provider and the submitter do. -/
def Refusable (overhead : UInt64) : Prop :=
  request.amountIn = 0 ∨ 10000 < request.feeBps.toNat ∨ request.FeeOverflows ∨ request.OverheadNotCovered overhead

end PrivateSwapRequest

/-- The submitter cannot deposit on the path, whatever the deposit. -/
def Submitter.NeverDeposits (s : Submitter) (leg : WithdrawLeg) : Prop :=
  ∀ amount signer recipient randomness, ∃ e, s.submitDepositFromFresh leg amount signer recipient randomness = .error e

/-- A withdraw leg was submitted. -/
def Submits (trace : List RelayerAction) : Prop :=
  ∃ leg amount freshAddress settled, .withdraw leg amount freshAddress settled ∈ trace

def Settles (trace : List RelayerAction) : Prop := ∃ leg amount freshAddress, .withdraw leg amount freshAddress true ∈ trace

namespace PrivateSwapRelayer

/-- Every leg of the round trip succeeds, and the output is not below the floor of the request. -/
def Completes (relayer : PrivateSwapRelayer) (request : PrivateSwapRequest) (ephemeral : Keypair) : Prop :=
  ∃ withdrawLeg amount swap depositLeg, (relayer.withdrawAnswer request ephemeral.pubkey).result = .ok withdrawLeg ∧
    request.swapAmount relayer.nativeSwapOverheadLamports = .ok amount ∧
    relayer.swapProvider.swap request.assetIn request.assetOut amount ephemeral = .ok swap ∧
    request.checkMinOut swap.outAmount = .ok () ∧
    relayer.submitter.submitDepositFromFresh (.forAsset request.assetOut) swap.outAmount ephemeral request.reshieldRecipient
      request.reshieldRandomness = .ok depositLeg

end PrivateSwapRelayer

namespace RelayerAux

open Traced PrivateSwapRelayer

variable {relayer : PrivateSwapRelayer} {request : PrivateSwapRequest}

theorem withdrawn_ok_iff : request.withdrawn = .ok n ↔
    request.amountIn ≠ 0 ∧ ¬ request.FeeOverflows ∧
      n = request.amountIn.toNat - request.amountIn.toNat * withdrawalFeeBps / 10000 := by
  have hzero : request.amountIn = 0 ↔ request.amountIn.toNat = 0 := by
    rw [← UInt64.toNat_inj, UInt64.toNat_zero]
  unfold PrivateSwapRequest.withdrawn PrivateSwapRequest.FeeOverflows
  simp only [ne_eq, hzero, Checked.seq_ok_iff, Checked.okOr_ok_iff, Option.map_eq_some_iff, Checked.checkedMul_some_iff,
    Option.filter_eq_some_iff, Checked.checkedSub_some_iff, decide_eq_true_eq, withdrawalFeeBps]
  constructor
  · rintro ⟨_, ⟨_, ⟨hfits, rfl⟩, rfl⟩, ⟨hle, rfl⟩, hpos⟩
    omega
  · rintro ⟨hne, hfits, rfl⟩
    exact ⟨_, ⟨_, ⟨Nat.le_of_not_lt hfits, rfl⟩, rfl⟩, ⟨by omega, rfl⟩, by omega⟩

theorem exists_tradable_iff :
    (∃ amount, request.tradable overhead n = .ok amount) ↔ ¬ (request.assetIn = nativeSolAsset ∧ n ≤ overhead.toNat) := by
  unfold PrivateSwapRequest.tradable
  split
  · rename_i hnative
    simp only [Checked.okOr_ok_iff, Option.filter_eq_some_iff, Checked.checkedSub_some_iff, decide_eq_true_eq, hnative, true_and]
    constructor
    · rintro ⟨_, ⟨-, rfl⟩, hpos⟩
      omega
    · intro hover
      exact ⟨_, ⟨by omega, rfl⟩, by omega⟩
  · rename_i hspl
    exact iff_of_true ⟨n, rfl⟩ fun h => hspl h.1

/-- The trade has an amount exactly when the request passes its arithmetic. -/
theorem exists_swapAmount_iff (hamount : request.amountIn ≠ 0) :
    (∃ amount, request.swapAmount overhead = .ok amount) ↔ ¬ request.FeeOverflows ∧ ¬ request.OverheadNotCovered overhead := by
  unfold PrivateSwapRequest.swapAmount PrivateSwapRequest.OverheadNotCovered
  rw [← exists_tradable_iff]
  constructor
  · rintro ⟨_, hok⟩
    obtain ⟨n, hn, hok⟩ := seq_ok_iff.mp hok
    obtain ⟨amount, hamount, -⟩ := seq_ok_iff.mp hok
    obtain ⟨-, hfits, rfl⟩ := withdrawn_ok_iff.mp hn
    exact ⟨hfits, amount, hamount⟩
  · rintro ⟨hfits, amount, htradable⟩
    refine ⟨UInt64.ofNat amount, seq_ok_iff.mpr ⟨_, withdrawn_ok_iff.mpr ⟨hamount, hfits, rfl⟩, ?_⟩⟩
    exact seq_ok_iff.mpr ⟨amount, htradable, rfl⟩

theorem mem_withdraw_iff : .withdraw leg amount freshAddress settled ∈ (relayer.withdrawThenSwap request ephemeral).trace ↔
      request.amountIn ≠ 0 ∧ request.feeBps.toNat ≤ 10000 ∧ leg = .forAsset request.assetIn ∧ amount = request.amountIn ∧
        freshAddress = ephemeral.pubkey ∧ settled = (relayer.withdrawAnswer request ephemeral.pubkey).settled := by
  simp [withdrawThenSwap, mem_trace_bind]

/-- The first half succeeds exactly when its checks, its withdrawal and its swap do. -/
theorem withdrawThenSwap_ok_iff : (relayer.withdrawThenSwap request ephemeral).result = .ok (withdrawLeg, out) ↔
      request.amountIn ≠ 0 ∧ request.feeBps.toNat ≤ 10000 ∧
      (relayer.withdrawAnswer request ephemeral.pubkey).result = .ok withdrawLeg ∧
      ∃ amount swap, request.swapAmount relayer.nativeSwapOverheadLamports = .ok amount ∧
        relayer.swapProvider.swap request.assetIn request.assetOut amount ephemeral = .ok swap ∧
        request.checkMinOut swap.outAmount = .ok () ∧ swap.outAmount = out := by
  simp only [withdrawThenSwap, result_bind_ok_iff, result_check_ok_iff, result_perform, result_lift, result_pure,
    Except.ok.injEq, Prod.mk.injEq]
  constructor
  · rintro ⟨_, hamount, _, hfee, _, hwithdraw, amount, hswapAmount, swap, hswap, _, hmin, rfl, rfl⟩
    exact ⟨hamount, hfee, hwithdraw, amount, swap, hswapAmount, hswap, hmin, rfl⟩
  · rintro ⟨hamount, hfee, hwithdraw, amount, swap, hswapAmount, hswap, hmin, rfl⟩
    exact ⟨(), hamount, (), hfee, _, hwithdraw, amount, hswapAmount, swap, hswap, (), hmin, rfl, rfl⟩

/-- The round trip succeeds exactly when every leg does. -/
theorem execute_ok_iff : (∃ r, (relayer.execute request ephemeral).result = .ok r) ↔
    request.amountIn ≠ 0 ∧ request.feeBps.toNat ≤ 10000 ∧ relayer.Completes request ephemeral := by
  simp only [execute, result_bind_ok_iff, result_perform, result_pure, Prod.exists, withdrawThenSwap_ok_iff]
  constructor
  · rintro ⟨_, withdrawLeg, out, ⟨hamount, hfee, hwithdraw, amount, swap, hswapAmount, hswap, hmin, rfl⟩, depositLeg, hdeposit, -⟩
    exact ⟨hamount, hfee, withdrawLeg, amount, swap, depositLeg, hwithdraw, hswapAmount, hswap, hmin, hdeposit⟩
  · rintro ⟨hamount, hfee, withdrawLeg, amount, swap, depositLeg, hwithdraw, hswapAmount, hswap, hmin, hdeposit⟩
    exact ⟨_, withdrawLeg, _, ⟨hamount, hfee, hwithdraw, amount, swap, hswapAmount, hswap, hmin, rfl⟩, depositLeg, hdeposit, rfl⟩

/-- The round trip withdraws where its first half does. -/
theorem mem_withdraw_execute_iff : .withdraw leg amount freshAddress settled ∈ (relayer.execute request ephemeral).trace ↔
      .withdraw leg amount freshAddress settled ∈ (relayer.withdrawThenSwap request ephemeral).trace := by
  simp [execute, mem_trace_bind]

theorem mem_withdraw_executeSwapOut_iff :
    .withdraw leg amount freshAddress settled ∈ (relayer.executeSwapOut request ephemeral).trace ↔
      .withdraw leg amount freshAddress settled ∈ (relayer.withdrawThenSwap request ephemeral).trace := by
  simp [executeSwapOut, mem_trace_bind]

theorem reachableKeypairs_nil : reachableKeypairs [] e = [] := by
  cases e <;> rfl

theorem submits_execute_iff : Submits (relayer.execute request ephemeral).trace ↔
    request.amountIn ≠ 0 ∧ request.feeBps.toNat ≤ 10000 := by
  simp [Submits, mem_withdraw_execute_iff, mem_withdraw_iff]

theorem submits_executeSwapOut_iff : Submits (relayer.executeSwapOut request ephemeral).trace ↔
    request.amountIn ≠ 0 ∧ request.feeBps.toNat ≤ 10000 := by
  simp [Submits, mem_withdraw_executeSwapOut_iff, mem_withdraw_iff]

theorem settles_execute_iff : Settles (relayer.execute request ephemeral).trace ↔
    request.amountIn ≠ 0 ∧ request.feeBps.toNat ≤ 10000 ∧
      (relayer.withdrawAnswer request ephemeral.pubkey).settled = true := by
  simp only [Settles, mem_withdraw_execute_iff, mem_withdraw_iff]
  constructor
  · rintro ⟨_, _, _, hamount, hfee, -, -, -, hsettled⟩
    exact ⟨hamount, hfee, hsettled.symm⟩
  · rintro ⟨hamount, hfee, hsettled⟩
    exact ⟨_, _, _, hamount, hfee, rfl, rfl, rfl, hsettled.symm⟩

/-- A request that completes passes every check that could be made first. -/
theorem Completes.not_refusable (hamount : request.amountIn ≠ 0) (h : relayer.Completes request ephemeral) :
    ¬ request.FeeOverflows ∧ ¬ request.OverheadNotCovered relayer.nativeSwapOverheadLamports ∧
      ¬ relayer.submitter.NeverDeposits (.forAsset request.assetOut) := by
  obtain ⟨_, amount, swap, depositLeg, -, hswapAmount, -, -, hdeposit⟩ := h
  obtain ⟨hfits, hcovered⟩ := (exists_swapAmount_iff hamount).mp ⟨amount, hswapAmount⟩
  refine ⟨hfits, hcovered, fun hnever => ?_⟩
  obtain ⟨e, he⟩ := hnever swap.outAmount ephemeral request.reshieldRecipient request.reshieldRandomness
  rw [hdeposit] at he
  cases he

end RelayerAux

open RelayerAux in
/-- An error that a check could have foreseen comes before the withdrawal, and after a withdrawal that settled an error of the
round trip leaves the key with the caller, exactly when the request fails one of the two early checks, or it passes all the
checks and the withdrawal does not settle or every later leg succeeds. -/
theorem relayed_funds_not_stranded_iff (relayer : PrivateSwapRelayer) (request : PrivateSwapRequest) (ephemeral fresh : Keypair) :
    ((∀ e, (relayer.execute request ephemeral).result = .error e →
        request.Refusable relayer.nativeSwapOverheadLamports ∨
          relayer.submitter.NeverDeposits (.forAsset request.assetOut) →
        ¬ Submits (relayer.execute request ephemeral).trace) ∧
      (∀ e, (relayer.executeSwapOut request fresh).result = .error e →
        request.Refusable relayer.nativeSwapOverheadLamports → ¬ Submits (relayer.executeSwapOut request fresh).trace) ∧
      ∀ e, (relayer.execute request ephemeral).result = .error e → Settles (relayer.execute request ephemeral).trace →
        ephemeral ∈ reachableKeypairs [] e) ↔
    request.amountIn = 0 ∨ 10000 < request.feeBps.toNat ∨
      ¬ request.FeeOverflows ∧ ¬ request.OverheadNotCovered relayer.nativeSwapOverheadLamports ∧
        ¬ relayer.submitter.NeverDeposits (.forAsset request.assetOut) ∧
        ((relayer.withdrawAnswer request ephemeral.pubkey).settled = false ∨ relayer.Completes request ephemeral) := by
  rw [submits_execute_iff, submits_executeSwapOut_iff, settles_execute_iff]
  by_cases hearly : request.amountIn ≠ 0 ∧ request.feeBps.toNat ≤ 10000
  swap
  · have hcheck : request.amountIn = 0 ∨ 10000 < request.feeBps.toNat := by
      rwa [not_and_or, not_not, Nat.not_le] at hearly
    refine iff_of_true ⟨fun _ _ _ => hearly, fun _ _ _ => hearly, fun _ _ hsettles => ?_⟩ (hcheck.imp_right Or.inl)
    exact absurd ⟨hsettles.1, hsettles.2.1⟩ hearly
  obtain ⟨hamount, hfee⟩ := hearly
  have hok : (∃ r, (relayer.execute request ephemeral).result = .ok r) ↔ relayer.Completes request ephemeral := by
    rw [execute_ok_iff, and_iff_right hamount, and_iff_right hfee]
  constructor
  · rintro ⟨hearly, -, hkey⟩
    cases hresult : (relayer.execute request ephemeral).result with
    | ok r =>
      have hcompletes := hok.mp ⟨r, hresult⟩
      obtain ⟨hfits, hcovered, hdeposits⟩ := Completes.not_refusable hamount hcompletes
      exact .inr (.inr ⟨hfits, hcovered, hdeposits, Or.inr hcompletes⟩)
    | error e =>
      have hnotRefusable : ¬ _ := fun h => hearly e hresult h ⟨hamount, hfee⟩
      have hunsettled : (relayer.withdrawAnswer request ephemeral.pubkey).settled = false := by
        rw [Bool.eq_false_iff]
        intro hsettled
        have hmem := hkey e hresult ⟨hamount, hfee, hsettled⟩
        rw [reachableKeypairs_nil] at hmem
        cases hmem
      refine .inr (.inr ⟨?_, ?_, ?_, Or.inl hunsettled⟩)
      · exact fun h => hnotRefusable (.inl (.inr (.inr (.inl h))))
      · exact fun h => hnotRefusable (.inl (.inr (.inr (.inr h))))
      · exact fun h => hnotRefusable (.inr h)
  · rintro (hzero | hhigh | ⟨hfits, hcovered, hdeposits, hend⟩)
    · exact absurd hzero hamount
    · exact absurd hhigh (Nat.not_lt.mpr hfee)
    · have hrefusable : ¬ request.Refusable relayer.nativeSwapOverheadLamports := by
        rintro (hzero | hhigh | hover | huncovered)
        · exact hamount hzero
        · exact Nat.not_lt.mpr hfee hhigh
        · exact hfits hover
        · exact hcovered huncovered
      refine ⟨fun _ _ h => absurd h (not_or.mpr ⟨hrefusable, hdeposits⟩), fun _ _ h => absurd h hrefusable, ?_⟩
      intro e hresult hsettles
      rcases hend with hunsettled | hcompletes
      · rw [hunsettled] at hsettles
        exact absurd hsettles.2.2 Bool.false_ne_true
      · obtain ⟨r, hr⟩ := hok.mpr hcompletes
        rw [hresult] at hr
        cases hr

theorem onChainSubmitter_neverDeposits (s : OnChainSubmitter) (hspl : asset ≠ nativeSolAsset) :
    s.submitter.NeverDeposits (.forAsset asset) := by
  intro amount signer recipient randomness
  rw [WithdrawLeg.forAsset, if_neg hspl]
  exact ⟨_, rfl⟩

namespace RelayerSample

def network : OnChainSubmitter where
  settleTransact _ _ _ _ _ _ := (true, .ok "settled")
  sendDepositNote _ _ _ _ := .ok "deposited"

def provider : SwapProvider := ⟨fun _ _ amount _ => .ok ⟨amount⟩⟩

def relayer (overhead : UInt64) : PrivateSwapRelayer := ⟨provider, network.submitter, overhead⟩

def request (assetOut : AssetId) : PrivateSwapRequest where
  amountIn := 1000
  assetIn := nativeSolAsset
  inSk := LittleEndian.vec 32 1
  inBlinding := LittleEndian.vec 32 2
  inNotePubkey := LittleEndian.vec 32 3
  inLeafIndex := 0
  assetOut
  reshieldRecipient := LittleEndian.vec 32 9
  reshieldRandomness := LittleEndian.vec 32 5
  feeBps := 0
  minOutAmount := none

def ephemeral : Keypair := ⟨LittleEndian.vec 32 11, LittleEndian.vec 32 12⟩

end RelayerSample

open RelayerSample RelayerAux in
/-- A note that does not cover the overhead is withdrawn to the fresh address and then refused, and the key of that address is
gone. An output that the submitter cannot deposit is refused after the withdrawal and the swap. -/
theorem relayed_funds_stranded :
    (((relayer 1000).execute (request nativeSolAsset) ephemeral).result = .error (.invalidAmount 1000) ∧
      Settles ((relayer 1000).execute (request nativeSolAsset) ephemeral).trace ∧
      ephemeral ∉ reachableKeypairs [] (.invalidAmount 1000)) ∧
    (relayer 0).submitter.NeverDeposits (.forAsset (LittleEndian.vec 32 77)) ∧
      Settles ((relayer 0).execute (request (LittleEndian.vec 32 77)) ephemeral).trace ∧
      ((relayer 0).execute (request (LittleEndian.vec 32 77)) ephemeral).result = .error (.submissionFailed
        "SPL re-shield is unavailable on the native-only v3 program (needs a redeploy)") := by
  have hspl : LittleEndian.vec 32 77 ≠ nativeSolAsset := by decide
  refine ⟨⟨by decide +kernel, settles_execute_iff.mpr ⟨by decide, by decide, rfl⟩, ?_⟩,
    onChainSubmitter_neverDeposits network hspl, settles_execute_iff.mpr ⟨by decide, by decide, rfl⟩, by decide +kernel⟩
  rw [reachableKeypairs_nil]
  exact List.not_mem_nil

end Paraloom.OffChain
