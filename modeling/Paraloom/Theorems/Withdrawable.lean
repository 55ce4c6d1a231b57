import Paraloom.Lemmas.Notes
import Paraloom.Lemmas.Stake
import Paraloom.Theorems.VaultSolvency

/-!
# Which notes can be withdrawn

The vault is a system account that must stay rent-exempt, so `transact` pays out only what leaves the rent in it, and no
deposit funds that rent. The books of the vault say exactly which withdrawals of outstanding notes are paid.
-/

namespace Paraloom

open Checked VaultSolvencyAux

variable {Γ : Ctx} {clock : Clock} {s s' : State}

namespace WithdrawableAux

/-! ## The total of the deposits -/

theorem depositNote_fits (h : depositNote Γ clock s depositor amount pubkey blinding = .ok s') :
    s'.totalDeposited ≤ u64Max := by
  simp only [depositNote, seq_ok_iff, loadAccount_ok_iff, loadFixed_ok_iff, require_ok_iff, okOr_ok_iff,
    requireCanonicalField_ok_iff, checkedAdd_some_iff, return_ok_iff, exists_const] at h
  obtain ⟨bridge, -, _, -, -, -, -, -, _, -, -, _, -, _, -, _, -, _, ⟨hfits, rfl⟩, rfl⟩ := h
  exact hfits

theorem deposited_fits (hs : s.totalDeposited ≤ u64Max) (h : Step Γ s a s') : s'.totalDeposited ≤ u64Max := by
  cases Step.noteStep h with
  | quiet _ notes _ | plant _ notes _ _ => exact notes.deposited ▸ hs
  | deposit h => exact depositNote_fits h
  | depositSpl h =>
    obtain ⟨_, _, _, _, _, _, _, -, -, -, -, -, -, -, -, rfl⟩ := depositNoteSpl_ok h
    exact hs
  | settle h =>
    obtain ⟨-, st, _, hst, -, _, rfl⟩ := transact_ok h
    simpa [State.totalDeposited, hst.bridge] using hs
  | settleSpl h =>
    obtain ⟨st, _, _, hst, -, -, -, rfl⟩ := transactSpl_ok h
    simpa [State.totalDeposited, hst.bridge] using hs

/-! ## The fund checks -/

theorem withdrawalFee_eq (h : 25 * extAmount.toInt.natAbs < 2 ^ 64) :
    withdrawalFee extAmount.toInt.natAbs = .ok (nativeFee extAmount) := by
  simp only [withdrawalFee, seq_ok_iff, okOr_ok_iff, checkedMul_some_iff, return_ok_iff]
  refine ⟨_, ⟨?_, rfl⟩, rfl⟩
  simp only [withdrawalFeeBps, u64Max]
  omega

/-- What the payout of a settlement needs: an amount that can be scaled, room in the registers, and a supply of lamports that
fits. -/
structure Payable (st : Settled) (extAmount : Int64) : Prop where
  negative : extAmount.toInt < 0
  scaled : 25 * extAmount.toInt.natAbs < 2 ^ 64
  supply : st.lamports.supply ≤ u64Max
  rewards : st.validator.data.pendingRewards + nativeFee extAmount ≤ u64Max
  withdrawn : st.bridge.data.totalWithdrawn + extAmount.toInt.natAbs ≤ u64Max

theorem payNative_of_rent (h : Payable st extAmount)
    (hrent : satAdd (nativePayout extAmount) (Γ.minimumBalance 0) ≤ st.lamports.balance .bridgeVault) :
    ∃ paid, payNative Γ st recipient extAmount = .ok paid := by
  have hfunds : nativePayout extAmount ≤ st.lamports.balance .bridgeVault := by
    have hvault := Ledger.balance_le_supply st.lamports .bridgeVault
    have hpayout : nativePayout extAmount ≤ u64Max := by
      have hscaled := h.scaled
      simp only [nativePayout, u64Max]
      omega
    exact (Nat.le_min.mpr ⟨Nat.le_add_right _ _, hpayout⟩).trans hrent
  obtain ⟨lamports, hpay⟩ := Ledger.exists_move recipient h.supply hfunds
  simp only [payNative, if_pos h.negative, seq_ok_iff, require_ok_iff, transferLamports_ok_iff, okOr_ok_iff,
    checkedAdd_some_iff, return_ok_iff, exists_const]
  exact ⟨_, _, withdrawalFee_eq h.scaled, hrent, lamports, hpay, _, ⟨h.rewards, rfl⟩, _, ⟨h.withdrawn, rfl⟩, rfl⟩

theorem payNative_of_no_rent (recipient : Pubkey) (h : Payable st extAmount)
    (hrent : ¬ Checked.satAdd (nativePayout extAmount) (Γ.minimumBalance 0) ≤ st.lamports.balance .bridgeVault) :
    payNative Γ st recipient extAmount = .error (.bridge .insufficientFunds) := by
  rw [nativePayout] at hrent
  simp only [payNative, if_pos h.negative, withdrawalFee_eq h.scaled, require, Checked.require, bind, Except.bind, if_neg hrent]

/-- A withdrawal of outstanding notes meets everything but the rent. -/
theorem payable (hst : SettleOk Γ s authority recipient assetOf args st) (hsupply : s.lamports.supply ≤ u64Max)
    (hdeposited : s.totalDeposited ≤ u64Max)
    (hvault : s.totalDeposited + s.pendingRewardsSum ≤ s.balance .bridgeVault + s.totalWithdrawn)
    (hneg : args.extAmount.toInt < 0) (hnotes : args.extAmount.toInt.natAbs + s.totalWithdrawn ≤ s.totalDeposited)
    (hscaled : 25 * args.extAmount.toInt.natAbs < 2 ^ 64) : Payable st args.extAmount := by
  have hwithdrawn : s.totalWithdrawn = st.bridge.data.totalWithdrawn := by simp [State.totalWithdrawn, hst.bridge]
  refine ⟨hneg, hscaled, ?_, ?_, ?_⟩
  · obtain ⟨_, _, _, hpay0, hpay1⟩ := hst.lamports
    rw [hpay1.supply, hpay0.supply]
    exact hsupply
  · -- the rewards and the notes are both in the vault, and the fee is part of the note
    have hrewards : st.validator.data.pendingRewards ≤ s.pendingRewardsSum :=
      Table.le_total (fun _ a => a.data.pendingRewards) hst.validator
    have hfee := payout_add_fee args.extAmount
    have hheld := (Ledger.balance_le_supply s.lamports .bridgeVault).trans hsupply
    simp only [State.balance] at hvault
    omega
  · omega

end WithdrawableAux

/-- In every run from a deployment whose vault was empty, take a settlement of native notes that has passed its other checks.
Its fee is computed, and it is paid if and only if the outstanding notes, the unclaimed rewards and the gifts cover the payout
and the rent of the vault. -/
theorem native_withdrawal_paid_iff {programData : RawAccount} {tokens : Table Pubkey TokenAccount}
    {lamports : Ledger Pubkey} {actions : List Action} (hempty : lamports.balance .bridgeVault = 0)
    (hsupply : lamports.supply < 2 ^ 64) (h : Execution Γ (.genesis programData tokens lamports) actions s)
    {authority : Signer} {recipient : Pubkey} {quorum : List AccountMeta} {args : TransactArgs} {st : Settled}
    (hrecipient : s.owner recipient = systemProgram)
    (hsettle : settle Γ clock s authority recipient (pure nativeSolAsset) quorum args = .ok st)
    (hneg : args.extAmount.toInt < 0) (hnotes : args.extAmount.toInt.natAbs ≤ s.totalDeposited - s.totalWithdrawn)
    (hscaled : 25 * args.extAmount.toInt.natAbs < 2 ^ 64) :
    withdrawalFee args.extAmount.toInt.natAbs = .ok (nativeFee args.extAmount) ∧
      if Checked.satAdd (nativePayout args.extAmount) (Γ.minimumBalance 0) ≤
          s.totalDeposited - s.totalWithdrawn + s.pendingRewardsSum + (actions.map Action.intoVault).sum
      then ∃ s', transact Γ clock s authority recipient quorum args = .ok s'
      else transact Γ clock s authority recipient quorum args = .error (.bridge .insufficientFunds) := by
  have hst := settle_ok hsettle
  have hbooks := books h
  have hdeposited : s.totalDeposited ≤ u64Max :=
    h.invariant (Nat.zero_le _) fun _ _ _ hs hstep => WithdrawableAux.deposited_fits hs hstep
  have hsupply' : s.lamports.supply ≤ u64Max :=
    h.invariant (P := fun t => t.lamports.supply ≤ u64Max) (Nat.le_sub_one_of_lt hsupply)
      fun _ _ _ hs hstep => (Step.supply hstep) ▸ hs
  have hpayable := WithdrawableAux.payable hst hsupply' hdeposited (by omega) hneg (by omega) hscaled
  have hvault : st.lamports.balance .bridgeVault =
      s.totalDeposited - s.totalWithdrawn + s.pendingRewardsSum + (actions.map Action.intoVault).sum := by
    rw [vault_settle hst]
    omega
  refine ⟨WithdrawableAux.withdrawalFee_eq hscaled, ?_⟩
  rw [← hvault]
  split
  · rename_i hrent
    obtain ⟨paid, hpaid⟩ := WithdrawableAux.payNative_of_rent hpayable hrent
    simp only [transact, Checked.seq_ok_iff, constraint_ok_iff, Checked.return_ok_iff, exists_const]
    exact ⟨_, hrecipient, st, hsettle, paid, hpaid, rfl⟩
  · rename_i hrent
    have hrefused := WithdrawableAux.payNative_of_no_rent recipient hpayable hrent
    simp only [transact, constraint, Checked.require, if_pos hrecipient, hsettle, hrefused, bind, Except.bind]

namespace WithdrawableAux

def smallNote : List Action := [ .program ⟨10, 0⟩ (.initializeBridge Sample.operator 1 zero32),
  .program ⟨11, 0⟩ (.initializeMerkleTree Sample.operator),
  .program ⟨12, 0⟩ (.initializeValidatorRegistry Sample.operator Sample.mint),
  .program ⟨13, 0⟩ (.registerValidator Sample.operator Sample.operatorTokens 2000000000 1000000000000),
  .program ⟨14, 0⟩ (.registerValidator Sample.cosigner Sample.cosignerTokens 3000000000 2000000000000),
  .program ⟨15, 0⟩ (.setDepositCap Sample.operator 1000000000000),
  .program ⟨16, 0⟩ (.depositNote Sample.depositor 100000000 (Sample.word 5) (Sample.word 6))]

def cosigners : List AccountMeta := [⟨.key Sample.cosigner, true⟩, ⟨.validator (.key Sample.cosigner), false⟩]

def withdrawing (extAmount : Int64) : TransactArgs := { Sample.withdrawal with extAmount }

/-- The settlement of a withdrawal passes the checks before the payout. -/
def settles (extAmount : Int64) (s : State) : Bool :=
  match settle Sample.ctx ⟨17, 0⟩ s Sample.operator (.key Sample.depositor) (pure nativeSolAsset) cosigners
    (withdrawing extAmount) with
  | .ok _ => true
  | .error _ => false

theorem exists_settled (h : settles extAmount s = true) :
    ∃ st, settle Sample.ctx ⟨17, 0⟩ s Sample.operator (.key Sample.depositor) (pure nativeSolAsset) cosigners
      (withdrawing extAmount) = .ok st := by
  unfold settles at h
  split at h
  · exact ⟨_, by assumption⟩
  · cases h

/-- The transaction of a withdrawal ends with an error. -/
def refusedWith (extAmount : Int64) (e : ProgramError) (s : State) : Bool :=
  match transact Sample.ctx ⟨17, 0⟩ s Sample.operator (.key Sample.depositor) cosigners (withdrawing extAmount) with
  | .ok _ => false
  | .error e' => e' = e

end WithdrawableAux

open WithdrawableAux in
/-- The fee of a note of 0.1 SOL is below the rent of the vault, so the note cannot be withdrawn in full when it is the last
one. -/
theorem last_note_refused : ∃ s st, Execution Sample.ctx Sample.genesis smallNote s ∧
    s.totalDeposited - s.totalWithdrawn = 100000000 ∧
    settle Sample.ctx ⟨17, 0⟩ s Sample.operator (.key Sample.depositor) (pure nativeSolAsset) cosigners
      (withdrawing (-100000000)) = .ok st ∧
    transact Sample.ctx ⟨17, 0⟩ s Sample.operator (.key Sample.depositor) cosigners (withdrawing (-100000000)) =
      .error (.bridge .insufficientFunds) := by
  have hsucceeds : succeedsWith Sample.ctx Sample.genesis smallNote (fun s =>
      s.totalDeposited - s.totalWithdrawn = 100000000 ∧ settles (-100000000) s ∧
        refusedWith (-100000000) (.bridge .insufficientFunds) s) = true := by decide +kernel
  obtain ⟨s, hrun, hcheck⟩ := exists_execution hsucceeds
  obtain ⟨hnotes, hsettles, hrefused⟩ := of_decide_eq_true hcheck
  obtain ⟨st, hsettle⟩ := exists_settled hsettles
  refine ⟨s, st, hrun, hnotes, hsettle, ?_⟩
  unfold refusedWith at hrefused
  split at hrefused
  · cases hrefused
  · rename_i e he
    rw [he, of_decide_eq_true hrefused]

open WithdrawableAux in
/-- Half of the note is paid, since the other half covers the rent. -/
theorem native_withdrawal_paid_iff_half : ∃ s s', Execution Sample.ctx Sample.genesis smallNote s ∧
    transact Sample.ctx ⟨17, 0⟩ s Sample.operator (.key Sample.depositor) cosigners (withdrawing (-50000000)) = .ok s' := by
  have hsucceeds : succeedsWith Sample.ctx Sample.genesis smallNote (fun s =>
      s.totalDeposited - s.totalWithdrawn = 100000000 ∧ settles (-50000000) s ∧
        s.owner (.key Sample.depositor) = systemProgram) = true := by decide +kernel
  obtain ⟨s, hrun, hcheck⟩ := exists_execution hsucceeds
  obtain ⟨hnotes, hsettles, howner⟩ := of_decide_eq_true hcheck
  obtain ⟨st, hsettle⟩ := exists_settled hsettles
  obtain ⟨-, hpaid⟩ := native_withdrawal_paid_iff (by decide +kernel) (by decide +kernel) hrun howner hsettle (by decide)
    (by rw [hnotes]; decide) (by decide)
  have hgross : nativePayout (withdrawing (-50000000)).extAmount = 49875000 := by decide
  rw [hnotes, hgross, if_pos ?_] at hpaid
  · obtain ⟨s', htransact⟩ := hpaid
    exact ⟨s, s', hrun, htransact⟩
  · exact (show satAdd 49875000 (Sample.ctx.minimumBalance 0) ≤ 100000000 by decide).trans (by omega)

end Paraloom
