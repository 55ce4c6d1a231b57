import Paraloom.Lemmas.Backing

/-!
# Every stake is backed

The program takes lamports out of a validator account by a plain subtraction. It may, because the account holds its stake and
what unbonds on top of its rent.
-/

namespace Paraloom

/-- The account of a validator that registers in a run holds at least its rent, its stake and what unbonds, and only one of
the two is not zero. So paying out what unbonds never underflows, and neither does a slash, which leaves the rent. -/
theorem stake_backed {Γ : Ctx} {s₀ s : State} {actions : List Action} {wallet : Pubkey}
    {v : ProgramAccount ValidatorAccount} (h : Execution Γ s₀ actions s) (hnew : s₀.validators.lookup wallet = none)
    (hv : s.validators.lookup wallet = some v) :
    Γ.minimumBalance v.dataLen + v.data.stakeAmount + v.data.unbondingAmount ≤ s.balance (.validator wallet) ∧
      (v.data.isActive = true → v.data.unbondingAmount = 0) ∧
      (v.data.isActive = false → v.data.stakeAmount = 0) ∧
      v.data.unbondingAmount ≤ s.balance (.validator wallet) ∧
      ∀ pct : UInt8, pct.toNat ≤ 100 → slashOf v.data.atRisk pct ≤ s.balance (.validator wallet) ∧
        Γ.minimumBalance v.dataLen ≤ s.balance (.validator wallet) - slashOf v.data.atRisk pct := by
  have hbacked : Backed Γ s wallet := h.invariant (backed_of_none hnew) (fun _ _ _ ht hstep => hstep.backed ht)
  obtain ⟨hcover, hactive, hinactive⟩ := hbacked v hv
  simp only [ValidatorAccount.position] at hcover hactive hinactive
  refine ⟨hcover, hactive, hinactive, by omega, fun pct hpct => ?_⟩
  have hslash := slashOf_le hpct v.data.atRisk
  have hrisk : v.data.atRisk ≤ v.data.stakeAmount + v.data.unbondingAmount := by
    unfold ValidatorAccount.atRisk
    split <;> omega
  omega

/-- The operator of the sample run has two SOL unbonding at its end. -/
theorem stake_backed_sample : ∃ s v, Execution Sample.ctx Sample.genesis (Sample.settlement ++ Sample.exits) s ∧
    s.validators.lookup (.key Sample.operator) = some v ∧ v.data.unbondingAmount = 2000000000 ∧
    v.data.unbondingAmount ≤ s.balance (.validator (.key Sample.operator)) := by
  have hsucceeds : succeedsWith Sample.ctx Sample.genesis (Sample.settlement ++ Sample.exits)
      (fun s => (s.validators.lookup (.key Sample.operator)).any fun v => v.data.unbondingAmount = 2000000000) = true := by
    decide +kernel
  obtain ⟨s, hrun, hcheck⟩ := exists_execution hsucceeds
  obtain ⟨v, hv, hunbonding⟩ := (Option.any_eq_true _ _).mp hcheck
  exact ⟨s, v, hrun, hv, of_decide_eq_true hunbonding, (stake_backed hrun rfl hv).2.2.2.1⟩

end Paraloom
