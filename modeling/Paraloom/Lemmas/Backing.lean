import Paraloom.Lemmas.Stake

/-!
# The lamports behind a stake

The stake of a validator is held by its account itself, on top of the rent. A step of the chain never breaks this, whatever
order a validator is slashed, deactivated and paid out in.
-/

namespace Paraloom

variable {Γ : Ctx} {clock : Clock} {s s' : State} {w : Pubkey}

/-- A position that lamports cover on top of the rent, and that stands on one side only: an active account has nothing
unbonding and an inactive one no stake. -/
structure Position.Covered (p : Position) (rent lamports : Nat) : Prop where
  lamports : rent + p.stakeAmount + p.unbondingAmount ≤ lamports
  active : p.isActive = true → p.unbondingAmount = 0
  inactive : p.isActive = false → p.stakeAmount = 0

/-- The account of a wallet, if it has one, covers its position. -/
def Backed (Γ : Ctx) (s : State) (w : Pubkey) : Prop :=
  ∀ v, s.validators.lookup w = some v →
    v.data.position.Covered (Γ.minimumBalance v.dataLen) (s.balance (.validator w))

namespace BackingAux

theorem covered_mono {p : Position} (h : p.Covered rent lamports) (hle : lamports + rent' ≤ lamports' + rent) :
    p.Covered rent' lamports' := by
  refine ⟨?_, h.active, h.inactive⟩
  have := h.lamports
  omega

theorem covered_unbonding {p q : Position} (h : p.Covered rent lamports) (hactive : p.isActive = true)
    (hsplit : stake + taken = p.stakeAmount) (hq : q.isActive = false) (hstake : q.stakeAmount = 0)
    (hunbonding : q.unbondingAmount = Checked.satAdd p.unbondingAmount stake) : q.Covered rent (lamports - taken) := by
  refine ⟨?_, fun hact => absurd (hact.symm.trans hq) (by simp), fun _ => hstake⟩
  have hsat := Checked.satAdd_le p.unbondingAmount stake
  have hcover := h.lamports
  have hzero := h.active hactive
  omega

/-- The accounts stay as they are and lose no lamports. -/
theorem backed_of_same (h : Backed Γ s w) (hv : s'.validators = s.validators)
    (hl : s.balance (.validator w) ≤ s'.balance (.validator w)) : Backed Γ s' w := by
  intro v hlookup
  rw [hv] at hlookup
  exact covered_mono (h v hlookup) (Nat.add_le_add_right hl _)

/-- One account is written, and the others lose no lamports. -/
theorem backed_of_write (h : Backed Γ s w) (hv : s'.validators = s.validators.insert x v')
    (hl : w ≠ x → s.balance (.validator w) ≤ s'.balance (.validator w))
    (hx : w = x → v'.data.position.Covered (Γ.minimumBalance v'.dataLen) (s'.balance (.validator x))) : Backed Γ s' w := by
  intro v hlookup
  rw [hv] at hlookup
  rcases Table.lookup_insert_eq_some.mp hlookup with ⟨rfl, rfl⟩ | ⟨hw, hlookup⟩
  · exact hx rfl
  · exact covered_mono (h v hlookup) (Nat.add_le_add_right (hl hw) _)

theorem backed_quiet (hkept : StakeKept Γ s s') (h : Backed Γ s w) : Backed Γ s' w := by
  intro v' hlookup'
  obtain ⟨v, hlookup, hsame⟩ := hkept.account hlookup'
  rw [← hsame]
  exact covered_mono (h v hlookup) (hkept.rent w v v' hlookup hlookup')

theorem backed_register (hok : registerValidator Γ clock s validator account stake tokenStake = .ok s') (h : Backed Γ s w) :
    Backed Γ s' w := by
  obtain ⟨-, -, _, _, _, due, lamports0, lamports, _, -, hrent, hdue, hpay, -, -, -, -, rfl⟩ := registerValidator_ok hok
  refine backed_of_write h rfl (fun _ => (hrent.le_balance (by simp)).trans (hpay.le_balance (by simp))) (fun _ => ?_)
  have h0 := hrent.balance_target (by simp)
  have h1 := hpay.balance_target (by simp)
  refine ⟨?_, fun _ => rfl, by simp [ValidatorAccount.registered, ValidatorAccount.position]⟩
  simp only [ValidatorAccount.registered, ValidatorAccount.position, State.balance] at hdue ⊢
  omega

theorem backed_unregister (hok : unregisterValidator clock s validator = .ok s') (h : Backed Γ s w) : Backed Γ s' w := by
  obtain ⟨v, _, hv, -, hactive, rfl⟩ := unregisterValidator_ok hok
  refine backed_of_write h rfl (fun _ => Nat.le_refl _) (fun hw => ?_)
  subst hw
  exact covered_unbonding (h v hv) hactive (Nat.add_zero _) rfl rfl rfl

theorem backed_deactivate (hok : deactivateValidator clock s authority wallet = .ok s') (h : Backed Γ s w) : Backed Γ s' w := by
  obtain ⟨v, _, hv, -, ⟨-, rfl⟩ | ⟨hactive, rfl⟩⟩ := deactivateValidator_ok hok
  · exact h
  · refine backed_of_write h rfl (fun _ => Nat.le_refl _) (fun hw => ?_)
    subst hw
    exact covered_unbonding (h v hv) hactive (Nat.add_zero _) rfl rfl rfl

theorem backed_withdraw (hok : withdrawUnbondedStake Γ clock s validator account = .ok s') (h : Backed Γ s w) :
    Backed Γ s' w := by
  obtain ⟨_, _, _, lamports0, _, _, -, -, -, -, -, -, -, hpay, hclose, -, rfl⟩ := withdrawUnbondedStake_ok hok
  intro v hlookup
  simp only [Table.lookup_erase_if] at hlookup
  split at hlookup
  · cases hlookup
  · rename_i hw
    have hne : Pubkey.validator w ≠ .validator (.key validator) := by simpa using hw
    exact covered_mono (h v hlookup) (Nat.add_le_add_right ((hpay.le_balance hne).trans (hclose.le_balance hne)) _)

/-- What is left of a position after a slash is covered by what is left of its lamports. -/
theorem covered_slash {v : ValidatorAccount} {registry : ValidatorRegistry} (hpct : pct.toNat ≤ 100)
    (h : v.position.Covered rent lamports) :
    (v.slash registry.minimumStake pct clock).position.Covered rent (lamports - slashOf v.atRisk pct) := by
  have hcover := h.lamports
  rcases slash_cases v registry pct clock with ⟨hinactive, -, hp⟩ | ⟨hactive, -, -, hp⟩ | ⟨hactive, -, hp⟩
  · have hle := slashOf_le hpct v.unbondingAmount
    have hzero := h.inactive hinactive
    rw [hp]
    refine ⟨?_, fun hact => absurd (hact.symm.trans hinactive) (by simp), fun _ => hzero⟩
    simp only [ValidatorAccount.atRisk, hinactive, ValidatorAccount.position, Bool.false_eq_true, if_false] at hcover hzero ⊢
    omega
  · have hle := slashOf_le hpct v.stakeAmount
    rw [hp]
    refine ⟨?_, fun _ => h.active hactive, fun hinact => absurd (hactive.symm.trans hinact) (by simp)⟩
    simp only [ValidatorAccount.atRisk, hactive, ValidatorAccount.position, if_true] at hcover ⊢
    omega
  · have hle := slashOf_le hpct v.stakeAmount
    rw [hp, ValidatorAccount.atRisk, if_pos hactive]
    exact covered_unbonding h hactive (Nat.sub_add_cancel hle) rfl rfl rfl

theorem backed_slash {wallet validator : Pubkey} (hok : slashValidator clock s authority wallet validator pct = .ok s')
    (h : Backed Γ s w) : Backed Γ s' w := by
  obtain ⟨v, registry, lamports, _, hv, -, -, hpct, hpay, -, rfl⟩ := slashValidator_ok hok
  refine backed_of_write h rfl (fun hw => hpay.le_balance (by simpa using hw)) (fun hw => ?_)
  subst hw
  have hleft := hpay.balance_source (by simp)
  refine covered_mono (covered_slash hpct (h v hv)) ?_
  simp only [State.balance]
  omega

end BackingAux

open BackingAux

theorem Step.backed (hstep : Step Γ s a s') (h : Backed Γ s w) : Backed Γ s' w := by
  cases hstep.stakeStep with
  | quiet _ hkept => exact backed_quiet hkept h
  | create hok =>
    obtain ⟨-, -, _, _, _, _, _, -, -, -, hpay0, hpay1, rfl⟩ := initializeValidatorRegistry_ok hok
    exact backed_of_same h rfl ((hpay0.le_balance (by simp)).trans (hpay1.le_balance (by simp)))
  | reset hok =>
    obtain ⟨_, _, _, _, -, -, -, -, -, -, hpay, rfl⟩ := resetValidatorRegistry_ok hok
    exact backed_of_same h rfl (hpay.le_balance (by simp))
  | register hok => exact backed_register hok h
  | unregister hok => exact backed_unregister hok h
  | deactivate hok => exact backed_deactivate hok h
  | withdraw hok => exact backed_withdraw hok h
  | slash hok => exact backed_slash hok h

/-- Only an inactive account passes the exit check of `withdraw_unbonded_stake`. -/
theorem withdraw_inactive {v : ValidatorAccount} (h : v.position.Covered rent lamports)
    (hexit : 0 < v.unbondingAmount ∨ v.unbondingAmount = 0 ∧ v.isActive = false ∧ v.stakeAmount = 0 ∧ 0 < v.unbondingSlot) :
    v.isActive = false := by
  rcases hexit with hpos | ⟨-, hinactive, -⟩
  · by_contra hactive
    rw [Bool.not_eq_false] at hactive
    have hzero : v.unbondingAmount = 0 := h.active hactive
    omega
  · exact hinactive

/-- A wallet without an account is backed. -/
theorem backed_of_none (h : s.validators.lookup w = none) : Backed Γ s w := fun v hv => absurd (h.symm.trans hv) (by simp)

end Paraloom
