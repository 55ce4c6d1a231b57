import Paraloom.Lemmas.Backing

/-!
# The unbonding delay

The life of a validator account in a run: it is opened by a registration, is active for a while, leaves the active set once,
and unbonds until it is closed. It is not closed before its deadline, and until then its lamports leave it only through
slashes.
-/

namespace Paraloom

open Option

variable {Γ : Ctx} {clock : Clock} {s s' : State} {w : Pubkey}

def Action.registers (w : Pubkey) : Action → Bool
  | .program _ (.registerValidator validator ..) => .key validator = w
  | _ => false

def Action.slashOn (w : Pubkey) : Action → UInt8
  | .program _ (.slashValidator _ wallet _ pct) => if wallet = w then pct else 0
  | _ => 0

def Action.clock? : Action → Option Clock
  | .program clock _ => some clock
  | _ => none

/-- A step that leaves the account of a wallet open. It is not a registration of the wallet, and if the account loses lamports
they go to the vault of the slashed funds. -/
structure StaysOpen (Γ : Ctx) (w : Pubkey) (s : State) (a : Action) (s' : State) : Prop where
  step : Step Γ s a s'
  registered : a.registers w = false
  lamports : s.balance (.validator w) ≤ s'.balance (.validator w) ∨
    ∃ n, s.lamports.Moved (.validator w) .slashedFundsVault n s'.lamports

/-- A step of an active account. -/
structure ActiveStep (Γ : Ctx) (w : Pubkey) (s : State) (a : Action) (s' : State) : Prop extends StaysOpen Γ w s a s' where
  active : ∃ p q, s.position w = some p ∧ s'.position w = some q ∧ p.isActive = true ∧ q.isActive = true

/-- The step in which an account leaves the active set, at a clock that sets its deadline. -/
structure ExitStep (Γ : Ctx) (w : Pubkey) (t : Clock) (s : State) (a : Action) (s' : State) : Prop
    extends StaysOpen Γ w s a s' where
  clock : a.clock? = some t
  leaves : ∃ p q, s.position w = some p ∧ s'.position w = some q ∧ p.isActive = true ∧ q.isActive = false ∧
    q.unbondingSlot = unbondingSlotAt t

/-- A step of an unbonding account: its deadline stays, and what unbonds is cut by a slash and by nothing else. -/
structure UnbondingStep (Γ : Ctx) (w : Pubkey) (t : Clock) (s : State) (a : Action) (s' : State) : Prop
    extends StaysOpen Γ w s a s' where
  unbonds : ∃ p q, s.position w = some p ∧ s'.position w = some q ∧ p.isActive = false ∧ q.isActive = false ∧
    p.unbondingSlot = unbondingSlotAt t ∧ q.unbondingSlot = unbondingSlotAt t ∧
    q.unbondingAmount = p.unbondingAmount - p.unbondingAmount * (a.slashOn w).toNat / 100

/-- A run in which a wallet has registered and has been active since. -/
inductive ActiveLife (Γ : Ctx) (s₀ : State) (w : Pubkey) : List Action → State → Prop where
  | register {as : List Action} {s s' : State} {a : Action} (run : Execution Γ s₀ as s) (step : Step Γ s a s')
      (registers : a.registers w = true) : ActiveLife Γ s₀ w (as ++ [a]) s'
  | step {as : List Action} {s s' : State} {a : Action} (life : ActiveLife Γ s₀ w as s) (active : ActiveStep Γ w s a s') :
      ActiveLife Γ s₀ w (as ++ [a]) s'

/-- A run in which a wallet has registered, was active, left the active set at a clock, and has been unbonding since. -/
inductive UnbondingLife (Γ : Ctx) (s₀ : State) (w : Pubkey) (t : Clock) : List Action → State → Prop where
  | exit {as : List Action} {s s' : State} {a : Action} (life : ActiveLife Γ s₀ w as s) (leaves : ExitStep Γ w t s a s') :
      UnbondingLife Γ s₀ w t (as ++ [a]) s'
  | step {as : List Action} {s s' : State} {a : Action} (life : UnbondingLife Γ s₀ w t as s)
      (unbonds : UnbondingStep Γ w t s a s') : UnbondingLife Γ s₀ w t (as ++ [a]) s'

namespace UnbondingDelayAux

/-- What can become of an open account in one step. -/
inductive Becomes (w : Pubkey) (a : Action) (p q : Position) : Prop where
  | active (before : p.isActive = true) (after : q.isActive = true)
  | leaves {t : Clock} (before : p.isActive = true) (after : q.isActive = false) (clock : a.clock? = some t)
      (deadline : q.unbondingSlot = unbondingSlotAt t)
  | unbonds (before : p.isActive = false) (after : q.isActive = false) (deadline : q.unbondingSlot = p.unbondingSlot)
      (amount : q.unbondingAmount = p.unbondingAmount - slashOf p.unbondingAmount (a.slashOn w))

theorem slashOf_zero : slashOf n 0 = 0 := by simp [slashOf]

theorem becomes_self (h : a.slashOn w = 0) : Becomes w a p p := by
  cases hactive : p.isActive with
  | true => exact .active hactive hactive
  | false => exact .unbonds hactive hactive rfl (by rw [h, slashOf_zero, Nat.sub_zero])

theorem position_write (h : s'.validators = s.validators.insert x v') :
    s'.position w = if w = x then some v'.data.position else s.position w := by
  rw [State.position, h, Table.lookup_insert_if]
  split
  · rfl
  · rfl

theorem position_of_lookup (h : s.validators.lookup w = some v) : s.position w = some v.data.position := by
  rw [State.position, h, map_some]

theorem becomes_slash {v : ValidatorAccount} {registry : ValidatorRegistry} (ha : a.clock? = some clock)
    (hpct : a.slashOn w = pct) : Becomes w a v.position (v.slash registry.minimumStake pct clock).position := by
  rcases slash_cases v registry pct clock with ⟨hinactive, -, hp⟩ | ⟨hactive, -, -, hp⟩ | ⟨hactive, -, hp⟩
  · rw [hp]
    exact .unbonds hinactive hinactive rfl (by rw [hpct]; rfl)
  · rw [hp]
    exact .active hactive hactive
  · rw [hp]
    exact .leaves hactive rfl ha rfl

/-- A step that writes one account leaves the account of `w` open, if it does to it what can become of it. -/
theorem open_of_write (hp : s.position w = some p) (hstep : Step Γ s a s') (hregisters : a.registers w = false)
    (hv : s.validators.lookup x = some v) (hwrite : s'.validators = s.validators.insert x v')
    (hlamports : s.balance (.validator w) ≤ s'.balance (.validator w) ∨
      ∃ n, s.lamports.Moved (.validator w) .slashedFundsVault n s'.lamports)
    (hself : w = x → Becomes w a v.data.position v'.data.position) (hother : w ≠ x → a.slashOn w = 0) :
    StaysOpen Γ w s a s' ∧ ∃ q, s'.position w = some q ∧ Becomes w a p q := by
  refine ⟨⟨hstep, hregisters, hlamports⟩, ?_⟩
  by_cases hw : w = x
  · refine ⟨_, (position_write hwrite).trans (if_pos hw), ?_⟩
    rw [hw, position_of_lookup hv, some.injEq] at hp
    rw [← hp]
    exact hself hw
  · exact ⟨p, (position_write hwrite).trans ((if_neg hw).trans hp), becomes_self (hother hw)⟩

/-- A step either closes an open account or leaves it open in one of these ways. -/
theorem open_step {p : Position} (hp : s.position w = some p) (hstep : Step Γ s a s') :
    s'.position w = none ∨ (StaysOpen Γ w s a s' ∧ ∃ q, s'.position w = some q ∧ Becomes w a p q) := by
  have hsame : a.registers w = false → a.slashOn w = 0 → s'.position w = s.position w →
      s.balance (.validator w) ≤ s'.balance (.validator w) →
      s'.position w = none ∨ (StaysOpen Γ w s a s' ∧ ∃ q, s'.position w = some q ∧ Becomes w a p q) :=
    fun hregisters hslash hpos hlamports =>
      Or.inr ⟨⟨hstep, hregisters, Or.inl hlamports⟩, p, hpos.trans hp, becomes_self hslash⟩
  cases hstep.stakeStep with
  | quiet hother hkept =>
    refine hsame ?_ ?_ (hkept.position w) (hkept.lamports w)
    · unfold Action.registers
      split
      · cases hother
      · rfl
    · unfold Action.slashOn
      split
      · cases hother
      · rfl
  | create hok =>
    obtain ⟨-, -, _, _, _, _, _, -, -, -, hpay0, hpay1, rfl⟩ := initializeValidatorRegistry_ok hok
    exact hsame rfl rfl rfl ((hpay0.le_balance (by simp)).trans (hpay1.le_balance (by simp)))
  | reset hok =>
    obtain ⟨_, _, _, _, -, -, -, -, -, -, hpay, rfl⟩ := resetValidatorRegistry_ok hok
    exact hsame rfl rfl rfl (hpay.le_balance (by simp))
  | @register _ _ validator _ _ _ hok =>
    obtain ⟨hnew, -, _, _, _, _, _, _, _, -, hrent, -, hpay, -, -, -, -, rfl⟩ := registerValidator_ok hok
    have hne : w ≠ .key validator := by
      rintro rfl
      rw [State.position, hnew] at hp
      cases hp
    refine hsame (decide_eq_false (Ne.symm hne)) rfl ?_ ((hrent.le_balance (by simp)).trans (hpay.le_balance (by simp)))
    rw [position_write rfl, if_neg hne]
  | unregister hok =>
    obtain ⟨v, _, hv, -, hactive, rfl⟩ := unregisterValidator_ok hok
    exact .inr (open_of_write hp hstep rfl hv rfl (.inl le_rfl) (fun _ => .leaves hactive rfl rfl rfl) (fun _ => rfl))
  | deactivate hok =>
    obtain ⟨v, _, hv, -, ⟨-, rfl⟩ | ⟨hactive, rfl⟩⟩ := deactivateValidator_ok hok
    · exact hsame rfl rfl rfl le_rfl
    · exact .inr (open_of_write hp hstep rfl hv rfl (.inl le_rfl) (fun _ => .leaves hactive rfl rfl rfl)
        (fun _ => rfl))
  | @withdraw _ _ validator _ hok =>
    obtain ⟨_, _, _, _, _, _, -, -, -, -, -, -, -, hpay, hclose, -, rfl⟩ := withdrawUnbondedStake_ok hok
    by_cases hw : w = .key validator
    · left
      simp only [State.position, Table.lookup_erase_if, if_pos hw, map_none]
    · have hne : Pubkey.validator w ≠ .validator (.key validator) := by simpa using hw
      refine hsame rfl rfl ?_ ((hpay.le_balance hne).trans (hclose.le_balance hne))
      simp only [State.position, Table.lookup_erase_if, if_neg hw]
  | @slash _ _ _ wallet _ pct hok =>
    obtain ⟨v, registry, lamports, _, hv, -, -, -, hpay, -, rfl⟩ := slashValidator_ok hok
    refine .inr (open_of_write hp hstep rfl hv rfl ?_ (fun hw => becomes_slash rfl (if_pos hw.symm))
      (fun hw => if_neg (Ne.symm hw)))
    by_cases hw : w = wallet
    · subst hw
      exact .inr ⟨_, hpay⟩
    · exact .inl (hpay.le_balance (by simpa using hw))

theorem opened_by_register (hnone : s.position w = none) (hq : s'.position w = some q) (hstep : Step Γ s a s') :
    a.registers w = true ∧ q.isActive = true := by
  have hnot : s'.position w = s.position w → a.registers w = true ∧ q.isActive = true :=
    fun hsame => absurd (hsame.trans hnone) (by simp [hq])
  have hother : ∀ x v, s.validators.lookup x = some v → w ≠ x := by
    rintro x v hv rfl
    rw [position_of_lookup hv] at hnone
    cases hnone
  cases hstep.stakeStep with
  | quiet _ hkept => exact hnot (hkept.position w)
  | create hok =>
    obtain ⟨-, -, _, _, _, _, _, -, -, -, -, -, rfl⟩ := initializeValidatorRegistry_ok hok
    exact hnot rfl
  | reset hok =>
    obtain ⟨_, _, _, _, -, -, -, -, -, -, -, rfl⟩ := resetValidatorRegistry_ok hok
    exact hnot rfl
  | @register _ _ validator _ _ _ hok =>
    obtain ⟨-, -, _, _, _, _, _, _, _, -, -, -, -, -, -, -, -, rfl⟩ := registerValidator_ok hok
    by_cases hw : w = .key validator
    · rw [position_write rfl, if_pos hw, some.injEq] at hq
      exact ⟨decide_eq_true hw.symm, by rw [← hq]; rfl⟩
    · exact hnot ((position_write rfl).trans (if_neg hw))
  | unregister hok =>
    obtain ⟨v, _, hv, -, -, rfl⟩ := unregisterValidator_ok hok
    exact hnot ((position_write rfl).trans (if_neg (hother _ v hv)))
  | deactivate hok =>
    obtain ⟨v, _, hv, -, ⟨-, rfl⟩ | ⟨-, rfl⟩⟩ := deactivateValidator_ok hok
    · exact hnot rfl
    · exact hnot ((position_write rfl).trans (if_neg (hother _ v hv)))
  | withdraw hok =>
    obtain ⟨v, _, _, _, _, _, hv, -, -, -, -, -, -, -, -, -, rfl⟩ := withdrawUnbondedStake_ok hok
    refine hnot ?_
    simp only [State.position, Table.lookup_erase_if, if_neg (hother _ v hv)]
  | slash hok =>
    obtain ⟨v, _, _, _, hv, -, -, -, -, -, rfl⟩ := slashValidator_ok hok
    exact hnot ((position_write rfl).trans (if_neg (hother _ v hv)))

/-- Where an open account is in its life. -/
def InLife (Γ : Ctx) (s₀ : State) (w : Pubkey) (actions : List Action) (s : State) : Prop :=
  ∀ p, s.position w = some p →
    (p.isActive = true ∧ ActiveLife Γ s₀ w actions s) ∨
      (p.isActive = false ∧ ∃ t, UnbondingLife Γ s₀ w t actions s ∧ p.unbondingSlot = unbondingSlotAt t)

theorem inLife_open (hp : s.position w = some p) (hq : s'.position w = some q) (hopen : StaysOpen Γ w s a s')
    (hbecomes : Becomes w a p q) (h : InLife Γ s₀ w actions s) :
    (q.isActive = true ∧ ActiveLife Γ s₀ w (actions ++ [a]) s') ∨
      (q.isActive = false ∧ ∃ t, UnbondingLife Γ s₀ w t (actions ++ [a]) s' ∧ q.unbondingSlot = unbondingSlotAt t) := by
  rcases h p hp with ⟨hactive, hlife⟩ | ⟨hinactive, t, hlife, hdeadline⟩
  · cases hbecomes with
    | active before after =>
      exact .inl ⟨after, hlife.step ⟨hopen, p, q, hp, hq, before, after⟩⟩
    | @leaves t before after hclock deadline =>
      exact .inr ⟨after, t, .exit hlife ⟨hopen, hclock, p, q, hp, hq, before, after, deadline⟩, deadline⟩
    | unbonds before => exact absurd (hactive.symm.trans before) (by simp)
  · cases hbecomes with
    | active before | leaves before => exact absurd (before.symm.trans hinactive) (by simp)
    | unbonds before after deadline amount =>
      have hkept := deadline.trans hdeadline
      exact .inr ⟨after, t, hlife.step ⟨hopen, p, q, hp, hq, before, after, hdeadline, hkept, amount⟩, hkept⟩

/-- In a run that starts before a wallet registers, its open account is in its life. -/
theorem inLife_of_execution (hnew : s₀.position w = none) (h : Execution Γ s₀ actions s) : InLife Γ s₀ w actions s := by
  refine h.induction (P := fun as t => InLife Γ s₀ w as t) ?_ ?_
  · intro p hp
    exact absurd (hnew.symm.trans hp) (by simp)
  · intro as t a u hrun ih hstep q hq
    cases hp : t.position w with
    | none =>
      obtain ⟨hregisters, hactive⟩ := opened_by_register hp hq hstep
      exact .inl ⟨hactive, .register hrun hstep hregisters⟩
    | some p =>
      rcases open_step hp hstep with hclosed | ⟨hopen, q', hq', hbecomes⟩
      · exact absurd (hclosed.symm.trans hq) (by simp)
      · rw [hq', some.injEq] at hq
        subst hq
        exact inLife_open hp hq' hopen hbecomes ih

end UnbondingDelayAux

/-- A successful `withdraw_unbonded_stake` in a run that starts before the wallet registers. Since its last registration the
validator was active, left the active set at a slot that lies the unbonding delay back, or as far as 64 bits of slots allow,
and has been unbonding since; its lamports left its account only through slashes, and each slash cut what unbonds by its
percentage. -/
theorem withdraw_after_unbonding {s₀ : State} {actions : List Action} {validator : Signer} {account : Pubkey}
    (hnew : s₀.validators.lookup (.key validator) = none) (h : Execution Γ s₀ actions s)
    (hwithdraw : Step Γ s (.program clock (.withdrawUnbondedStake validator account)) s') :
    ∃ p t, s.position (.key validator) = some p ∧ p.isActive = false ∧
      UnbondingLife Γ s₀ (.key validator) t actions s ∧
      min (t.slot.toNat + unbondingSlots) (2 ^ 64 - 1) ≤ clock.slot.toNat := by
  obtain ⟨v, _, _, _, _, _, hv, -, -, -, hexit, hslot, -⟩ := withdrawUnbondedStake_ok hwithdraw
  have hbacked : Backed Γ s (.key validator) :=
    h.invariant (backed_of_none hnew) (fun _ _ _ ht hstep => hstep.backed ht)
  have hinactive := withdraw_inactive (hbacked v hv) hexit
  have hp := UnbondingDelayAux.position_of_lookup hv
  have hstart : s₀.position (.key validator) = none := by rw [State.position, hnew, map_none]
  rcases UnbondingDelayAux.inLife_of_execution hstart h _ hp with ⟨hactive, -⟩ | ⟨-, t, hlife, hdeadline⟩
  · exact absurd (hactive.symm.trans hinactive) (by simp)
  · refine ⟨_, t, hp, hinactive, hlife, ?_⟩
    exact (Nat.le_of_eq hdeadline.symm).trans hslot

namespace UnbondingDelayAux

def lastSlot : List Action := [ .program ⟨12, 0⟩ (.initializeValidatorRegistry Sample.operator Sample.mint),
  .program ⟨13, 0⟩ (.registerValidator Sample.operator Sample.operatorTokens 2000000000 1000000000000),
  .program ⟨18446744073709551615, 0⟩ (.unregisterValidator Sample.operator)]

/-- It leaves the active set at that slot and at no other. -/
theorem exit_lastSlot (h : UnbondingLife Γ s' (.key Sample.operator) t lastSlot s) : t = ⟨18446744073709551615, 0⟩ := by
  generalize hactions : lastSlot = actions at h
  have hlast : ∀ as a, lastSlot = as ++ [a] →
      a = .program ⟨18446744073709551615, 0⟩ (.unregisterValidator Sample.operator) := by
    intro as a heq
    have := congrArg List.getLast? heq
    rw [List.getLast?_concat] at this
    exact (some.inj this).symm
  cases h with
  | exit life leaves =>
    have hclock := leaves.clock
    rw [hlast _ _ hactions] at hclock
    exact (some.inj hclock).symm
  | step life unbonds =>
    -- only an active validator can unregister
    have hstep := unbonds.step
    obtain ⟨p, q, hp, -, hinactive, -⟩ := unbonds.unbonds
    rw [hlast _ _ hactions] at hstep
    obtain ⟨v, _, hv, -, hactive, -⟩ := unregisterValidator_ok hstep
    rw [position_of_lookup hv, some.injEq] at hp
    rw [← hp] at hinactive
    exact absurd (hactive.symm.trans hinactive) (by simp)

end UnbondingDelayAux

open UnbondingDelayAux

/-- At the end of the 64-bit slots the deadline is clamped: a validator that unregisters at the last slot withdraws at once. -/
theorem withdraw_at_last_slot : ∃ s s', Execution Sample.ctx Sample.genesis UnbondingDelayAux.lastSlot s ∧
    Step Sample.ctx s (.program ⟨18446744073709551615, 0⟩ (.withdrawUnbondedStake Sample.operator Sample.operatorTokens)) s' ∧
    ¬ ∃ t, UnbondingLife Sample.ctx Sample.genesis (.key Sample.operator) t UnbondingDelayAux.lastSlot s ∧
      t.slot.toNat + unbondingSlots ≤ 18446744073709551615 := by
  have hsucceeds : succeedsWith Sample.ctx Sample.genesis (lastSlot ++
      [.program ⟨18446744073709551615, 0⟩ (.withdrawUnbondedStake Sample.operator Sample.operatorTokens)])
      (fun _ => true) = true := by decide +kernel
  obtain ⟨s', hrun, -⟩ := exists_execution hsucceeds
  obtain ⟨s, hbefore, hstep⟩ := Run.last_step hrun
  refine ⟨s, s', hbefore, hstep, ?_⟩
  rintro ⟨t, hlife, hslot⟩
  rw [exit_lastSlot hlife] at hslot
  exact absurd hslot (by decide)

/-- The theorem at the end of the sample run, where the cosigner was slashed out at slot 19. -/
theorem withdraw_after_unbonding_sample : ∃ s s', ∃ p t,
    Step Sample.ctx s (.program ⟨216019, 0⟩ (.withdrawUnbondedStake Sample.cosigner Sample.cosignerTokens)) s' ∧
      s.position (.key Sample.cosigner) = some p ∧ p.isActive = false ∧
      UnbondingLife Sample.ctx Sample.genesis (.key Sample.cosigner) t (Sample.settlement ++ Sample.exits.take 3) s ∧
      min (t.slot.toNat + unbondingSlots) (2 ^ 64 - 1) ≤ 216019 := by
  have hsucceeds : succeedsWith Sample.ctx Sample.genesis ((Sample.settlement ++ Sample.exits.take 3) ++
      [.program ⟨216019, 0⟩ (.withdrawUnbondedStake Sample.cosigner Sample.cosignerTokens)]) (fun _ => true) = true := by
    decide +kernel
  obtain ⟨s', hrun, -⟩ := exists_execution hsucceeds
  obtain ⟨s, hbefore, hstep⟩ := Run.last_step hrun
  obtain ⟨p, t, hp, hinactive, hlife, hslot⟩ := withdraw_after_unbonding (AList.lookup_empty _) hbefore hstep
  exact ⟨s, s', p, t, hstep, hp, hinactive, hlife, hslot⟩

end Paraloom
