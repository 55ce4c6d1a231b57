import Paraloom.Lemmas.ReconcileTool

/-!
# The reconcile tool converges

Whatever the interrupted runs of the tool have left behind, a complete run leaves exactly the keep-set active, and the counters
of the registry are those of the active validators. No kept stake changes, and the stake of a validator that the tool
deactivates is in its unbonding amount.
-/

namespace Paraloom.OffChain

open Option Checked

variable {Γ : Ctx} {s s' t u : State} {tool : ReconcileTool} {sent : Set Instruction}

/-- The counters of the registry are the sum of the active stakes, as far as it fits 64 bits, and the number of the active
validators. -/
def CountersClamped (s : State) : Prop :=
  ∃ registry, s.validatorRegistry = some registry ∧
    registry.data.totalActiveStake = min s.activeStakeSum u64Max ∧ registry.data.activeValidators = s.activeCount

/-- Exactly the wallets of the keep-set are active validators. -/
def ReconcileTool.OnlyKept (tool : ReconcileTool) (s : State) : Prop := ∀ w, IsActive s w ↔ w ∈ tool.keep

namespace ReconcileToolAux

/-- Once only the kept are active, nothing that is sent moves a stake. -/
theorem position_of_onlyKept (hs : tool.OnlyKept s) (h : ToolStep Γ tool s s') : s'.position w = s.position w := by
  rcases moved_step h w with hsame | ⟨hout, p, _, hp, -, hactive, -⟩
  · exact hsame
  · exact absurd ((hs w).mp (isActive_iff.mpr ⟨p, hp, hactive⟩)) hout

theorem onlyKept_step (hs : tool.OnlyKept s) (h : ToolStep Γ tool s s') : tool.OnlyKept s' := fun w =>
  (isActive_congr (position_of_onlyKept hs h)).trans (hs w)

theorem countersClamped_reset {ws : List Pubkey} (hs : tool.OnlyKept s) (nodup : ws.Nodup) (listed : ws.toFinset = tool.keep)
    (validators : s'.validators = s.validators) (rebuilt : s'.validatorRegistry = some registry)
    (total : registry.data.totalActiveStake = min (ws.map s.activeStakeOf).sum u64Max)
    (active : registry.data.activeValidators = ws.length) : CountersClamped s' := by
  have hws : ∀ w, w ∈ ws ↔ IsActive s w := fun w => by rw [hs w, ← listed, List.mem_toFinset]
  obtain ⟨hstake, hcount⟩ := ReconcileAux.sums_of_active nodup hws
  refine ⟨registry, rebuilt, ?_, ?_⟩
  · rw [total, ← hstake, State.activeStakeSum, State.activeStakeSum, validators]
  · rw [active, ← hcount, State.activeCount, State.activeCount, validators]

theorem countersClamped_step (hs : tool.OnlyKept s) (hclamped : CountersClamped s) (h : ToolStep Γ tool s s') :
    CountersClamped s' := by
  cases h with
  | quiet kept =>
    obtain ⟨registry, hr, htotal, hactive⟩ := hclamped
    have hsum : s'.activeStakeSum = s.activeStakeSum := kept.total fun p => if p.isActive then p.stakeAmount else 0
    have hnumber : s'.activeCount = s.activeCount := kept.total fun p => if p.isActive then 1 else 0
    have hcounters := kept.counters
    rw [State.counters, State.counters, hr, map_some, map_eq_some_iff] at hcounters
    obtain ⟨registry', hr', heq⟩ := hcounters
    simp only [Prod.mk.injEq] at heq
    obtain ⟨hactive', htotal', -⟩ := heq
    refine ⟨registry', hr', ?_, ?_⟩
    · rw [htotal', htotal, hsum]
    · rw [hactive', hactive, hnumber]
  | deactivate out before active _ => exact absurd ((hs _).mp ⟨_, before, active⟩) out
  | reset nodup listed validators rebuilt total active =>
    exact countersClamped_reset hs nodup listed validators rebuilt total active

theorem inactive_of_deactivate (h : Step Γ s (.program clock (.deactivateValidator authority w)) s') : ¬ IsActive s' w := by
  obtain ⟨v, _, hv, -, ⟨hinactive, rfl⟩ | ⟨-, rfl⟩⟩ := deactivateValidator_ok h
  all_goals
    rintro ⟨y, hy, hactive⟩
  · rw [hv, some.injEq] at hy
    rw [← hy, hinactive] at hactive
    cases hactive
  · rw [AList.lookup_insert, some.injEq] at hy
    rw [← hy] at hactive
    cases hactive

/-- What holds between the runs: the accounts can be read, every stake is where it was or has been moved into unbonding, and
only instructions of the tool are under way. -/
theorem interrupted_inv (hread : AllReadable s) (h : tool.Interrupted Γ s sent t) :
    AllReadable t ∧ (∀ w, Moved tool w (s.position w) (t.position w)) ∧ ∀ ix ∈ sent, tool.Sendable ix := by
  induction h with
  | none => exact ⟨hread, fun w => .inl rfl, by simp⟩
  | @again sent t _ plan started as before planned broke sends run ih =>
    obtain ⟨hreadT, hmoved, hsent⟩ := ih
    have hsendable : ∀ ix ∈ sent ∪ {ix | ix ∈ started}, tool.Sendable ix := by
      rintro ix (hix | hix)
      · exact hsent ix hix
      · exact sendable_of_plan hreadT planned ix (broke.subset hix)
    have hallowed : ∀ a ∈ as, tool.Allowed a := fun a ha => (sends.seen a ha).mono hsendable
    refine ⟨run.invariant hreadT fun _ _ _ ht hstep => ht.step hstep, fun w => ?_, hsendable⟩
    exact (hmoved w).trans (moved_run run hallowed w)

theorem onlyKept_of_deactivations (hread : AllReadable s) (hkeep : ∀ w ∈ tool.keep, IsActive s w) (hrun : Execution Γ s as s')
    (hallowed : ∀ a ∈ as, tool.Allowed a)
    (harrived : ∀ ix ∈ tool.deactivateInstructions (validatorRows Γ s), ∃ a ∈ as, ReconcileTool.Carries ix a) :
    tool.OnlyKept s' := by
  intro w
  by_cases hw : w ∈ tool.keep
  · refine iff_of_true ?_ hw
    rcases moved_run hrun hallowed w with hsame | ⟨hout, -⟩
    · exact (isActive_congr hsame).mpr (hkeep w hw)
    · exact absurd hw hout
  · refine iff_of_false ?_ hw
    have hstays : ∀ t a u, tool.Allowed a → ¬ IsActive t w → Step Γ t a u → ¬ IsActive u w := fun _ _ _ ha ht hstep =>
      inactive_step (toolStep ha hstep) ht
    by_cases hactive : IsActive s w
    · obtain ⟨a, ha, clock, rfl⟩ := harrived _ (deactivation_mem hread hactive hw)
      exact hrun.established (P := fun t => ¬ IsActive t w) (Q := fun _ => True) hallowed ha trivial (fun _ _ _ _ _ _ => trivial)
        (fun _ _ _ hstep => inactive_of_deactivate hstep) hstays
    · exact hrun.invariant_of (P := fun t => ¬ IsActive t w) hallowed hactive hstays

/-- When the rebuilding of the registry has arrived as well, the counters are right. -/
theorem countersClamped_of_reset (hs : tool.OnlyKept s) (nodup : ws.Nodup) (listed : ws.toFinset = tool.keep)
    (hrun : Execution Γ s as s') (hallowed : ∀ a ∈ as, tool.Allowed a)
    (harrived : ∃ a ∈ as, ReconcileTool.Carries (tool.resetInstruction ws) a) : tool.OnlyKept s' ∧ CountersClamped s' := by
  obtain ⟨a, ha, clock, rfl⟩ := harrived
  have hkept : ∀ t b u, tool.Allowed b → tool.OnlyKept t → Step Γ t b u → tool.OnlyKept u := fun _ _ _ hb ht hstep =>
    onlyKept_step ht (toolStep hb hstep)
  refine hrun.established (P := fun t => tool.OnlyKept t ∧ CountersClamped t) hallowed ha hs hkept ?_ ?_
  · intro t u ht hstep
    obtain ⟨hsame, registry, hrebuilt, htotal, hactive⟩ := reset_ok nodup listed hstep
    exact ⟨hkept t _ u (.inr ⟨_, .reset nodup listed, clock, rfl⟩) ht hstep,
      countersClamped_reset ht nodup listed hsame hrebuilt htotal hactive⟩
  · rintro t b u hb ⟨ht, hclamped⟩ hstep
    exact ⟨hkept t b u hb ht hstep, countersClamped_step ht hclamped (toolStep hb hstep)⟩

theorem complete_inv (hread : AllReadable t) (hsent : ∀ ix ∈ sent, tool.Sendable ix) (h : tool.Complete Γ sent t u) :
    (∀ w, Moved tool w (t.position w) (u.position w)) ∧ tool.OnlyKept u ∧ CountersClamped u := by
  obtain ⟨plan, as, hplan, hsends, hrun⟩ := h
  have hallowed : ∀ a ∈ as, tool.Allowed a := by
    refine fun a ha => (hsends.seen a ha).mono ?_
    rintro ix (hix | hix)
    · exact hsent ix hix
    · exact sendable_of_plan hread hplan ix hix
  refine ⟨moved_run hrun hallowed, ?_⟩
  obtain ⟨rfl, hkeep⟩ := plan_ok hread hplan
  -- the registry is rebuilt after all the others have arrived
  obtain ⟨bs, cs, _, rfl, hfirst, hlast⟩ := hsends.split
  obtain ⟨r, hbs, hcs⟩ := hrun.split
  have honly : tool.OnlyKept r :=
    onlyKept_of_deactivations hread hkeep hbs (fun a ha => hallowed a (List.mem_append_left _ ha))
      fun ix hix => hfirst.arrives trivial (List.mem_append_right _ hix)
  exact countersClamped_of_reset honly (keepWallets_nodup hread) (keepWallets_toFinset hread hkeep) hcs
    (fun a ha => hallowed a (List.mem_append_right _ ha)) (hlast.arrives trivial (List.mem_singleton.mpr rfl))

theorem Moved.account (h : Moved tool w (s.position w) (s'.position w)) (hv : s.validators.lookup w = some v) :
    ∃ v', s'.validators.lookup w = some v' ∧
      (v'.data.position = v.data.position ∨ w ∉ tool.keep ∧ Withdrawn v.data.position v'.data.position) := by
  have hp : s.position w = some v.data.position := by rw [State.position, hv, map_some]
  rcases h with hsame | ⟨hout, p, p', hbefore, hafter, hw⟩
  · rw [hp, State.position, map_eq_some_iff] at hsame
    obtain ⟨v', hv', hpos⟩ := hsame
    exact ⟨v', hv', Or.inl hpos⟩
  · rw [hp, some.injEq] at hbefore
    rw [State.position, map_eq_some_iff] at hafter
    obtain ⟨v', hv', rfl⟩ := hafter
    exact ⟨v', hv', Or.inr ⟨hout, hbefore ▸ hw⟩⟩

end ReconcileToolAux

open ReconcileToolAux in
/-- After any number of interrupted runs and one complete run exactly the keep-set is active, the kept stakes are as they were,
every other validator has its stake and its unbonding amount together as before, up to 64 bits, and the counters of the
registry are the sum of the active stakes, up to 64 bits, and their number. -/
theorem reconcile_converges (hread : AllReadable s) (hruns : tool.Interrupted Γ s sent t) (hcomplete : tool.Complete Γ sent t u) :
    (∀ w, IsActive u w ↔ w ∈ tool.keep) ∧
    (∀ w ∈ tool.keep, ∀ v, s.validators.lookup w = some v →
      ∃ v', u.validators.lookup w = some v' ∧ v'.data.stakeAmount = v.data.stakeAmount) ∧
    (∀ w ∉ tool.keep, ∀ v, s.validators.lookup w = some v → ∃ v', u.validators.lookup w = some v' ∧
      v'.data.stakeAmount + v'.data.unbondingAmount =
        if v.data.isActive then min (v.data.stakeAmount + v.data.unbondingAmount) Checked.u64Max
        else v.data.stakeAmount + v.data.unbondingAmount) ∧
    ∃ registry, u.validatorRegistry = some registry ∧
      registry.data.totalActiveStake = min u.activeStakeSum Checked.u64Max ∧
      registry.data.activeValidators = u.activeCount := by
  obtain ⟨hreadT, hmoved, hsent⟩ := interrupted_inv hread hruns
  obtain ⟨hmoved', honly, hclamped⟩ := complete_inv hreadT hsent hcomplete
  have haccount : ∀ w v, s.validators.lookup w = some v → ∃ v', u.validators.lookup w = some v' ∧
      (v'.data.position = v.data.position ∨ w ∉ tool.keep ∧ Withdrawn v.data.position v'.data.position) :=
    fun w v hv => ((hmoved w).trans (hmoved' w)).account hv
  refine ⟨honly, ?_, ?_, hclamped⟩
  · intro w hw v hv
    obtain ⟨v', hv', hsame | ⟨hout, -⟩⟩ := haccount w v hv
    · exact ⟨v', hv', congrArg Position.stakeAmount hsame⟩
    · exact absurd hw hout
  · intro w hw v hv
    obtain ⟨v', hv', hsame | ⟨-, hactive, -, hstake, hunbonding⟩⟩ := haccount w v hv
    · -- a validator that is still where it was is not active, since it is not kept
      have hinactive : ¬ v.data.isActive = true := fun hactive =>
        hw ((honly w).mp ⟨v', hv', (congrArg Position.isActive hsame).trans hactive⟩)
      refine ⟨v', hv', ?_⟩
      rw [if_neg hinactive]
      exact congrArg (fun p => p.stakeAmount + p.unbondingAmount) hsame
    · refine ⟨v', hv', ?_⟩
      change v.data.isActive = true at hactive
      change v'.data.stakeAmount = 0 at hstake
      change v'.data.unbondingAmount = satAdd v.data.unbondingAmount v.data.stakeAmount at hunbonding
      rw [if_pos hactive, hstake, hunbonding, Nat.zero_add, satAdd, Nat.add_comm]

namespace ReconcileToolAux

theorem allReadable_of_entries (h : ∀ e ∈ s.validators.entries, e.2.data.validator = e.1 ∧ 89 ≤ e.2.dataLen) : AllReadable s := by
  intro w v hv
  obtain ⟨hname, hlength⟩ := h ⟨w, v⟩ (AList.mem_lookup_iff.mp hv)
  exact ⟨hname, hlength⟩

theorem plan_of_rows (hrows : validatorRows Γ s = rows) (hkeep : tool.keep ≠ ∅) (hsettler : tool.settler ∈ tool.keep)
    (hgood : tool.badKeep rows = ∅) : tool.plan Γ s = .ok (tool.transactions rows) := by
  simp only [ReconcileTool.plan, Checked.seq_ok_iff, Checked.require_ok_iff, Checked.return_ok_iff, exists_const, hrows]
  exact ⟨hkeep, hsettler, hgood, trivial⟩

def once (ixs : List Instruction) : List Action := ixs.flatMap fun ix => [.program ⟨20, 0⟩ ix]

def twice (ixs : List Instruction) : List Action := ixs.flatMap fun ix => [.program ⟨18, 0⟩ ix, .program ⟨19, 0⟩ ix]

theorem sends_once : Redelivery.Sends ReconcileTool.Carries ReconcileTool.Other True sent ixs (once ixs) :=
  .inTurn _ (fun _ _ ha => ⟨_, List.mem_singleton.mp ha⟩) (fun _ _ => List.cons_ne_nil _ _) sent ixs

theorem sends_twice : Redelivery.Sends ReconcileTool.Carries ReconcileTool.Other False sent ixs (twice ixs) := by
  refine .inTurn _ (fun ix a ha => ?_) (fun h => h.elim) sent ixs
  rcases List.mem_pair.mp ha with rfl | rfl <;> exact ⟨_, rfl⟩

/-- A registry whose counters are wrong. -/
def registry : ProgramAccount ValidatorRegistry where
  data := {
    authority := .key Sample.operator, totalValidators := 9, activeValidators := 7, minimumStake := minValidatorStake,
    totalActiveStake := 1, stakeMint := Sample.mint, minTokenStake := recommendedMinTokenStake }
  dataLen := validatorRegistrySpace

def drifted : State :=
  { Sample.genesis with
    validators := (((∅ : Table Pubkey (ProgramAccount ValidatorAccount)).insert (.key Sample.operator)
      ⟨.registered (.key Sample.operator) 2000000000 0 ⟨13, 0⟩, 129⟩).insert (.key Sample.cosigner)
      ⟨.registered (.key Sample.cosigner) 3000000000 0 ⟨14, 0⟩, 113⟩).insert (.key Sample.depositor)
      ⟨(ValidatorAccount.registered (.key Sample.depositor) 4000000000 0 ⟨15, 0⟩).deactivate ⟨16, 0⟩, 145⟩
    validatorRegistry := some registry }

def keepOperator : ReconcileTool where
  authority := Sample.operator
  keep := {.key Sample.operator}
  settler := .key Sample.operator
  stakeMint := Sample.mint
  keep_card := by decide

/-- What the tool reads at first, and after all accounts are migrated and the cosigner is deactivated. -/
def firstRows : List ValidatorRow :=
  [⟨.key Sample.operator, 129, true⟩, ⟨.key Sample.cosigner, 113, true⟩, ⟨.key Sample.depositor, 145, false⟩]

def laterRows : List ValidatorRow :=
  [⟨.key Sample.operator, 145, true⟩, ⟨.key Sample.cosigner, 145, false⟩, ⟨.key Sample.depositor, 145, false⟩]

end ReconcileToolAux

open ReconcileToolAux in
/-- The theorem where the first run breaks off before it rebuilds the registry, with every transaction applied twice. -/
theorem reconcile_converges_after_break : ∃ sent t u, keepOperator.Interrupted Sample.ctx drifted sent t ∧
    keepOperator.Complete Sample.ctx sent t u ∧ (∀ w, IsActive u w ↔ w ∈ keepOperator.keep) ∧
    u.counters = some (1, 2000000000, minValidatorStake) := by
  have hfirst : validatorRows Sample.ctx drifted = firstRows := by decide +kernel
  have hplan : keepOperator.plan Sample.ctx drifted = .ok (keepOperator.transactions firstRows) :=
    plan_of_rows hfirst (by decide +kernel) (by decide +kernel) (by decide +kernel)
  have hbroken : succeedsWith Sample.ctx drifted (twice ((keepOperator.transactions firstRows).take 3)) (fun t =>
      validatorRows Sample.ctx t = laterRows ∧ succeedsWith Sample.ctx t (once (keepOperator.transactions laterRows))
        (fun u => u.counters = some (1, 2000000000, minValidatorStake))) = true := by decide +kernel
  obtain ⟨t, hrun, hcheck⟩ := exists_execution hbroken
  obtain ⟨hlater, hcompletes⟩ := of_decide_eq_true hcheck
  obtain ⟨u, hrun', hcounters⟩ := exists_execution hcompletes
  have hplan' : keepOperator.plan Sample.ctx t = .ok (keepOperator.transactions laterRows) :=
    plan_of_rows hlater (by decide +kernel) (by decide +kernel) (by decide +kernel)
  have hruns := ReconcileTool.Interrupted.again .none hplan (List.take_prefix 3 _) (sends_twice) hrun
  have hcomplete := fun sent => (⟨_, _, hplan', sends_once, hrun'⟩ : keepOperator.Complete Sample.ctx sent t u)
  have hread : AllReadable drifted := allReadable_of_entries (by decide +kernel)
  have hconverged := reconcile_converges hread hruns (hcomplete _)
  exact ⟨_, t, u, hruns, hcomplete _, hconverged.1, of_decide_eq_true hcounters⟩

namespace ReconcileToolAux

/-- The operator and the cosigner are active, and their stakes together do not fit 64 bits. -/
def overfull : State :=
  { Sample.genesis with
    validators := ((∅ : Table Pubkey (ProgramAccount ValidatorAccount)).insert (.key Sample.operator)
      ⟨.registered (.key Sample.operator) (2 ^ 63) 0 ⟨13, 0⟩, 145⟩).insert (.key Sample.cosigner)
      ⟨.registered (.key Sample.cosigner) (2 ^ 63) 0 ⟨14, 0⟩, 145⟩
    validatorRegistry := some registry }

/-- Both are to be kept. -/
def keepBoth : ReconcileTool :=
  { keepOperator with
    keep := {.key Sample.operator, .key Sample.cosigner}
    keep_card := by decide +kernel }

end ReconcileToolAux

open ReconcileToolAux in
/-- Two kept stakes of `2 ^ 63`: a complete run leaves a total that is short of their sum. -/
theorem reconcile_total_saturates : AllReadable overfull ∧ keepBoth.Interrupted Sample.ctx overfull ∅ overfull ∧
    ∃ u, keepBoth.Complete Sample.ctx ∅ overfull u ∧
      u.counters = some (2, 2 ^ 64 - 1, minValidatorStake) ∧ u.activeStakeSum = 2 ^ 64 := by
  have hrows : validatorRows Sample.ctx overfull =
      [⟨.key Sample.operator, 145, true⟩, ⟨.key Sample.cosigner, 145, true⟩] := by decide +kernel
  have hplan : keepBoth.plan Sample.ctx overfull = .ok (keepBoth.transactions _) :=
    plan_of_rows hrows (by decide +kernel) (by decide +kernel) (by decide +kernel)
  have hcompletes : succeedsWith Sample.ctx overfull
      (once (keepBoth.transactions [⟨.key Sample.operator, 145, true⟩, ⟨.key Sample.cosigner, 145, true⟩])) (fun u =>
        u.counters = some (2, 2 ^ 64 - 1, minValidatorStake) ∧ u.activeStakeSum = 2 ^ 64) = true := by decide +kernel
  obtain ⟨u, hrun, hcheck⟩ := exists_execution hcompletes
  exact ⟨allReadable_of_entries (by decide +kernel), .none, u, ⟨_, _, hplan, sends_once, hrun⟩, of_decide_eq_true hcheck⟩

end Paraloom.OffChain
