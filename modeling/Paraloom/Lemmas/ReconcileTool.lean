import Paraloom.OffChain.ReconcileTool
import Paraloom.Lemmas.Accounts
import Paraloom.Theorems.Reconcile

/-!
# What the reconcile tool reads and what its transactions do

The rows the tool reads are the validator accounts. Its transactions, and what the chain does of its own meanwhile, never touch
the stake of a kept validator, never make a validator active, and move the stake of another one into unbonding at most once.
-/

namespace Paraloom.OffChain

open List

variable {tool : ReconcileTool}

/-! ## The rows -/

/-- A validator account that the tool can read: at the address of the wallet it names, and long enough. -/
structure Readable (w : Pubkey) (v : ProgramAccount ValidatorAccount) : Prop where
  name : v.data.validator = w
  length : 89 ≤ v.dataLen

/-- Every validator account on the chain, of whatever layout, can be read. -/
def AllReadable (s : State) : Prop := ∀ w v, s.validators.lookup w = some v → Readable w v

/-- Every step keeps the accounts so. -/
theorem AllReadable.step (h : AllReadable s) (hstep : Step Γ s a s') : AllReadable s' := by
  intro w v' hv'
  rcases hstep.accountStep.lookup_cases hv' with hv | ⟨v, hv, hname, hgrown, -⟩ | ⟨_, _, _, _, rfl, rfl, -⟩
  · exact h w v' hv
  · exact ⟨hname.trans (h w v hv).name, (h w v hv).length.trans hgrown⟩
  · exact ⟨rfl, show 89 ≤ validatorAccountSpace by decide⟩

namespace ReconcileToolAux

/-- The row of an entry of the table. -/
def rowOf (e : (_ : Pubkey) × ProgramAccount ValidatorAccount) : ValidatorRow where
  wallet := e.1
  dataLen := e.2.dataLen
  isActive := e.2.data.isActive

theorem rows_perm (h : AllReadable s) : (validatorRows Γ s).Perm (s.validators.entries.map rowOf) := by
  refine (perm_insertionSort _ _).trans (List.Perm.of_eq ?_)
  rw [← filterMap_eq_map]
  refine filterMap_congr fun e he => ?_
  obtain ⟨hname, hlength⟩ := h e.1 e.2 (AList.mem_lookup_iff.mpr he)
  rw [ValidatorRow.decode, if_neg (Nat.not_lt.mpr hlength), hname]
  rfl

theorem mem_rows_iff (h : AllReadable s) :
    r ∈ validatorRows Γ s ↔ ∃ v, s.validators.lookup r.wallet = some v ∧ r = ⟨r.wallet, v.dataLen, v.data.isActive⟩ := by
  rw [(rows_perm h).mem_iff, mem_map]
  constructor
  · rintro ⟨e, he, rfl⟩
    exact ⟨e.2, AList.mem_lookup_iff.mpr he, rfl⟩
  · rintro ⟨v, hv, hr⟩
    exact ⟨⟨r.wallet, v⟩, AList.mem_lookup_iff.mp hv, hr.symm⟩

theorem wallets_nodup (h : AllReadable s) : ((validatorRows Γ s).map (·.wallet)).Nodup := by
  refine ((rows_perm h).map _).nodup_iff.mpr ?_
  rw [map_map]
  exact s.validators.nodupKeys

theorem isActive_of_keepFault (h : AllReadable s) (hfault : keepFault (validatorRows Γ s) w = none) : IsActive s w := by
  unfold keepFault at hfault
  split at hfault
  · cases hfault
  · rename_i r hfind
    have hwallet : r.wallet = w := by simpa using find?_some hfind
    obtain ⟨v, hv, hr⟩ := (mem_rows_iff h).mp (mem_reverse.mp (mem_of_find?_eq_some hfind))
    split at hfault
    · rename_i hactive
      rw [hr] at hactive
      exact ⟨v, hwallet ▸ hv, hactive⟩
    · cases hfault

end ReconcileToolAux

/-! ## The transactions -/

namespace ReconcileTool

/-- The instructions that a run of the tool may send. -/
inductive Sendable (tool : ReconcileTool) : Instruction → Prop where
  | migrate (w : Pubkey) : Sendable tool (.migrateValidatorAccount tool.authority w)
  | deactivate {w : Pubkey} (out : w ∉ tool.keep) : Sendable tool (.deactivateValidator tool.authority w)
  | reset {ws : List Pubkey} (nodup : ws.Nodup) (listed : ws.toFinset = tool.keep) : Sendable tool (tool.resetInstruction ws)

/-- What the chain may see of the tool and of others. -/
abbrev Allowed (tool : ReconcileTool) (a : Action) : Prop := Redelivery.Seen Carries Other {ix | tool.Sendable ix} a

end ReconcileTool

namespace ReconcileToolAux

theorem keepWallets_nodup (h : AllReadable s) : (tool.keepWallets (validatorRows Γ s)).Nodup :=
  List.Nodup.sublist (List.Sublist.map _ filter_sublist) (wallets_nodup h)

theorem mem_keepWallets : w ∈ tool.keepWallets rows ↔ w ∈ tool.keep ∧ w ∈ rows.map (·.wallet) := by
  simp only [ReconcileTool.keepWallets, mem_map, mem_filter, decide_eq_true_eq]
  constructor
  · rintro ⟨r, ⟨hr, hkeep⟩, rfl⟩
    exact ⟨hkeep, r, hr, rfl⟩
  · rintro ⟨hkeep, r, hr, rfl⟩
    exact ⟨r, ⟨hr, hkeep⟩, rfl⟩

theorem plan_ok (h : AllReadable s) (hplan : tool.plan Γ s = .ok plan) :
    plan = tool.transactions (validatorRows Γ s) ∧ ∀ w ∈ tool.keep, IsActive s w := by
  simp only [ReconcileTool.plan, Checked.seq_ok_iff, Checked.require_ok_iff, Checked.return_ok_iff, exists_const] at hplan
  obtain ⟨-, -, hgood, rfl⟩ := hplan
  refine ⟨rfl, fun w hw => isActive_of_keepFault (Γ := Γ) h ?_⟩
  by_contra hfault
  have hbad : w ∈ tool.badKeep (validatorRows Γ s) := Finset.mem_filter.mpr ⟨hw, hfault⟩
  rw [hgood] at hbad
  exact Finset.notMem_empty w hbad

/-- The keep-set is what the last transaction lists. -/
theorem keepWallets_toFinset (h : AllReadable s) (hkeep : ∀ w ∈ tool.keep, IsActive s w) :
    (tool.keepWallets (validatorRows Γ s)).toFinset = tool.keep := by
  ext w
  rw [mem_toFinset, mem_keepWallets]
  refine ⟨And.left, fun hw => ⟨hw, ?_⟩⟩
  obtain ⟨v, hv, -⟩ := hkeep w hw
  exact mem_map.mpr ⟨⟨w, v.dataLen, v.data.isActive⟩, (mem_rows_iff h).mpr ⟨v, hv, rfl⟩, rfl⟩

theorem sendable_of_plan (h : AllReadable s) (hplan : tool.plan Γ s = .ok plan) : ∀ ix ∈ plan, tool.Sendable ix := by
  obtain ⟨rfl, hkeep⟩ := plan_ok h hplan
  intro ix hix
  simp only [ReconcileTool.transactions, ReconcileTool.migrateInstructions, ReconcileTool.deactivateInstructions,
    ReconcileTool.toDeactivate, mem_append, mem_map, mem_filter, mem_singleton] at hix
  rcases hix with (⟨r, -, rfl⟩ | ⟨r, ⟨-, hr⟩, rfl⟩) | rfl
  · exact .migrate r.wallet
  · rw [Bool.and_eq_true, decide_eq_true_eq] at hr
    exact .deactivate hr.2
  · exact .reset (keepWallets_nodup h) (keepWallets_toFinset h hkeep)

theorem deactivation_mem (h : AllReadable s) (hactive : IsActive s w) (hout : w ∉ tool.keep) :
    .deactivateValidator tool.authority w ∈ tool.deactivateInstructions (validatorRows Γ s) := by
  obtain ⟨v, hv, hv'⟩ := hactive
  refine mem_map.mpr ⟨⟨w, v.dataLen, v.data.isActive⟩, mem_filter.mpr ⟨(mem_rows_iff h).mpr ⟨v, hv, rfl⟩, ?_⟩, rfl⟩
  simp [hv', hout]

end ReconcileToolAux

/-! ## The steps -/

/-- What an allowed step does to the stakes. -/
inductive ToolStep (Γ : Ctx) (tool : ReconcileTool) (s s' : State) : Prop where
  | quiet (kept : StakeKept Γ s s')
  | deactivate {w : Pubkey} {v : ProgramAccount ValidatorAccount} {clock : Clock} (out : w ∉ tool.keep)
      (before : s.validators.lookup w = some v) (active : v.data.isActive = true)
      (after : s'.validators = s.validators.insert w { v with data := v.data.deactivate clock })
  | reset {ws : List Pubkey} {registry : ProgramAccount ValidatorRegistry} (nodup : ws.Nodup) (listed : ws.toFinset = tool.keep)
      (validators : s'.validators = s.validators) (rebuilt : s'.validatorRegistry = some registry)
      (total : registry.data.totalActiveStake = min (ws.map s.activeStakeOf).sum Checked.u64Max)
      (active : registry.data.activeValidators = ws.length)

namespace ReconcileToolAux

theorem reset_ok (nodup : ws.Nodup) (listed : ws.toFinset = tool.keep)
    (h : Step Γ s (.program clock (tool.resetInstruction ws)) s') :
    s'.validators = s.validators ∧ ∃ registry, s'.validatorRegistry = some registry ∧
      registry.data.totalActiveStake = min (ws.map s.activeStakeOf).sum Checked.u64Max ∧
      registry.data.activeValidators = ws.length := by
  obtain ⟨registry, total, _, _, hcount, -, htotal, hactive, -, -, -, rfl⟩ := resetValidatorRegistry_ok h
  obtain ⟨-, -, -, hsum, -⟩ := ReconcileAux.countResetAccounts_ok (Nat.zero_le _) (Nat.zero_le _) hcount
  refine ⟨rfl, registry, rfl, ?_, ?_⟩
  · rw [htotal, hsum, Nat.zero_add, map_map]
    rfl
  · -- as many as the keep-set has, so the number fits a word
    have hlength : ws.length < 2 ^ 64 := by
      rw [← toFinset_card_of_nodup nodup, listed]
      exact tool.keep_card
    rw [hactive, UInt64.toNat_ofNat_of_lt' hlength]

theorem toolStep (ha : tool.Allowed a) (h : Step Γ s a s') : ToolStep Γ tool s s' := by
  rcases ha with hother | ⟨ix, hix, clock, rfl⟩
  · cases h.stakeStep with
    | quiet _ kept => exact .quiet kept
    | _ => cases hother
  · cases hix with
    | migrate w =>
      cases h.stakeStep with
      | quiet _ kept => exact .quiet kept
    | deactivate out =>
      obtain ⟨v, _, hv, -, ⟨-, rfl⟩ | ⟨hactive, rfl⟩⟩ := deactivateValidator_ok h
      · exact .quiet (StakeAux.kept rfl rfl (fun _ => Nat.le_refl _) rfl)
      · exact .deactivate out hv hactive rfl
    | reset nodup listed =>
      obtain ⟨hsame, registry, hrebuilt, htotal, hactive⟩ := reset_ok nodup listed h
      exact .reset nodup listed hsame hrebuilt htotal hactive

theorem isActive_iff : IsActive s w ↔ ∃ p, s.position w = some p ∧ p.isActive = true := by
  simp only [IsActive, State.position, Option.map_eq_some_iff]
  constructor
  · rintro ⟨v, hv, hactive⟩
    exact ⟨_, ⟨v, hv, rfl⟩, hactive⟩
  · rintro ⟨_, ⟨v, hv, rfl⟩, hactive⟩
    exact ⟨v, hv, hactive⟩

theorem isActive_congr (h : s'.position w = s.position w) : IsActive s' w ↔ IsActive s w := by
  rw [isActive_iff, isActive_iff, h]

/-- The position that a deactivation leaves. -/
def Withdrawn (p p' : Position) : Prop :=
  p.isActive = true ∧ p'.isActive = false ∧ p'.stakeAmount = 0 ∧
    p'.unbondingAmount = Checked.satAdd p.unbondingAmount p.stakeAmount

/-- What became of a position: it is as it was, or an active validator outside the keep-set has been deactivated. -/
def Moved (tool : ReconcileTool) (w : Pubkey) (before after : Option Position) : Prop :=
  after = before ∨ w ∉ tool.keep ∧ ∃ p p', before = some p ∧ after = some p' ∧ Withdrawn p p'

theorem moved_step (h : ToolStep Γ tool s s') (w : Pubkey) : Moved tool w (s.position w) (s'.position w) := by
  cases h with
  | quiet kept => exact .inl (kept.position w)
  | @deactivate x v _ out before active after =>
    rw [State.position, State.position, after, Table.lookup_insert_if]
    by_cases hw : w = x
    · subst hw
      rw [if_pos rfl, before]
      exact .inr ⟨out, _, _, rfl, rfl, active, rfl, rfl, rfl⟩
    · rw [if_neg hw]
      exact .inl rfl
  | reset _ _ validators => exact .inl (by rw [State.position, validators, State.position])

/-- A validator is deactivated at most once. -/
theorem Moved.trans (h : Moved tool w p q) (h' : Moved tool w q r) : Moved tool w p r := by
  rcases h with rfl | ⟨hout, a, b, rfl, rfl, hw⟩
  · exact h'
  · rcases h' with rfl | ⟨-, c, d, hb, -, hactive, -⟩
    · exact .inr ⟨hout, a, b, rfl, rfl, hw⟩
    · rw [Option.some.injEq] at hb
      rw [← hb, hw.2.1] at hactive
      cases hactive

theorem moved_run (h : Execution Γ s as s') (hallowed : ∀ a ∈ as, tool.Allowed a) (w : Pubkey) :
    Moved tool w (s.position w) (s'.position w) :=
  h.invariant_of (P := fun t => Moved tool w (s.position w) (t.position w)) hallowed (.inl rfl)
    fun _ _ _ ha ht hstep => ht.trans (moved_step (toolStep ha hstep) w)

theorem inactive_step (h : ToolStep Γ tool s s') (hs : ¬ IsActive s w) : ¬ IsActive s' w := by
  rcases moved_step h w with hsame | ⟨-, p, p', hp, hp', -, hout, -⟩
  · rwa [isActive_congr hsame]
  · rw [isActive_iff, hp']
    rintro ⟨q, hq, hactive⟩
    rw [Option.some.injEq] at hq
    rw [← hq, hout] at hactive
    cases hactive

end ReconcileToolAux

end Paraloom.OffChain
