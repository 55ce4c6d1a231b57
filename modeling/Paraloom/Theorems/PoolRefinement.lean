import Paraloom.Theorems.NoInflation

/-!
# The chain refines the pool of notes

The pool as a machine on the actions of the chain. A deposit adds the commitment of its note; a settlement needs a proof and two
new nullifiers, reveals them and adds two commitments; nothing else changes the pool.
-/

namespace Paraloom

open NoInflationAux

namespace Pool

def deposit (p : Pool) (leaf : Result Bytes32) : Option Pool := leaf.toOption.map fun c => p.append (fromLeBytesModOrder c)

open Classical in
noncomputable def transfer (Γ : Ctx) (p : Pool) (recipient : Pubkey) (args : TransactArgs) (assetOf : Result Bytes32) :
    Option Pool := do
  let pub := args.publicInputs Γ recipient (← assetOf.toOption)
  if verifyTransact Γ pub args.proof = true ∧ pub.nullifier0 ∉ p.spent ∧ pub.nullifier1 ∉ p.spent then pure (p.settle pub) else none

/-- What an action does to the pool, if the pool allows it. -/
noncomputable def act (Γ : Ctx) (p : Pool) : Action → Option Pool
  | .program _ (.depositNote _ amount pubkey blinding) => p.deposit (commitment Γ amount pubkey blinding nativeSolAsset)
  | .program _ (.depositNoteSpl _ mint _ amount pubkey blinding) =>
    p.deposit (mintToAsset Γ mint >>= commitment Γ amount pubkey blinding)
  | .program _ (.transact _ recipient _ args) => p.transfer Γ recipient args (pure nativeSolAsset)
  | .program _ (.transactSpl _ mint recipient _ _ args) => p.transfer Γ recipient args (mintToAsset Γ mint)
  | _ => some p

variable {s s' : State}

theorem deposit_eq (hc : r = .ok c) (hleaves : s'.leaves = s.leaves ++ [c]) (hnull : s'.nullifiers = s.nullifiers) :
    s.pool.deposit r = some s'.pool := by
  rw [pool_append hleaves hnull, deposit, hc]
  rfl

theorem transfer_eq (hcanonical : ∀ n ∈ s.nullifiers, Canonical n) (h : SettleOk Γ s authority recipient assetOf args st)
    (hleaves : s'.leaves = s.leaves ++ [args.outCommitment0, args.outCommitment1]) (hnull : s'.nullifiers = st.nullifiers) :
    s.pool.transfer Γ recipient args assetOf = some s'.pool := by
  obtain ⟨asset, hasset, hproof⟩ := h.proof
  have hfresh := fresh_of_settle hcanonical h
  rw [pool_settle h hleaves hnull, transfer, hasset]
  exact if_pos ⟨hproof, hfresh _ (by simp), hfresh _ (by simp)⟩

theorem act_eq (hcanonical : ∀ n ∈ s.nullifiers, Canonical n) (h : Step Γ s a s') : s.pool.act Γ a = some s'.pool := by
  unfold act
  split
  · obtain ⟨_, _, _, _, _, _, _, -, -, -, -, -, hc, -, rfl⟩ := depositNote_ok h
    exact deposit_eq hc State.leaves_append rfl
  · obtain ⟨_, _, _, _, _, _, _, -, -, -, -, -, hasset, hc, -, rfl⟩ := depositNoteSpl_ok h
    exact deposit_eq (hasset ▸ hc) State.leaves_append rfl
  · obtain ⟨-, st, _, hst, -, _, rfl⟩ := transact_ok h
    exact transfer_eq hcanonical hst State.leaves_append rfl
  · obtain ⟨st, _, _, hst, -, -, -, rfl⟩ := transactSpl_ok h
    exact transfer_eq hcanonical hst State.leaves_append rfl
  · rename_i hdeposit hdepositSpl hsettle hsettleSpl
    cases h.noteStep with
    | quiet _ notes | plant _ notes => rw [pool_kept notes]
    | deposit => exact (hdeposit _ _ _ _ _ rfl).elim
    | depositSpl => exact (hdepositSpl _ _ _ _ _ _ _ rfl).elim
    | settle => exact (hsettle _ _ _ _ _ rfl).elim
    | settleSpl => exact (hsettleSpl _ _ _ _ _ _ _ rfl).elim

end Pool

/-- The pool machine runs through the actions of every run of the chain and ends at the notes of the chain. -/
theorem chain_refines_pool {Γ : Ctx} {programData : RawAccount} {tokens : Table Pubkey TokenAccount} {lamports : Ledger Pubkey}
    {actions : List Action} {s : State} (h : Execution Γ (.genesis programData tokens lamports) actions s) :
    actions.foldlM (Pool.act Γ) ⟨[], ∅⟩ = some s.pool := by
  refine (h.induction (P := fun as t => (∀ n ∈ t.nullifiers, Canonical n) ∧ as.foldlM (Pool.act Γ) ⟨[], ∅⟩ = some t.pool)
    ⟨fun n hn => absurd hn (AList.notMem_empty n), ?_⟩ ?_).2
  · simp [State.pool, State.genesis, State.leaves]
  · rintro as t a u - ⟨hcanonical, hpool⟩ hstep
    obtain ⟨-, hnew, hmem⟩ := hstep.noteStep.nullifiers
    refine ⟨fun n hn => ((hmem n).mp hn).elim (fun hn => (hnew n hn).1) (hcanonical n), ?_⟩
    simp [hpool, Pool.act_eq hcanonical hstep]

/-- The sample run deposits a note and spends it. -/
theorem chain_refines_pool_sample : ∃ s, Execution Sample.idealCtx Sample.genesis Sample.depositAndSpend s ∧
    Sample.depositAndSpend.foldlM (Pool.act Sample.idealCtx) ⟨[], ∅⟩ = some s.pool := by
  have hsucceeds : succeedsWith Sample.idealCtx Sample.genesis Sample.depositAndSpend (fun _ => true) = true := by
    decide +kernel
  obtain ⟨s, hrun, -⟩ := exists_execution hsucceeds
  exact ⟨s, hrun, chain_refines_pool hrun⟩

end Paraloom
