import Paraloom.Lemmas.Program

/-!
# The steps that touch notes

What a step does to the notes: the leaves of the tree, the recorded nullifiers and the two totals of the bridge. Only the two
deposits and the two settlements change them, and the creation of the tree.
-/

namespace Paraloom

variable {s s' : State}

namespace State

theorem leaves_append : (s.log ++ [e]).flatMap Event.leaves = s.leaves ++ e.leaves := by
  simp [leaves]

end State

/-- The notes and the totals of the bridge are as before. -/
structure NotesKept (s s' : State) : Prop where
  leaves : s'.leaves = s.leaves
  nullifiers : s'.nullifiers = s.nullifiers
  deposited : s'.totalDeposited = s.totalDeposited
  withdrawn : s'.totalWithdrawn = s.totalWithdrawn

inductive NoteStep (Γ : Ctx) (s : State) : Action → State → Prop where
  | quiet {a : Action} {s' : State} (spends : a.nullifiers = []) (notes : NotesKept s s')
      (tree : s'.merkleTree = s.merkleTree) : NoteStep Γ s a s'
  | plant {a : Action} {s' : State} (spends : a.nullifiers = []) (notes : NotesKept s s') (before : s.merkleTree = none)
      (after : s'.merkleTree = some .empty) : NoteStep Γ s a s'
  | deposit {s' : State} {clock : Clock} {depositor : Signer} {amount : UInt64} {pubkey blinding : Bytes32}
      (h : depositNote Γ clock s depositor amount pubkey blinding = .ok s') :
      NoteStep Γ s (.program clock (.depositNote depositor amount pubkey blinding)) s'
  | depositSpl {s' : State} {clock : Clock} {depositor : Signer} {mint account : Pubkey} {amount : UInt64}
      {pubkey blinding : Bytes32} (h : depositNoteSpl Γ clock s depositor mint account amount pubkey blinding = .ok s') :
      NoteStep Γ s (.program clock (.depositNoteSpl depositor mint account amount pubkey blinding)) s'
  | settle {s' : State} {clock : Clock} {authority : Signer} {recipient : Pubkey} {quorum : List AccountMeta}
      {args : TransactArgs} (h : transact Γ clock s authority recipient quorum args = .ok s') :
      NoteStep Γ s (.program clock (.transact authority recipient quorum args)) s'
  | settleSpl {s' : State} {clock : Clock} {authority : Signer} {mint recipient fee : Pubkey} {quorum : List AccountMeta}
      {args : TransactArgs} (h : transactSpl Γ clock s authority mint recipient fee quorum args = .ok s') :
      NoteStep Γ s (.program clock (.transactSpl authority mint recipient fee quorum args)) s'

namespace NotesAux

/-- A step that leaves the bridge account and the nullifiers alone and logs nothing. -/
theorem kept (hlog : s'.log = s.log) (hnull : s'.nullifiers = s.nullifiers) (hbridge : s'.bridgeState = s.bridgeState) :
    NotesKept s s' := by
  refine ⟨?_, hnull, ?_, ?_⟩
  · rw [State.leaves, hlog, State.leaves]
  · rw [State.totalDeposited, hbridge, State.totalDeposited]
  · rw [State.totalWithdrawn, hbridge, State.totalWithdrawn]

theorem kept_of_event (hlog : s'.log = s.log ++ [e]) (hleaves : e.leaves = []) (hnull : s'.nullifiers = s.nullifiers)
    (hbridge : s'.bridgeState = s.bridgeState) : NotesKept s s' := by
  refine ⟨?_, hnull, ?_, ?_⟩
  · rw [State.leaves, hlog, State.leaves_append, hleaves, List.append_nil]
  · rw [State.totalDeposited, hbridge, State.totalDeposited]
  · rw [State.totalWithdrawn, hbridge, State.totalWithdrawn]

/-- A step that writes the bridge account and leaves its totals alone. -/
theorem kept_of_totals (hlog : s'.log = s.log) (hnull : s'.nullifiers = s.nullifiers)
    (hdeposited : s'.totalDeposited = s.totalDeposited) (hwithdrawn : s'.totalWithdrawn = s.totalWithdrawn) :
    NotesKept s s' := by
  refine ⟨?_, hnull, hdeposited, hwithdrawn⟩
  rw [State.leaves, hlog, State.leaves]

theorem noteStep_of_instruction (h : ix.exec Γ clock s = .ok s') : NoteStep Γ s (.program clock ix) s' := by
  by_cases hk : ix.housekeeping = true
  · have hkept := Instruction.housekept h hk
    refine .quiet ?_ (kept_of_totals hkept.log hkept.nullifiers hkept.deposited hkept.withdrawn) hkept.merkleTree
    cases ix <;> first | rfl | cases hk
  cases ix with
  | initializeMerkleTree =>
    obtain ⟨hnone, _, _, -, rfl⟩ := initializeMerkleTree_ok h
    exact .plant rfl (kept rfl rfl rfl) hnone rfl
  | depositNote => exact .deposit h
  | transact => exact .settle h
  | transactSpl => exact .settleSpl h
  | depositNoteSpl => exact .depositSpl h
  | initializeValidatorRegistry =>
    obtain ⟨-, -, _, _, _, _, _, -, -, -, -, -, rfl⟩ := initializeValidatorRegistry_ok h
    exact .quiet rfl (kept rfl rfl rfl) rfl
  | initStakeTokenVault =>
    obtain ⟨-, _, _, -, rfl⟩ := initStakeTokenVault_ok h
    exact .quiet rfl (kept rfl rfl rfl) rfl
  | setMinTokenStake =>
    obtain ⟨_, -, rfl⟩ := setMinTokenStake_ok h
    exact .quiet rfl (kept rfl rfl rfl) rfl
  | resetValidatorRegistry =>
    obtain ⟨_, _, _, _, -, -, -, -, -, -, -, rfl⟩ := resetValidatorRegistry_ok h
    exact .quiet rfl (kept_of_event rfl rfl rfl rfl) rfl
  | registerValidator =>
    obtain ⟨-, -, _, _, _, _, _, _, _, -, -, -, -, -, -, -, -, rfl⟩ := registerValidator_ok h
    exact .quiet rfl (kept_of_event rfl rfl rfl rfl) rfl
  | unregisterValidator =>
    obtain ⟨_, _, -, -, -, rfl⟩ := unregisterValidator_ok h
    exact .quiet rfl (kept_of_event rfl rfl rfl rfl) rfl
  | deactivateValidator =>
    obtain ⟨_, _, -, -, ⟨-, rfl⟩ | ⟨-, rfl⟩⟩ := deactivateValidator_ok h <;> exact .quiet rfl (kept rfl rfl rfl) rfl
  | withdrawUnbondedStake =>
    obtain ⟨_, _, _, _, _, _, -, -, -, -, -, -, -, -, -, -, rfl⟩ := withdrawUnbondedStake_ok h
    exact .quiet rfl (kept_of_event rfl rfl rfl rfl) rfl
  | slashValidator =>
    obtain ⟨_, _, _, _, -, -, -, -, -, -, rfl⟩ := slashValidator_ok h
    exact .quiet rfl (kept_of_event rfl rfl rfl rfl) rfl
  | claimRewards =>
    obtain ⟨_, _, _, -, -, rfl⟩ := claimRewards_ok h
    exact .quiet rfl (kept_of_event rfl rfl rfl rfl) rfl
  | updateReputation =>
    obtain ⟨_, -, rfl⟩ := updateReputation_ok h
    exact .quiet rfl (kept rfl rfl rfl) rfl
  | migrateValidatorAccount =>
    obtain rfl | ⟨_, _, -, -, -, rfl⟩ := migrateValidatorAccount_ok h <;> exact .quiet rfl (kept rfl rfl rfl) rfl
  | _ => exact absurd rfl hk

end NotesAux

theorem Step.noteStep (h : Step Γ s a s') : NoteStep Γ s a s' := by
  cases a with
  | program clock ix => exact NotesAux.noteStep_of_instruction h
  | systemTransfer =>
    obtain ⟨_, -, rfl⟩ := systemTransfer_ok h
    exact .quiet rfl (NotesAux.kept rfl rfl rfl) rfl
  | tokenTransfer =>
    obtain ⟨_, -, rfl⟩ := tokenTransfer_ok h
    exact .quiet rfl (NotesAux.kept rfl rfl rfl) rfl
  | openTokenAccount =>
    obtain rfl := openTokenAccount_ok h
    exact .quiet rfl (NotesAux.kept rfl rfl rfl) rfl

theorem SettleOk.mem_nullifiers (h : SettleOk Γ s authority recipient assetOf args st) :
    n ∈ st.nullifiers ↔ n ∈ [args.nullifier0, args.nullifier1] ∨ n ∈ s.nullifiers := by
  obtain ⟨record0, record1, hst⟩ := h.nullifiers
  rw [hst, AList.mem_insert, AList.mem_insert]
  simp only [List.mem_cons, List.not_mem_nil, or_false]
  tauto

theorem SettleOk.spendable (h : SettleOk Γ s authority recipient assetOf args st) : [args.nullifier0, args.nullifier1].Nodup ∧
      ∀ n ∈ [args.nullifier0, args.nullifier1], Canonical n ∧ n ∉ s.nullifiers := by
  refine ⟨by simpa using h.distinct, fun n hn => ?_⟩
  simp only [List.mem_cons, List.not_mem_nil, or_false] at hn
  rcases hn with rfl | rfl
  · exact ⟨h.canonicalNullifiers.1, AList.lookup_eq_none.mp h.fresh.1⟩
  · exact ⟨h.canonicalNullifiers.2, AList.lookup_eq_none.mp h.fresh.2⟩

/-- What a step does to the recorded nullifiers: it records its own, which are canonical, distinct and new, and it removes
none. -/
theorem NoteStep.nullifiers (h : NoteStep Γ s a s') :
    a.nullifiers.Nodup ∧ (∀ n ∈ a.nullifiers, Canonical n ∧ n ∉ s.nullifiers) ∧
      ∀ n, n ∈ s'.nullifiers ↔ n ∈ a.nullifiers ∨ n ∈ s.nullifiers := by
  cases h with
  | quiet spends notes | plant spends notes => simp [spends, notes.nullifiers]
  | deposit h =>
    obtain ⟨_, _, _, _, _, _, _, -, -, -, -, -, -, -, rfl⟩ := depositNote_ok h
    simp [Action.nullifiers]
  | depositSpl h =>
    obtain ⟨_, _, _, _, _, _, _, -, -, -, -, -, -, -, -, rfl⟩ := depositNoteSpl_ok h
    simp [Action.nullifiers]
  | settle h =>
    obtain ⟨-, st, _, hst, -, _, rfl⟩ := transact_ok h
    exact ⟨hst.spendable.1, hst.spendable.2, fun n => hst.mem_nullifiers⟩
  | settleSpl h =>
    obtain ⟨st, _, _, hst, -, -, -, rfl⟩ := transactSpl_ok h
    exact ⟨hst.spendable.1, hst.spendable.2, fun n => hst.mem_nullifiers⟩

end Paraloom
