import Paraloom.Lemmas.Notes
import Paraloom.OffChain.SettleTransact
import Paraloom.Theorems.CoSignSet

/-!
# The spent set of a node and the nullifier accounts

A node that loses the race for a settlement asks for the account of the first nullifier and records both. The two accounts of
one settlement are made together, but a peer's settlement may share the first nullifier and have another second one.
-/

namespace Paraloom

theorem State.owner_eq_programId_iff {s : State} : s.owner k = programId ↔ s.hasAccount k = true := by
  rw [State.owner]
  split
  · rename_i h
    simp [h]
  · rename_i h
    have htoken : tokenProgram ≠ programId := by decide
    have hsystem : systemProgram ≠ programId := by decide
    split <;> simp [h, htoken, hsystem]

theorem State.hasAccount_nullifier_iff {s : State} : s.hasAccount (.nullifier n) = true ↔ n ∈ s.nullifiers := by
  rw [State.hasAccount, AList.lookup_isSome]

namespace OffChain

variable {N : Type}

def SettlementSystem.PairSpent (s : SettlementSystem N) : SettlementEvent N → Prop
  | .land _ => True
  | .settle _ approved _ _ _ => s.chain.hasAccount (.nullifier approved.request.nullifiers.1) = true →
      s.chain.hasAccount (.nullifier approved.request.nullifiers.2) = true

namespace SpentSetAux

theorem mem_insertNullifier {p : ShieldedPool} {acknowledged : Bool}
    (h : n ∈ (p.insertNullifier store acknowledged nullifier).2.1.nullifierSet) : n ∈ p.nullifierSet ∨ n = nullifier := by
  unfold ShieldedPool.insertNullifier at h
  split at h
  · exact .inl h
  · split at h
    · exact .inl h
    · rcases Finset.mem_insert.mp h with h | h
      · exact .inr h
      · exact .inl h

theorem mem_recordSpent {p : ShieldedPool} {nullifiers : Bytes32 × Bytes32}
    (h : n ∈ (p.recordSpent store acknowledged nullifiers).1.nullifierSet) :
    n ∈ p.nullifierSet ∨ n = nullifiers.1 ∨ n = nullifiers.2 := by
  rcases mem_insertNullifier h with h | h
  · rcases mem_insertNullifier h with h | h
    · exact .inl h
    · exact .inr (.inl h)
  · exact .inr (.inr h)

/-- What a settlement records, and on what evidence: its submission succeeded, or it read the account of the first
nullifier. -/
theorem mem_settleTransactViaCosign {bridge : Option SettlementBridge}
    (h : n ∈ (settleTransactViaCosign bridge cosign acknowledged approved node).2.pool.nullifierSet) :
    n ∈ node.pool.nullifierSet ∨ (n = approved.request.nullifiers.1 ∨ n = approved.request.nullifiers.2) ∧
      ∃ b ∈ bridge, (∃ tx sig, b.submitSignedTransaction tx = .ok sig) ∨
        b.isNullifierSpent approved.request.nullifiers.1 = true := by
  cases bridge with
  | none => exact .inl h
  | some b =>
    simp only [settleTransactViaCosign] at h
    split at h
    · exact .inl h
    split at h
    · exact .inl h
    rename_i tx _
    cases hsubmit : b.submitSignedTransaction tx with
    | ok sig =>
      simp only [hsubmit, if_true] at h
      exact (mem_recordSpent h).imp_right fun hn => ⟨hn, b, rfl, .inl ⟨tx, sig, hsubmit⟩⟩
    | error e =>
      simp only [hsubmit] at h
      split at h
      · rename_i hspent
        exact (mem_recordSpent h).imp_right fun hn => ⟨hn, b, rfl, .inr hspent⟩
      · exact .inl h

theorem settle_lost_race (approved : ApprovedTransact) (acknowledged : Bool × Bool)
    (hblockhash : bridge.latestBlockhash = .ok blockhash) (hcosign : cosign blockhash = .ok tx)
    (hsubmit : bridge.submitSignedTransaction tx = .error e)
    (hspent : bridge.isNullifierSpent approved.request.nullifiers.1 = true) :
    (settleTransactViaCosign (some bridge) cosign acknowledged approved node).2.pool =
      (node.pool.recordSpent node.store acknowledged approved.request.nullifiers).1 := by
  simp only [settleTransactViaCosign, hblockhash, hcosign, hsubmit, hspent, if_true]

theorem hasAccount_of_isNullifierSpent {b : SettlementBridge} (htruthful : b.Truthful chain landed nullifiers)
    (h : b.isNullifierSpent n = true) : chain.hasAccount (.nullifier n) = true := by
  unfold SettlementBridge.isNullifierSpent at h
  split at h
  · rename_i owner hread
    rw [← State.owner_eq_programId_iff, ← htruthful.read _ _ hread]
    exact of_decide_eq_true h
  · cases h

/-- What every run keeps: the nullifiers of what has landed are on chain, and so is everything that a node has recorded. -/
structure Sound (nodes : N → OpenPool) (s : SettlementSystem N) : Prop where
  landed : ∀ a ∈ s.landed, ∀ n ∈ a.nullifiers, n ∈ s.chain.nullifiers
  recorded : ∀ node, ∀ n ∈ (s.nodes node).pool.nullifierSet, n ∈ (nodes node).pool.nullifierSet ∨ n ∈ s.chain.nullifiers

variable {nodes : N → OpenPool}

theorem recorded_on_chain (hs : Sound nodes s) {approved : ApprovedTransact}
    (hpair : s.PairSpent (.settle node approved bridge cosign acknowledged))
    (htruthful : ∀ b ∈ bridge, b.Truthful s.chain s.landed approved.request.nullifiers)
    (h : n ∈ (settleTransactViaCosign bridge cosign acknowledged approved (s.nodes node)).2.pool.nullifierSet) :
    n ∈ (s.nodes node).pool.nullifierSet ∨ n ∈ s.chain.nullifiers := by
  refine (mem_settleTransactViaCosign h).imp_right ?_
  rintro ⟨hn, b, hb, ⟨tx, sig, hsubmit⟩ | hspent⟩
  · obtain ⟨a, ha, hnullifiers⟩ := (htruthful b hb).submitted tx sig hsubmit
    refine hs.landed a ha n ?_
    rcases hn with rfl | rfl <;> simp [hnullifiers]
  · have hfirst := hasAccount_of_isNullifierSpent (htruthful b hb) hspent
    rcases hn with rfl | rfl
    · exact State.hasAccount_nullifier_iff.mp hfirst
    · exact State.hasAccount_nullifier_iff.mp (hpair hfirst)

theorem sound_step [DecidableEq N] (hs : Sound nodes s) (hpair : s.PairSpent e) (h : SettlementStep Γ s e s') :
    Sound nodes s' := by
  cases h with
  | land step =>
    obtain ⟨-, -, hnullifiers⟩ := step.noteStep.nullifiers
    refine ⟨?_, ?_⟩
    · intro a ha n hn
      rcases List.mem_append.mp ha with ha | ha
      · exact (hnullifiers n).mpr (.inr (hs.landed a ha n hn))
      · rw [List.mem_singleton.mp ha] at hn
        exact (hnullifiers n).mpr (.inl hn)
    · intro node n hn
      exact (hs.recorded node n hn).imp_right fun h => (hnullifiers n).mpr (.inr h)
  | @settle node approved bridge cosign acknowledged htruthful =>
    refine ⟨hs.landed, ?_⟩
    intro other n hn
    by_cases hother : other = node
    · subst hother
      simp only [Function.update_self] at hn
      rcases recorded_on_chain hs hpair htruthful hn with hn | hn
      · exact hs.recorded other n hn
      · exact .inr hn
    · simp only [Function.update_of_ne hother] at hn
      exact hs.recorded other n hn

theorem run_land [DecidableEq N] (h : Execution Γ chain actions chain') :
    Run (fun s e s' => s.PairSpent e ∧ SettlementStep Γ s e s') ⟨chain, [], nodes⟩ (actions.map .land)
      ⟨chain', actions, nodes⟩ := by
  induction h with
  | nil => exact .nil
  | snoc _ last ih =>
    rw [List.map_append]
    exact ih.snoc ⟨trivial, .land last⟩

end SpentSetAux

/-- In a run in which no settlement finds the first nullifier of its pair on chain without the second, everything that a node
records has its account. -/
theorem spent_set_behind_chain [DecidableEq N] (Γ : Ctx) (chain : State) (nodes : N → OpenPool)
    (events : List (SettlementEvent N)) (s : SettlementSystem N)
    (hrun : Run (fun s e s' => s.PairSpent e ∧ SettlementStep Γ s e s') ⟨chain, [], nodes⟩ events s) (node : N) (n : Bytes32)
    (hrecorded : (s.nodes node).pool.isSpent n = true) (hnew : (nodes node).pool.isSpent n = false) :
    s.chain.hasAccount (.nullifier n) = true := by
  have hstart : SpentSetAux.Sound nodes ⟨chain, [], nodes⟩ := ⟨by simp, fun _ _ hn => .inl hn⟩
  have hsound := hrun.invariant hstart fun t e u ht hstep => SpentSetAux.sound_step ht hstep.1 hstep.2
  exact State.hasAccount_nullifier_iff.mpr
    ((hsound.recorded node n (of_decide_eq_true hrecorded)).resolve_left (of_decide_eq_false hnew))

namespace SpentSample

open SettleSample (request)

def fresh : OpenPool := ⟨PoolProcess.start.pool, .empty⟩

/-- A run of the chain that settles the first nullifier of the request, together with another one. -/
def landing (second : Bytes32) : List Action :=
  Sample.settlement.take 8 ++ [.program ⟨17, 0⟩ (.transact Sample.operator (.key Sample.depositor)
    [⟨.key Sample.cosigner, true⟩, ⟨.validator (.key Sample.cosigner), false⟩]
    { Sample.withdrawal with nullifier0 := request.nullifiers.1, nullifier1 := second })]

def bridge (chain : State) : SettlementBridge where
  latestBlockhash := .ok (.replicate 32 9)
  submitSignedTransaction _ :=
    .error (.solanaRpc "Error processing Instruction 1: custom program error: 0x0")
  getAccount key := if chain.hasAccount key then some programId else none

def cosign (blockhash : Bytes32) : Except String Transaction :=
  cosignSettlementTransactTx SettleSample.crypto CoSignSample.sdk SettleSample.convert ApprovalSample.settings
    (SettleSample.nodeAfter []).coordinator ⟨request⟩ blockhash SettleSample.answers

def settling (chain : State) : SettlementEvent Unit := .settle () ⟨request⟩ (some (bridge chain)) cosign (true, true)

/-- The node after the settlement. -/
def loser (chain : State) : OpenPool :=
  (settleTransactViaCosign (some (bridge chain)) cosign (true, true) ⟨request⟩ fresh).2

theorem bridge_truthful : (bridge chain).Truthful chain landed nullifiers := by
  refine ⟨?_, ?_⟩
  · intro tx sig h
    cases h
  · intro key owner h
    simp only [bridge] at h
    split at h
    · rename_i hexists
      rw [State.owner_eq_programId_iff.mpr hexists, Option.some.inj h]
    · cases h

theorem loser_recorded (h : chain.hasAccount (.nullifier request.nullifiers.1) = true) :
    (loser chain).pool.isSpent request.nullifiers.2 = true := by
  have hround : ∃ tx ∈ (cosign (.replicate 32 9)).toOption, tx.signatures.length = 2 := by decide +kernel
  obtain ⟨tx, htx, -⟩ := hround
  have hcosign : cosign (.replicate 32 9) = .ok tx := Checked.toOption_eq_some_iff.mp htx
  have hspent : (bridge chain).isNullifierSpent request.nullifiers.1 = true := by
    simp [SettlementBridge.isNullifierSpent, bridge, h]
  have hblockhash : (bridge chain).latestBlockhash = .ok (.replicate 32 9) := rfl
  rw [loser, SpentSetAux.settle_lost_race ⟨request⟩ (true, true) hblockhash hcosign rfl hspent]
  decide +kernel

theorem settling_step :
    SettlementStep Sample.ctx ⟨chain, landed, fun _ => fresh⟩ (settling chain) ⟨chain, landed, fun _ => loser chain⟩ := by
  have hstep : SettlementStep Sample.ctx ⟨chain, landed, fun _ => fresh⟩ (settling chain) _ :=
    .settle fun b hb => by
      obtain rfl := Option.some.inj hb
      exact bridge_truthful
  have hnodes : Function.update (fun _ => fresh) () (loser chain) = fun _ => loser chain := by
    funext u
    rw [Function.update_self]
  rwa [← loser, hnodes] at hstep

end SpentSample

open SpentSample SpentSetAux
open SettleSample (request)

/-- A node that loses the race to a settlement of the same pair records it, and both accounts are there. -/
theorem spent_set_behind_chain_lost_race : ∃ chain landed, ∃ events : List (SettlementEvent Unit),
      Run (fun s e s' => s.PairSpent e ∧ SettlementStep Sample.ctx s e s')
        ⟨Sample.genesis, [], fun _ => SpentSample.fresh⟩ events ⟨chain, landed, fun _ => SpentSample.loser chain⟩ ∧
      (SpentSample.loser chain).pool.isSpent SettleSample.request.nullifiers.2 = true ∧
      chain.hasAccount (.nullifier SettleSample.request.nullifiers.2) = true := by
  have hlanding : succeedsWith Sample.ctx Sample.genesis (landing request.nullifiers.2) (fun s =>
      s.hasAccount (.nullifier request.nullifiers.1) ∧
        s.hasAccount (.nullifier request.nullifiers.2)) = true := by decide +kernel
  obtain ⟨chain, hexec, hcheck⟩ := exists_execution hlanding
  have haccounts : chain.hasAccount (.nullifier request.nullifiers.1) = true ∧
      chain.hasAccount (.nullifier request.nullifiers.2) = true := of_decide_eq_true hcheck
  rcases haccounts with ⟨hfirst, hsecond⟩
  have hpair : (⟨chain, landing request.nullifiers.2, fun _ => fresh⟩ :
      SettlementSystem Unit).PairSpent (settling chain) := fun _ => hsecond
  have hrun := (run_land hexec).snoc ⟨hpair, settling_step⟩
  have hrecorded := loser_recorded hfirst
  exact ⟨chain, _, _, hrun, hrecorded, spent_set_behind_chain Sample.ctx Sample.genesis _ _ _ hrun () _ hrecorded rfl⟩

/-- A settlement with the same first nullifier and another second one has landed: the node records a nullifier that has no
account. -/
theorem spent_set_ahead_of_chain : ∃ chain landed, ∃ events : List (SettlementEvent Unit),
      Run (SettlementStep Sample.ctx) ⟨Sample.genesis, [], fun _ => SpentSample.fresh⟩ events
        ⟨chain, landed, fun _ => SpentSample.loser chain⟩ ∧
      (SpentSample.loser chain).pool.isSpent SettleSample.request.nullifiers.2 = true ∧
      SpentSample.fresh.pool.isSpent SettleSample.request.nullifiers.2 = false ∧
      chain.hasAccount (.nullifier SettleSample.request.nullifiers.2) = false := by
  have hlanding : succeedsWith Sample.ctx Sample.genesis (landing (Sample.word 22)) (fun s =>
      s.hasAccount (.nullifier request.nullifiers.1) ∧
        s.hasAccount (.nullifier request.nullifiers.2) = false) = true := by decide +kernel
  obtain ⟨chain, hexec, hcheck⟩ := exists_execution hlanding
  have haccounts : chain.hasAccount (.nullifier request.nullifiers.1) = true ∧
      chain.hasAccount (.nullifier request.nullifiers.2) = false := of_decide_eq_true hcheck
  rcases haccounts with ⟨hfirst, hsecond⟩
  have hrun := ((run_land hexec).mono fun _ _ _ h => h.2).snoc settling_step
  have hrecorded := loser_recorded hfirst
  exact ⟨chain, _, _, hrun, hrecorded, rfl, hsecond⟩

end OffChain

end Paraloom
