import Paraloom.Lemmas.Notes

/-!
# No note is spent twice

A settlement is bound to its nullifiers as field elements, while the accounts that record them are keyed by bytes. The check
that a nullifier is encoded canonically closes the gap: over any run, distinct accounts are distinct field elements.
-/

namespace Paraloom
namespace NoDoubleSpendAux

variable {Γ : Ctx} {s s' : State} {actions : List Action}

theorem settled_recorded (h : Execution Γ s actions s') : (actions.flatMap Action.nullifiers).Nodup ∧
      ∀ n ∈ actions.flatMap Action.nullifiers, Canonical n ∧ n ∈ s'.nullifiers := by
  refine h.induction (P := fun as t => (as.flatMap Action.nullifiers).Nodup ∧
      ∀ n ∈ as.flatMap Action.nullifiers, Canonical n ∧ n ∈ t.nullifiers) ⟨List.nodup_nil, by simp⟩ ?_
  intro as t a u _ ⟨hnodup, hold⟩ hstep
  obtain ⟨hdistinct, hnew, hmem⟩ := hstep.noteStep.nullifiers
  rw [List.flatMap_append, List.flatMap_singleton]
  refine ⟨List.nodup_append'.mpr ⟨hnodup, hdistinct, ?_⟩, ?_⟩
  · -- what is recorded before the step cannot be settled by it
    intro n hn hn'
    exact (hnew n hn').2 (hold n hn).2
  · intro n hn
    rcases List.mem_append.mp hn with hn | hn
    · exact ⟨(hold n hn).1, (hmem n).mpr (.inr (hold n hn).2)⟩
    · exact ⟨(hnew n hn).1, (hmem n).mpr (.inl hn)⟩

end NoDoubleSpendAux

/-- Over any run of the chain from any state, the field elements of all nullifiers that `transact` and `transact_spl` settle
are pairwise distinct. -/
theorem settled_nullifiers_distinct {Γ : Ctx} {s s' : State} {actions : List Action} (h : Execution Γ s actions s') :
    ((actions.flatMap Action.nullifiers).map fromLeBytesModOrder).Nodup := by
  obtain ⟨hnodup, hcanonical⟩ := NoDoubleSpendAux.settled_recorded h
  refine hnodup.map_on ?_
  intro n hn m hm heq
  exact Canonical.lift_inj (hcanonical n hn).1 (hcanonical m hm).1 heq

/-- The sample run settles two nullifiers. -/
theorem settled_nullifiers_distinct_sample : Sample.settlement.flatMap Action.nullifiers = [Sample.word 21, Sample.word 22] ∧
      ((Sample.settlement.flatMap Action.nullifiers).map fromLeBytesModOrder).Nodup := by
  have hsucceeds : succeedsWith Sample.ctx Sample.genesis Sample.settlement (fun _ => true) = true := by decide +kernel
  obtain ⟨s, hrun, -⟩ := exists_execution hsucceeds
  exact ⟨rfl, settled_nullifiers_distinct hrun⟩

end Paraloom
