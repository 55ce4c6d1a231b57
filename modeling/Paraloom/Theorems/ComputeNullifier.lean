import Paraloom.OffChain.PrivateJob

/-!
# The nullifier of a compute job

The commitment of the input note fixes the hash of the data, the randomness and the owner. The spending key is not among them,
so that every key gives the note another nullifier.
-/

namespace Paraloom.OffChain

open ComputeCircuit

/-- The tuples that the constraints hash. -/
def ComputeCircuit.hashed (pub : PublicInputs) (w : Wires) : Set (List Fr) :=
  {[1, w.inputHash, w.inputRandomness, w.ownerAddress, 0], [1, w.outputHash, w.outputRandomness, w.ownerAddress, 0],
    [((2 : Nat) : Fr), pub.inputCommitment, w.spendingKey]}

/-- Two satisfying assignments for one input commitment, between whose tuples the hash does not collide, open it in the same
way, and their nullifiers are equal exactly if their spending keys are. Any other key satisfies the circuit as well. -/
theorem compute_nullifier_eq_iff {poseidonHashFields : List Fr → Fr} {pub pub' : PublicInputs} {w w' : Wires}
    (h : Satisfied poseidonHashFields pub w) (h' : Satisfied poseidonHashFields pub' w')
    (hcommitment : pub.inputCommitment = pub'.inputCommitment)
    (hinjective : Set.InjOn poseidonHashFields (hashed pub w ∪ hashed pub' w')) :
    (w.inputHash = w'.inputHash ∧ w.inputRandomness = w'.inputRandomness ∧ w.ownerAddress = w'.ownerAddress) ∧
      (pub.inputNullifier = pub'.inputNullifier ↔ w.spendingKey = w'.spendingKey) ∧
      ∀ key, Satisfied poseidonHashFields
        { pub with inputNullifier := poseidonNullifier poseidonHashFields pub.inputCommitment key }
        { w with spendingKey := key } := by
  refine ⟨?_, ?_, fun key => ⟨h.inputCommitment, h.outputCommitment, rfl⟩⟩
  · have hopened := hinjective (.inl (.inl rfl)) (.inr (.inl rfl))
      (h.inputCommitment.trans (hcommitment.trans h'.inputCommitment.symm))
    simp only [List.cons.injEq] at hopened
    exact ⟨hopened.2.1, hopened.2.2.1, hopened.2.2.2.1⟩
  · rw [← h.inputNullifier, ← h'.inputNullifier, ← hcommitment]
    constructor
    · intro hnullifier
      have hkeys := hinjective (.inl (.inr (.inr rfl))) (.inr (.inr (.inr (by rw [hcommitment]; rfl)))) hnullifier
      simpa using hkeys
    · intro hkeys
      rw [hkeys]

namespace ComputeNullifierSample

/-- A hash that does not collide on the tuples of the sample. -/
def sponge : List Fr → Fr
  | [_, _, key] => key
  | _ => ((7 : Nat) : Fr)

/-- The same data and the same note with a spending key. -/
def wires (key : Nat) : Wires := ⟨0, 0, 0, 0, 0, (key : Fr)⟩

def inputs (key : Nat) : PublicInputs := ⟨0, ((7 : Nat) : Fr), ((7 : Nat) : Fr), (key : Fr)⟩

theorem satisfied_inputs (key : Nat) : Satisfied sponge (inputs key) (wires key) := ⟨rfl, rfl, rfl⟩

theorem injOn_hashed : Set.InjOn sponge (hashed (inputs 1) (wires 1) ∪ hashed (inputs 2) (wires 2)) := by
  have hkey : ∀ key < 7, ((key : Nat) : Fr) ≠ (7 : Nat) := fun key hlt heq =>
    hlt.ne (natCast_fr_inj (hlt.trans (by decide)) (by decide) heq)
  -- the value of the hash tells its tuple
  have hleft : Set.LeftInvOn (fun y : Fr => if y = (7 : Nat) then [1, 0, 0, 0, 0] else [((2 : Nat) : Fr), (7 : Nat), y])
      sponge (hashed (inputs 1) (wires 1) ∪ hashed (inputs 2) (wires 2)) := by
    rintro _ ((rfl | rfl | rfl) | rfl | rfl | rfl)
    · exact if_pos rfl
    · exact if_pos rfl
    · exact if_neg (hkey 1 (by decide))
    · exact if_pos rfl
    · exact if_pos rfl
    · exact if_neg (hkey 2 (by decide))
  exact hleft.injOn

end ComputeNullifierSample

open ComputeNullifierSample in
theorem compute_nullifier_eq_iff_sample :
    (inputs 1).inputNullifier = (inputs 2).inputNullifier ↔ (wires 1).spendingKey = (wires 2).spendingKey :=
  (compute_nullifier_eq_iff (satisfied_inputs 1) (satisfied_inputs 2) rfl injOn_hashed).2.1

open ComputeNullifierSample in
/-- One note with two nullifiers. -/
theorem note_spent_under_two_keys : Satisfied sponge (inputs 1) (wires 1) ∧ Satisfied sponge (inputs 2) (wires 2) ∧
    Set.InjOn sponge (hashed (inputs 1) (wires 1) ∪ hashed (inputs 2) (wires 2)) ∧
    (inputs 1).inputCommitment = (inputs 2).inputCommitment ∧ (inputs 1).inputNullifier ≠ (inputs 2).inputNullifier := by
  refine ⟨satisfied_inputs 1, satisfied_inputs 2, injOn_hashed, rfl, fun heq => ?_⟩
  exact absurd (natCast_fr_inj (by decide) (by decide) heq) (by decide)

end Paraloom.OffChain
