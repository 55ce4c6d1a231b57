import Paraloom.Lemmas.Circuit

/-!
# The relation the circuit proves

Over the Poseidon hash function the constraints of `TransactCircuitV3` are satisfiable exactly when there are four notes
with the v3 hashes the public inputs name and an integer balance between them.
-/

namespace Paraloom

/-! ## Notes over a hash function -/

def foldToRoot (poseidon : List Fr → Fr) : (current : Fr) → (leafIndex : Nat) → (siblings : List Fr) → Fr
  | current, _, [] => current
  | current, leafIndex, sibling :: rest =>
    let next := if leafIndex % 2 = 1 then v3MerklePair poseidon sibling current else v3MerklePair poseidon current sibling
    foldToRoot poseidon next (leafIndex / 2) rest

namespace InputNote

variable (poseidon : List Fr → Fr)

def commitment (assetId : Fr) (n : InputNote) : Fr :=
  v3Commit poseidon n.amountFr (v3Pubkey poseidon n.privkey) n.blinding assetId

def nullifier (assetId : Fr) (n : InputNote) : Fr :=
  let c := n.commitment poseidon assetId
  v3Nullifier poseidon c n.leafIndexFr (v3Signature poseidon n.privkey c n.leafIndexFr)

def foldedRoot (assetId : Fr) (n : InputNote) : Fr :=
  foldToRoot poseidon (n.commitment poseidon assetId) n.leafIndex.toNat n.siblings.val

end InputNote

def OutputNote.commitment (poseidon : List Fr → Fr) (assetId : Fr) (n : OutputNote) : Fr :=
  v3Commit poseidon n.amountFr n.pubkey n.blinding assetId

namespace CircuitRelationAux

theorem fold_ofFun_iff : HashTree.Fold (HashRel.ofFun poseidon).pair c j ss r ↔ r = foldToRoot poseidon c j ss := by
  induction ss generalizing c j with
  | nil => exact Iff.rfl
  | cons s ss ih =>
    simp only [HashTree.Fold, foldToRoot, HashRel.pair, HashRel.ofFun, v3MerklePair]
    by_cases hj : j % 2 = 1 <;> simp [hj, ih]

theorem spends_ofFun_iff (root assetId nf : Fr) (n : InputNote) : n.Spends (.ofFun poseidon) root assetId nf ↔
      nf = n.nullifier poseidon assetId ∧ (n.amount ≠ 0 → root = n.foldedRoot poseidon assetId) := by
  constructor
  · rintro ⟨pk, c, sig, ⟨rfl, rfl, rfl, rfl⟩, hfold⟩
    exact ⟨rfl, fun hne => (fold_ofFun_iff).mp (hfold hne)⟩
  · rintro ⟨rfl, hfold⟩
    exact ⟨_, _, _, ⟨rfl, rfl, rfl, rfl⟩, fun hne => (fold_ofFun_iff).mpr (hfold hne)⟩

end CircuitRelationAux

open CircuitRelationAux

/-- The circuit is satisfiable exactly when its public inputs come from two notes to spend and two to create: the nullifiers
and the output commitments are the v3 hashes of the notes under the asset, a note that holds value folds along the bits of its
leaf index to the root, the nullifiers differ, and the amounts balance over the integers. -/
theorem transactCircuit_satisfiable_iff (poseidon : List Fr → Fr) (pub : TransactCircuitV3.PublicInputs)
    (extAmount : Int64) (hext : pub.publicAmount = fromLeBytesModOrder (publicAmountBytes extAmount)) :
    TransactCircuitV3.Satisfiable (.ofFun poseidon) pub ↔
      ∃ (in0 in1 : InputNote) (out0 out1 : OutputNote),
        pub.nullifier0 = in0.nullifier poseidon pub.assetId ∧ pub.nullifier1 = in1.nullifier poseidon pub.assetId ∧
        pub.outCommitment0 = out0.commitment poseidon pub.assetId ∧
        pub.outCommitment1 = out1.commitment poseidon pub.assetId ∧
        (in0.amount ≠ 0 → pub.root = in0.foldedRoot poseidon pub.assetId) ∧
        (in1.amount ≠ 0 → pub.root = in1.foldedRoot poseidon pub.assetId) ∧
        pub.nullifier0 ≠ pub.nullifier1 ∧
        (in0.amount.toNat : Int) + in1.amount.toNat + extAmount.toInt = out0.amount.toNat + out1.amount.toNat := by
  rw [fromLeBytesModOrder_publicAmountBytes] at hext
  constructor
  · intro h
    obtain ⟨in0, in1, out0, out1, hs0, hs1, ho0, ho1, hne, hbal⟩ := h.sound hext
    rw [spends_ofFun_iff] at hs0 hs1
    exact ⟨in0, in1, out0, out1, hs0.1, hs1.1, ho0, ho1, hs0.2, hs1.2, hne, hbal⟩
  · rintro ⟨in0, in1, out0, out1, hn0, hn1, ho0, ho1, hr0, hr1, hne, hbal⟩
    have hs0 := (spends_ofFun_iff pub.root pub.assetId pub.nullifier0 in0).mpr ⟨hn0, hr0⟩
    have hs1 := (spends_ofFun_iff pub.root pub.assetId pub.nullifier1 in1).mpr ⟨hn1, hr1⟩
    exact TransactCircuitV3.Satisfiable.complete hext ⟨hs0, hs1, ho0, ho1, hne, hbal⟩
      (TransactCircuitV3.InputConstraints.of_spends hs0) (TransactCircuitV3.InputConstraints.of_spends hs1)

/-- Two dummy inputs and two empty outputs settle a transfer of nothing, here over the sum of the inputs as the hash. -/
theorem transactCircuit_satisfiable_dummies : TransactCircuitV3.Satisfiable (.ofFun List.sum) ⟨0, 0, 0, 0, 0, 3, 0, 0⟩ := by
  apply (transactCircuit_satisfiable_iff List.sum ⟨0, 0, 0, 0, 0, 3, 0, 0⟩ 0 (by decide +kernel)).mpr
  refine ⟨⟨0, 0, 0, 0, List.Vector.replicate 32 0⟩, ⟨0, 1, 0, 0, List.Vector.replicate 32 0⟩, ⟨0, 0, 0⟩, ⟨0, 0, 0⟩, ?_⟩
  refine ⟨by decide +kernel, by decide +kernel, by decide +kernel, by decide +kernel, ?_, ?_, by decide +kernel, by decide⟩
  · exact fun h => absurd rfl h
  · exact fun h => absurd rfl h

end Paraloom
