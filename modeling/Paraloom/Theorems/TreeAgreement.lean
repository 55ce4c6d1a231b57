import Paraloom.Lemmas.Circuit
import Paraloom.Lemmas.MerkleTree
import Paraloom.Lemmas.OffChainTree

/-!
# The node's tree and the program's tree agree

Both compute the root of the complete tree: the node from all leaves, the program from its working set. A path the node hands
out is therefore a path to the root the program holds, for the node's own check and for the fold of the circuit.
-/

namespace Paraloom

open IncrementalMerkleTree TransactCircuitV3

/-- With one pair hash and one empty leaf on both sides, and a lift of words to the field under which that hash is the pair
hash of the circuit: the root of the node is the root of the program, and for every leaf the node's path has one sibling per
height, passes `verify` against that root, and folds to it in the circuit along the bits of the index. -/
theorem trees_agree {α : Type} [DecidableEq α] (H : α → α → α) (zero : α) (zeros : List.Vector α (treeDepth + 1))
    (hzero : ZeroHashes H zero zeros) (lift : α → Fr) (poseidon : List Fr → Fr)
    (hlift : ∀ a b, lift (H a b) = v3MerklePair poseidon (lift a) (lift b)) (leaves : List α)
    (hlen : leaves.length ≤ 2 ^ treeDepth) :
    ∃ t, build (total H) zero zeros leaves = .ok t ∧ OffChain.computeRoot H zero leaves treeDepth = t.root ∧
      ∀ i (hi : i < leaves.length), let p := OffChain.computePath H zero leaves treeDepth i
        p.path.length = treeDepth ∧ p.indices.length = treeDepth ∧ p.verify H leaves[i] t.root = true ∧
          membershipFold (HashRel.ofFun poseidon) (lift leaves[i])
            (((BitString.bits treeDepth i).map (Nat.cast : Nat → Fr)).zip (p.path.map lift)) (lift t.root) := by
  obtain ⟨t, hbuild, ht⟩ := build_represents hzero leaves hlen
  have hroot : OffChain.computeRoot H zero leaves treeDepth = t.root := by
    rw [OffChain.computeRoot_eq]
    exact (HashTree.node_iff (pairHash_total H)).mp ht.root
  refine ⟨t, hbuild, hroot, ?_⟩
  intro i hi p
  have hfits : i < 2 ^ treeDepth := by omega
  obtain ⟨hpath, hindices⟩ : p.path.length = treeDepth ∧ p.indices.length = treeDepth :=
    OffChain.computePath_length leaves treeDepth i
  have hfold : HashTree.fold H leaves[i] i p.path = t.root := by
    rw [← hroot, OffChain.computeRoot_eq]
    exact OffChain.fold_computePath hi hfits
  refine ⟨hpath, hindices, ?_, ?_⟩
  · rw [← hroot]
    exact OffChain.verify_computePath hi hfits
  · rw [CircuitAux.membershipFold_iff _ _ _ _ _ _ (by rw [List.length_map, hpath]), ← hfold, HashTree.fold_map hlift]
    have hpair : ∀ a b, (HashRel.ofFun poseidon).pair a b (v3MerklePair poseidon a b) := fun _ _ => rfl
    exact HashTree.Fold.of_fold hpair _ _ _

/-- A toy hash of the field. -/
def mixFields (xs : List Fr) : Fr := xs.foldl (fun acc x => acc * acc + x) 1

/-- The words of the node under its own `hash_pair`, with two leaves. -/
theorem trees_agree_two : let H := OffChain.hashWords (v3MerklePair mixFields)
    let leaves := [LittleEndian.vec 32 7, LittleEndian.vec 32 8]
    ∃ t, build (total H) zero32 (zerosOf H zero32) leaves = .ok t ∧
      OffChain.computeRoot H zero32 leaves treeDepth = t.root ∧
      (OffChain.computePath H zero32 leaves treeDepth 1).verify H (LittleEndian.vec 32 8) t.root = true := by
  intro H leaves
  have hlift : ∀ a b, fromLeBytesModOrder (H a b) = v3MerklePair mixFields (fromLeBytesModOrder a) (fromLeBytesModOrder b) :=
    fun a b => fromLeBytesModOrder_toBytesLe _
  obtain ⟨t, hbuild, hroot, hpaths⟩ := trees_agree H zero32 (zerosOf H zero32) (zeroHashes_zerosOf H zero32)
    fromLeBytesModOrder mixFields hlift leaves (by decide)
  exact ⟨t, hbuild, hroot, (hpaths 1 (by decide)).2.2.1⟩

end Paraloom
