import Paraloom.Lemmas.MerkleTree

/-!
# The on-chain tree is the complete tree

The account keeps one node per height, yet its root is the root of the complete tree of depth 32 over every leaf appended so
far: at a height with an odd number of complete nodes the working set holds the last of them, and what it holds at the other
heights is overwritten before it is read.
-/

namespace Paraloom

open IncrementalMerkleTree HashTree

/-- For every pair hash, zero table and leaf list that fits: the account built from the leaves holds the root of the complete
tree; the working set holds the last complete left node wherever one waits for its sibling; every append, to this account or to
one that agrees with it on those entries, returns the root over the leaves and the new one; and an append to a full tree fails.
-/
theorem incremental_tree_complete {α : Type} (H : α → α → α) (zero : α) (zeros : List.Vector α (treeDepth + 1))
    (hzero : ZeroHashes H zero zeros) (leaves : List α) (hlen : leaves.length ≤ 2 ^ treeDepth) :
    ∃ t, build (total H) zero zeros leaves = .ok t ∧ t.root = completeRoot H zero treeDepth leaves ∧
      (∀ i : Fin treeDepth, leaves.length / 2 ^ i.val % 2 = 1 →
        t.filledSubtrees.get i = node H (padded zero leaves) i (leaves.length / 2 ^ i.val - 1)) ∧
      (leaves.length < 2 ^ treeDepth → ∀ (t₁ : IncrementalMerkleTree α) (leaf : α), t₁.nextIndex = t.nextIndex →
        (∀ i : Fin treeDepth, leaves.length / 2 ^ i.val % 2 = 1 →
          t₁.filledSubtrees.get i = t.filledSubtrees.get i) →
        ∃ t₂, append (total H) (siblings zeros) t₁ leaf = .ok (t₂, completeRoot H zero treeDepth (leaves ++ [leaf])) ∧
          t₂.root = completeRoot H zero treeDepth (leaves ++ [leaf])) ∧
      (leaves.length = 2 ^ treeDepth →
        ∀ leaf, append (total H) (siblings zeros) t leaf = .error (.bridge .invalidProof)) := by
  obtain ⟨t, hbuild, ht⟩ := build_represents hzero leaves hlen
  have hfilled : ∀ i : Fin treeDepth, leaves.length / 2 ^ i.val % 2 = 1 →
      t.filledSubtrees.get i = node H (padded zero leaves) i (leaves.length / 2 ^ i.val - 1) := by
    intro i hodd
    have hentry := frontier_iff.mp ht.frontier i (by rw [t.filledSubtrees.property]; exact i.isLt) hodd
    rw [Nat.zero_add, node_iff (pairHash_total H)] at hentry
    exact hentry.symm
  refine ⟨t, hbuild, ((node_iff (pairHash_total H)).mp ht.root).symm, hfilled, ?_, ?_⟩
  · intro hroom t₁ leaf hnext hagree
    have hfront : Frontier (PairHash (total H)) (padded zero leaves) 0 leaves.length t₁.filledSubtrees.val := by
      refine frontier_iff.mpr fun k hk hodd => ?_
      rw [t₁.filledSubtrees.property] at hk
      rw [Nat.zero_add, node_iff (pairHash_total H), ← hfilled ⟨k, hk⟩ hodd, ← hagree ⟨k, hk⟩ hodd]
      rfl
    obtain ⟨t₂, happ⟩ := append_total hzero (hnext.trans ht.nextIndex) hroom hfront leaf
    obtain ⟨-, -, filled, -, ht₂⟩ := append_ok_iff.mp happ
    exact ⟨t₂, happ, by rw [ht₂]⟩
  · intro hfull leaf
    have hnot : ¬ t.nextIndex < 2 ^ treeDepth := by
      rw [ht.nextIndex, hfull]
      exact lt_irrefl _
    rw [append, require, Checked.require, if_neg hnot]
    rfl

/-- A toy pair hash. -/
def mixPair (a b : Nat) : Nat := (3 * a + 5 * b + 1) % 65537

/-- Three leaves: the third leaf and the node over the first two wait for their siblings. -/
theorem incremental_tree_complete_three : ∃ t, build (total mixPair) 0 (zerosOf mixPair 0) [7, 8, 9] = .ok t ∧
      t.root = completeRoot mixPair 0 treeDepth [7, 8, 9] ∧
      t.filledSubtrees.get ⟨0, by decide⟩ = 9 ∧ t.filledSubtrees.get ⟨1, by decide⟩ = mixPair 7 8 ∧
      ∃ t₂, append (total mixPair) (siblings (zerosOf mixPair 0)) t 10 =
        .ok (t₂, completeRoot mixPair 0 treeDepth [7, 8, 9, 10]) := by
  obtain ⟨t, hbuild, hroot, hfilled, happend, -⟩ := incremental_tree_complete mixPair 0 (zerosOf mixPair 0)
    (zeroHashes_zerosOf mixPair 0) [7, 8, 9] (by decide)
  obtain ⟨t₂, h, -⟩ := happend (by decide) t 10 rfl (fun _ _ => rfl)
  refine ⟨t, hbuild, hroot, ?_, ?_, t₂, h⟩
  · rw [hfilled ⟨0, by decide⟩ (by decide)]
    decide
  · rw [hfilled ⟨1, by decide⟩ (by decide)]
    decide

end Paraloom
