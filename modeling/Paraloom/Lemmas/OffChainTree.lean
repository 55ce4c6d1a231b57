import Mathlib.Data.List.GetD
import Paraloom.OffChain.MerkleTree

/-!
# The node's tree is the complete tree

Each layer of the recomputation holds the nodes of its height from the left, and what it does not hold is empty. So the last
layer starts with the root, and the siblings a path collects are the siblings in the complete tree.
-/

namespace Paraloom.OffChain

open HashTree List

variable {α : Type} {hashPair : α → α → α} {emptyLeaf : α}
variable {f : Nat → α} {empty : α} {layer : List α}

/-- A layer holds the nodes of height `i` over the leaves, and every node beyond its end is the empty subtree `empty`. -/
def IsLayer (hashPair : α → α → α) (f : Nat → α) (i : Nat) (empty : α) (layer : List α) : Prop :=
  ∀ j, layer.getD j empty = node hashPair f i j

theorem isLayer_leaves : IsLayer hashPair (padded emptyLeaf leaves) 0 emptyLeaf leaves := fun _ => rfl

theorem IsLayer.next (h : IsLayer hashPair f i empty layer) :
    IsLayer hashPair f (i + 1) (hashPair empty empty) (nextLayer hashPair layer empty) := by
  intro j
  rw [node, ← h, ← h]
  unfold nextLayer
  by_cases hj : j < (layer.length + 1) / 2
  · rw [getD_eq_getElem _ _ (by simpa using hj)]
    simp
  · -- beyond the end of the new layer both children are beyond the end of the old one
    rw [getD_eq_default _ _ (by simpa using hj), getD_eq_default _ _ (by omega), getD_eq_default _ _ (by omega)]

theorem nextLayer_ne_nil (h : layer ≠ []) : nextLayer hashPair layer empty ≠ [] := by
  have hpos : 0 < layer.length := length_pos_iff.mpr h
  rw [← length_pos_iff, nextLayer, length_map, length_range]
  omega

theorem IsLayer.layers (h : IsLayer hashPair f i empty layer) (hne : layer ≠ []) :
    ∃ empty', IsLayer hashPair f (i + n) empty' (((emptiesFrom hashPair empty n).take n).foldl (nextLayer hashPair) layer) ∧
      ((emptiesFrom hashPair empty n).take n).foldl (nextLayer hashPair) layer ≠ [] := by
  induction n generalizing i empty layer with
  | zero => exact ⟨empty, by simpa [emptiesFrom] using h, by simpa [emptiesFrom] using hne⟩
  | succ n ih =>
    obtain ⟨empty', hlayer, hne'⟩ := ih h.next (nextLayer_ne_nil hne)
    rw [Nat.add_assoc, Nat.add_comm 1] at hlayer
    exact ⟨empty', hlayer, hne'⟩

/-- The empty subtrees are the roots over no leaves. -/
theorem emptiesFrom_getD {i k n : Nat} {fallback : α} (hk : k ≤ n) (h : IsLayer hashPair f i empty []) :
    (emptiesFrom hashPair empty n).getD k fallback = node hashPair f (i + k) 0 := by
  induction n generalizing i k empty with
  | zero =>
    obtain rfl := Nat.le_zero.mp hk
    exact h 0
  | succ n ih =>
    cases k with
    | zero => exact h 0
    | succ k =>
      have hnext : IsLayer hashPair f (i + 1) (hashPair empty empty) [] := by simpa [nextLayer] using h.next
      rw [emptiesFrom, getD_cons_succ, ih (Nat.le_of_succ_le_succ hk) hnext, Nat.add_assoc, Nat.add_comm 1]

/-- `compute_root` is the root of the complete tree. -/
theorem computeRoot_eq (leaves : List α) (depth : Nat) :
    computeRoot hashPair emptyLeaf leaves depth = completeRoot hashPair emptyLeaf depth leaves := by
  dsimp only [computeRoot]
  split
  · rename_i hempty
    obtain rfl := isEmpty_iff.mp hempty
    rw [emptySubtreeHashes, emptiesFrom_getD le_rfl (isLayer_leaves), Nat.zero_add, completeRoot]
  · rename_i hne
    rw [List.isEmpty_iff] at hne
    have hleaves : IsLayer hashPair (padded emptyLeaf leaves) 0 emptyLeaf leaves := isLayer_leaves
    obtain ⟨empty, hlayer, hne'⟩ := hleaves.layers hne
    rw [Nat.zero_add] at hlayer
    rw [emptySubtreeHashes, completeRoot, ← hlayer 0]
    obtain ⟨x, xs, hx⟩ := exists_cons_of_ne_nil hne'
    rw [hx]
    rfl

/-! ## Paths -/

theorem emptiesFrom_take_length : ((emptiesFrom hashPair empty n).take n).length = n := by
  induction n generalizing empty with
  | zero => rfl
  | succ n ih => simp [emptiesFrom, ih]

theorem pathFrom_length : (pathFrom hashPair empties layer j).length = empties.length := by
  induction empties generalizing layer j with
  | nil => rfl
  | cons empty empties ih => simp [pathFrom, ih]

theorem pathFrom_siblings (h : IsLayer hashPair f i empty layer) (k : Nat)
    (hk : k < ((pathFrom hashPair ((emptiesFrom hashPair empty n).take n) layer j).map Prod.fst).length) :
    ((pathFrom hashPair ((emptiesFrom hashPair empty n).take n) layer j).map Prod.fst)[k] =
      node hashPair f (i + k) (sibling (j / 2 ^ k)) := by
  induction n generalizing i j empty layer k with
  | zero => simp [emptiesFrom, pathFrom] at hk
  | succ n ih =>
    cases k with
    | zero => simpa [emptiesFrom, pathFrom, sibling] using h (sibling j)
    | succ k =>
      have hdiv : j / 2 / 2 ^ k = j / 2 ^ (k + 1) := by rw [Nat.div_div_eq_div_mul, Nat.pow_succ']
      have hrest := ih (j := j / 2) h.next k (by simpa [emptiesFrom, pathFrom] using hk)
      rw [hdiv, Nat.add_assoc, Nat.add_comm 1] at hrest
      simpa [emptiesFrom, pathFrom] using hrest

/-- Walking a path of the tree is folding along the bits of the position. -/
theorem foldl_pathFrom : (pathFrom hashPair empties layer j).foldl (verifyStep hashPair) c =
      fold hashPair c j ((pathFrom hashPair empties layer j).map Prod.fst) := by
  induction empties generalizing layer j c with
  | nil => rfl
  | cons empty empties ih =>
    rw [pathFrom, foldl_cons, map_cons, fold, ih, verifyStep]
    by_cases hodd : j % 2 = 1
    · simp [hodd]
    · simp [hodd]

theorem computePath_length (leaves : List α) (depth index : Nat) :
    (computePath hashPair emptyLeaf leaves depth index).path.length = depth ∧
      (computePath hashPair emptyLeaf leaves depth index).indices.length = depth := by
  simp only [computePath, emptySubtreeHashes, length_map, pathFrom_length, emptiesFrom_take_length, and_self]

theorem fold_computePath (hindex : index < leaves.length) (hfits : index < 2 ^ depth) :
    fold hashPair leaves[index] index (computePath hashPair emptyLeaf leaves depth index).path =
      completeRoot hashPair emptyLeaf depth leaves := by
  have hleaf : leaves[index] = node hashPair (padded emptyLeaf leaves) 0 index := by
    rw [node, padded, getD_eq_getElem _ _ hindex]
  rw [hleaf, fold_node, (computePath_length leaves depth index).1, Nat.zero_add, Nat.div_eq_of_lt hfits, completeRoot]
  exact fun k hk => pathFrom_siblings (isLayer_leaves) k hk

/-- `verify` accepts the path of a leaf against the root. -/
theorem verify_computePath [DecidableEq α] (hindex : index < leaves.length) (hfits : index < 2 ^ depth) :
    (computePath hashPair emptyLeaf leaves depth index).verify hashPair leaves[index]
      (computeRoot hashPair emptyLeaf leaves depth) = true := by
  unfold MerklePath.verify
  rw [if_neg (by simp [computePath]), decide_eq_true_iff, computeRoot_eq, ← fold_computePath hindex hfits,
    computePath, ← zip_of_prod rfl rfl, foldl_pathFrom]

end Paraloom.OffChain
