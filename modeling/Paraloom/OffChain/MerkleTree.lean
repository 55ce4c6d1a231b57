import Paraloom.Field
import Paraloom.Lib.HashTree

/-!
# The node's Merkle tree

A node keeps all leaves and recomputes: `compute_root` hashes the leaves up layer by layer, `compute_path` notes the sibling of
one position on the way up, and `MerklePath::verify` folds a leaf along such a path. The word type, the pair hash and the empty
leaf are parameters.
-/

namespace Paraloom.OffChain

/-- `hash_pair`: a pair hash of the field on words. -/
def hashWords (poseidonMerklePair : Fr → Fr → Fr) (left right : Bytes32) : Bytes32 :=
  let l := fromLeBytesModOrder left
  let r := fromLeBytesModOrder right
  toBytesLe (poseidonMerklePair l r)

variable {α : Type} (hashPair : α → α → α) (emptyLeaf : α)

/-- The roots of the empty subtrees from a height with root `empty` on, for `n` more heights. -/
def emptiesFrom (empty : α) : (n : Nat) → List α
  | 0 => [empty]
  | n + 1 => empty :: emptiesFrom (hashPair empty empty) n

/-- Entry `k` is the root of an empty subtree of height `k`. -/
def emptySubtreeHashes (depth : Nat) : List α := emptiesFrom hashPair emptyLeaf depth

/-- One layer up: neighbours are hashed, and an absent position counts as an empty subtree. -/
def nextLayer (layer : List α) (empty : α) : List α :=
  (List.range ((layer.length + 1) / 2)).map fun j =>
    let left := layer.getD (2 * j) empty
    let right := layer.getD (2 * j + 1) empty
    hashPair left right

/-- The root of the tree of a fixed depth. The last layer of a tree with a leaf has an entry, so the index of
`layer[0]` is in range. -/
def computeRoot (leaves : List α) (depth : Nat) : α :=
  let empties := emptySubtreeHashes hashPair emptyLeaf depth
  if leaves.isEmpty then empties.getD depth emptyLeaf
  else ((empties.take depth).foldl (nextLayer hashPair) leaves).headD emptyLeaf

/-- A path: the siblings from the leaf up, and for each one whether it stands on the right. -/
structure MerklePath (α : Type) where
  path : List α
  indices : List Bool

/-- The loop of `compute_path` over the heights. -/
def pathFrom : (empties layer : List α) → (currentIndex : Nat) → List (α × Bool)
  | [], _, _ => []
  | empty :: empties, layer, currentIndex =>
    let isRightChild := currentIndex % 2 = 1
    let siblingIndex := if isRightChild then currentIndex - 1 else currentIndex + 1
    let sibling := layer.getD siblingIndex empty
    (sibling, decide (¬ isRightChild)) :: pathFrom empties (nextLayer hashPair layer empty) (currentIndex / 2)

def computePath (leaves : List α) (depth index : Nat) : MerklePath α :=
  let steps := pathFrom hashPair ((emptySubtreeHashes hashPair emptyLeaf depth).take depth) leaves index
  ⟨steps.map Prod.fst, steps.map Prod.snd⟩

/-- One step of the walk of `verify`. -/
def verifyStep (current : α) (step : α × Bool) : α :=
  if step.2 then hashPair current step.1 else hashPair step.1 current

/-- `MerklePath::verify`: a path with one direction per sibling that folds the leaf to the root. -/
def MerklePath.verify [DecidableEq α] (p : MerklePath α) (leaf root : α) : Bool :=
  if p.path.length ≠ p.indices.length then false
  else decide ((p.path.zip p.indices).foldl (verifyStep hashPair) leaf = root)

end Paraloom.OffChain
