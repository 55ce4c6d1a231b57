import Mathlib.Data.Nat.Lattice
import Paraloom.Circuit

/-!
# The pool of notes

What the tree and the nullifier accounts are for. A leaf is worth the amount of the note it commits to, until the nullifier of
that note at that leaf is revealed. The leaves and the nullifiers are field elements and the hash is a relation, so that the
pool says nothing of bytes and accounts.
-/

namespace Paraloom

/-- An idealised hash. No function from pairs of elements to elements is injective; the evaluations that are ever made can
be. -/
structure HashRel.Ideal (H : HashRel) : Prop where
  functional : ∀ {xs y y'}, H xs y → H xs y' → y = y'
  /-- At each width two inputs with one output are the same. -/
  injective : ∀ {xs xs' y}, H xs y → H xs' y → xs.length = xs'.length → xs = xs'
  ne_zero : ∀ {xs}, ¬ H xs 0

/-- The commitments in the tree, and the nullifiers that were revealed. -/
structure Pool where
  leaves : List Fr
  spent : Set Fr

namespace Pool

/-- The leaf at an index; an empty leaf is zero. -/
def leaf (p : Pool) (i : Nat) : Fr := HashTree.padded 0 p.leaves i

/-- A commitment is added as the next leaf. -/
def append (p : Pool) (c : Fr) : Pool := { p with leaves := p.leaves ++ [c] }

/-- A nullifier is revealed. -/
def spend (p : Pool) (nf : Fr) : Pool := { p with spent := insert nf p.spent }

/-- A transaction reveals its two nullifiers and then adds its two commitments. -/
def settle (p : Pool) (pub : TransactCircuitV3.PublicInputs) : Pool :=
  (((p.spend pub.nullifier0).spend pub.nullifier1).append pub.outCommitment0).append pub.outCommitment1

variable (H : HashRel) (asset : Fr)

/-- `c` commits to a note of this amount of the asset. -/
def Holds (c : Fr) (amount : UInt64) : Prop := ∃ pk blinding, H [(amount.toNat : Fr), pk, blinding, asset] c

/-- The nullifier that a key gives to the note of leaf `i` was revealed. -/
def SpentAt (p : Pool) (i : Nat) : Prop :=
  ∃ (n : InputNote) (pk sig nf : Fr), n.leafIndex.toNat = i ∧ n.Hashes H asset pk (p.leaf i) sig nf ∧ nf ∈ p.spent

/-- The amount of the asset that a commitment holds; nothing if it does not open as a note of the asset. -/
noncomputable def amountOf (c : Fr) : Nat := sInf {n | ∃ amount, Holds H asset c amount ∧ amount.toNat = n}

open Classical in
/-- The amount of the asset that leaf `i` still holds. -/
noncomputable def worth (p : Pool) (i : Nat) : Nat := if p.SpentAt H asset i then 0 else amountOf H asset (p.leaf i)

/-- The amount of the asset in all the unspent notes of the pool. -/
noncomputable def outstanding (p : Pool) : Nat := ∑ i ∈ Finset.range p.leaves.length, p.worth H asset i

/-- The nullifier belongs to a note that held nothing or had its leaf among the first `size`. -/
def Revealed (size : Nat) (nf : Fr) : Prop :=
  ∃ (n : InputNote) (assetId pk c sig : Fr), n.Hashes H assetId pk c sig nf ∧ (n.amount = 0 ∨ n.leafIndex.toNat < size)

/-- Every nullifier was revealed by a note with no value or with a leaf of the pool. -/
def WellFormed (p : Pool) : Prop := ∀ nf ∈ p.spent, Revealed H p.leaves.length nf

/-- A path to this root starts at a leaf of the pool. -/
def Attests (p : Pool) (root : Fr) : Prop :=
  ∀ (n : InputNote) (c : Fr), c ≠ 0 → n.FoldsTo H c root → n.leafIndex.toNat < p.leaves.length ∧ p.leaf n.leafIndex.toNat = c

end Pool

end Paraloom
