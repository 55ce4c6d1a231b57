import Paraloom.Field
import Paraloom.Lib.BitString
import Paraloom.Lib.HashTree

/-!
# The unified transaction circuit

`TransactCircuitV3`: two notes are spent, two are created, and a signed public amount balances them. The constraints are stated
over the wires `generate_constraints` allocates, and the Poseidon gadget is a relation between its wires.
-/

namespace Paraloom

/-- `y` is the Poseidon hash of `xs`; the width is the length of the list. -/
abbrev HashRel : Type := List Fr → Fr → Prop

def HashRel.ofFun (poseidon : List Fr → Fr) : HashRel := fun xs y => y = poseidon xs

/-- The hash of a Merkle pair. -/
def HashRel.pair (H : HashRel) (left right node : Fr) : Prop := H [left, right] node

/-! ## The v3 note hashes -/

section NoteHashes

variable (poseidon : List Fr → Fr)

def v3Pubkey (privkey : Fr) : Fr := poseidon [privkey]

def v3Commit (amount pubkey blinding assetId : Fr) : Fr := poseidon [amount, pubkey, blinding, assetId]

def v3Signature (privkey commitment leafIndex : Fr) : Fr := poseidon [privkey, commitment, leafIndex]

def v3Nullifier (commitment leafIndex signature : Fr) : Fr := poseidon [commitment, leafIndex, signature]

def v3MerklePair (left right : Fr) : Fr := poseidon [left, right]

end NoteHashes

namespace TransactCircuitV3

/-- The eight public inputs. -/
structure PublicInputs where
  root : Fr
  publicAmount : Fr
  extDataHash : Fr
  assetId : Fr
  nullifier0 : Fr
  nullifier1 : Fr
  outCommitment0 : Fr
  outCommitment1 : Fr

/-- The public inputs in the order of the Groth16 slice. -/
def PublicInputs.toList (pub : PublicInputs) : List Fr :=
  [pub.root, pub.publicAmount, pub.extDataHash, pub.assetId, pub.nullifier0, pub.nullifier1, pub.outCommitment0,
    pub.outCommitment1]

theorem PublicInputs.toList_injective {pub pub' : PublicInputs} (h : pub.toList = pub'.toList) : pub = pub' := by
  cases pub
  cases pub'
  simpa [toList] using h

/-! ## Wires -/

/-- The wires of one input note: 64 amount bits, the key, the blinding, 32 index bits and 32 siblings from the prover, and
the outputs of the hash gadgets over them. -/
structure InputWires where
  amountBits : List.Vector Fr 64
  privkey : Fr
  blinding : Fr
  idxBits : List.Vector Fr 32
  siblings : List.Vector Fr 32
  pubkey : Fr
  commitment : Fr
  signature : Fr
  nullifier : Fr
  folded : Fr

/-- The wires of one output note. -/
structure OutputWires where
  amountBits : List.Vector Fr 64
  pubkey : Fr
  blinding : Fr
  commitment : Fr

/-- `Boolean::le_bits_to_fp_var`: a linear combination of the bits. -/
def leBitsToFp (bits : List Fr) : Fr := BitString.value bits

def InputWires.amount (w : InputWires) : Fr := leBitsToFp w.amountBits.val

def InputWires.leafIndex (w : InputWires) : Fr := leBitsToFp w.idxBits.val

def OutputWires.amount (w : OutputWires) : Fr := leBitsToFp w.amountBits.val

/-- The booleanity constraint of a bit wire. -/
def BooleanBit (b : Fr) : Prop := (1 - b) * b = 0

/-- `bit.select(t, f)`, the value the selection constraint pins its output wire to. -/
def select (bit t f : Fr) : Fr := f + bit * (t - f)

/-- The membership fold: direction bit `i` picks the order of the current node and its sibling. -/
def membershipFold (H : HashRel) : (current : Fr) → List (Fr × Fr) → (folded : Fr) → Prop
  | current, [], folded => folded = current
  | current, (bit, sibling) :: rest, folded =>
    let left := select bit sibling current
    let right := select bit current sibling
    ∃ next, H.pair left right next ∧ membershipFold H next rest folded

/-! ## Constraints -/

/-- The constraints of one input note. -/
structure InputConstraints (H : HashRel) (root assetId nullifierPub : Fr) (w : InputWires) : Prop where
  amount_boolean : ∀ b ∈ w.amountBits.val, BooleanBit b
  idx_boolean : ∀ b ∈ w.idxBits.val, BooleanBit b
  pubkey : H [w.privkey] w.pubkey
  commitment : H [w.amount, w.pubkey, w.blinding, assetId] w.commitment
  signature : H [w.privkey, w.commitment, w.leafIndex] w.signature
  nullifier : H [w.commitment, w.leafIndex, w.signature] w.nullifier
  nullifier_eq : w.nullifier = nullifierPub
  fold : membershipFold H w.commitment (w.idxBits.val.zip w.siblings.val) w.folded
  /-- Membership is enforced only for a non-zero amount. -/
  member : (w.folded - root) * w.amount = 0

/-- The constraints of one output note. -/
structure OutputConstraints (H : HashRel) (assetId commitmentPub : Fr) (w : OutputWires) : Prop where
  amount_boolean : ∀ b ∈ w.amountBits.val, BooleanBit b
  commitment : H [w.amount, w.pubkey, w.blinding, assetId] w.commitment
  commitment_eq : w.commitment = commitmentPub

/-- A full assignment of the private wires. -/
structure Assignment where
  input0 : InputWires
  input1 : InputWires
  output0 : OutputWires
  output1 : OutputWires
  extDataSquare : Fr
  ndiffInv : Fr

/-- `generate_constraints`: what the assignment has to satisfy. -/
structure Satisfied (H : HashRel) (pub : PublicInputs) (a : Assignment) : Prop where
  extData : pub.extDataHash * pub.extDataHash = a.extDataSquare
  input0 : InputConstraints H pub.root pub.assetId pub.nullifier0 a.input0
  input1 : InputConstraints H pub.root pub.assetId pub.nullifier1 a.input1
  output0 : OutputConstraints H pub.assetId pub.outCommitment0 a.output0
  output1 : OutputConstraints H pub.assetId pub.outCommitment1 a.output1
  /-- `inverse()` of the difference of the nullifiers. -/
  ndiff : (pub.nullifier0 - pub.nullifier1) * a.ndiffInv = 1
  balance : 0 + a.input0.amount + a.input1.amount + pub.publicAmount = 0 + a.output0.amount + a.output1.amount

/-- The circuit has a satisfying assignment for the public inputs. -/
def Satisfiable (H : HashRel) (pub : PublicInputs) : Prop := ∃ a, Satisfied H pub a

end TransactCircuitV3

/-! ## Notes

What the circuit is about: a note is an amount of an asset owned by a key, and a note that sits at a leaf of the tree is
spent by revealing the one nullifier its key gives it at that position. -/

/-- A note to spend: 64-bit amount, private key, blinding, 32-bit leaf index and the 32 siblings of its path. -/
structure InputNote where
  amount : UInt64
  privkey : Fr
  blinding : Fr
  leafIndex : UInt32
  siblings : List.Vector Fr 32

/-- A note to create. -/
structure OutputNote where
  amount : UInt64
  pubkey : Fr
  blinding : Fr

namespace InputNote

/-- The amount as a field element. -/
def amountFr (n : InputNote) : Fr := n.amount.toNat

/-- The leaf index as a field element. -/
def leafIndexFr (n : InputNote) : Fr := n.leafIndex.toNat

/-- The v3 hashes of the note under an asset: public key `pk`, commitment `c`, and the nullifier `nf` that the signature
`sig` of its key gives it at its leaf. -/
structure Hashes (H : HashRel) (assetId : Fr) (n : InputNote) (pk c sig nf : Fr) : Prop where
  pubkey : H [n.privkey] pk
  commitment : H [n.amountFr, pk, n.blinding, assetId] c
  signature : H [n.privkey, c, n.leafIndexFr] sig
  nullifier : H [c, n.leafIndexFr, sig] nf

/-- The note folds along the bits of its leaf index to `root`. -/
def FoldsTo (H : HashRel) (n : InputNote) (c root : Fr) : Prop :=
  HashTree.Fold H.pair c n.leafIndex.toNat n.siblings.val root

/-- The note has this nullifier, and if it holds value it is a member of the tree with this root. -/
def Spends (H : HashRel) (root assetId nf : Fr) (n : InputNote) : Prop :=
  ∃ pk c sig, n.Hashes H assetId pk c sig nf ∧ (n.amount ≠ 0 → n.FoldsTo H c root)

end InputNote

namespace OutputNote

/-- The amount as a field element. -/
def amountFr (n : OutputNote) : Fr := n.amount.toNat

/-- `c` is the commitment of the note under the asset. -/
def Opens (H : HashRel) (assetId c : Fr) (n : OutputNote) : Prop :=
  H [n.amountFr, n.pubkey, n.blinding, assetId] c

end OutputNote

end Paraloom
