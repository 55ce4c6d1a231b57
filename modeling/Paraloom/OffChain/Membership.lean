import Paraloom.MerkleTree
import Paraloom.OffChain.MerkleTree
import Paraloom.OffChain.Storage

/-!
# The relayer's membership proofs

The relayer spends a note without knowing the other leaves: it reads the tree account, takes the siblings of the leaf from the
working set and from the empty subtrees, and folds them against the root before it proves anything.
-/

namespace Paraloom

/-- The data of the tree account: the discriminator, and then the fields in the order in which they are declared. -/
def IncrementalMerkleTree.accountData (discriminator : List.Vector UInt8 8) (t : IncrementalMerkleTree Bytes32) : List UInt8 :=
  discriminator.toList ++ LittleEndian.ofNat 8 t.nextIndex ++ LittleEndian.ofNat 8 t.rootIndex.val ++ t.root.toList ++
    t.filledSubtrees.toList.flatMap List.Vector.toList ++ t.rootHistory.toList.flatMap List.Vector.toList

namespace OffChain

/-- `TX_LEVELS`: the depth of the tree that the circuit proves membership in. -/
def txLevels : Nat := 32

/-- The errors of `read_membership`. -/
inductive TransactSubmitError where
  | rpc (message : String)
  | rootMismatch (leafIndex : Nat)
  | shortAccount (account : String)
  deriving DecidableEq

structure Membership where
  leafIndex : Nat
  root : Bytes32
  path : List Bytes32
  deriving DecidableEq

def wordAt (raw : Bytes) (offset : Nat) : Bytes32 := LittleEndian.vec 32 (LittleEndian.toNat ((raw.drop offset).take 32))

/-- The sibling of a level: a left one from the working set, and a right one as an empty subtree. -/
def membershipSibling (zeros : List Fr) (raw : Bytes) (leafIndex level : Nat) : Bytes32 :=
  if leafIndex / 2 ^ level % 2 = 1 then wordAt raw (56 + level * 32) else toBytesLe (zeros.getD level 0)

/-- One round of the loop that folds the path. -/
def membershipFold (v3MerklePair : Fr → Fr → Fr) (leafIndex : Nat) (cur : Fr) (sib : Bytes32 × Nat) : Fr :=
  let s := fromLeBytesModOrder sib.1
  if leafIndex / 2 ^ sib.2 % 2 = 1 then v3MerklePair s cur else v3MerklePair cur s

/-- With what the RPC returns for the tree account. -/
def readMembership (v3MerklePair : Fr → Fr → Fr) (account : Except String Bytes) (leafIndex : Nat) (commitment : Fr) :
    Except TransactSubmitError Membership :=
  match account with
  | .error e => .error (.rpc e)
  | .ok raw =>
    if raw.length < 56 + txLevels * 32 then .error (.shortAccount "merkle_tree")
    else
      let rootOnchain := wordAt raw 24
      let zeros := emptySubtreeHashes v3MerklePair 0 txLevels
      let path := (List.range txLevels).map (membershipSibling zeros raw leafIndex)
      let cur := path.zipIdx.foldl (membershipFold v3MerklePair leafIndex) commitment
      if toBytesLe cur ≠ rootOnchain then .error (.rootMismatch leafIndex) else .ok ⟨leafIndex, rootOnchain, path⟩

end OffChain

end Paraloom
