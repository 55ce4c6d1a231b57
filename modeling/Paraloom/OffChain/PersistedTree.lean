import Paraloom.OffChain.MerkleTree
import Paraloom.OffChain.Storage

/-!
# The node's tree over its storage

The tree in memory is its leaves and a cached root. An insert writes the leaf to disk first and then to memory, and forgets
the cached root. `root` fills the cache and writes the root to disk as well, on a path of its own. Opening a tree reads the
leaves and the written root.
-/

namespace Paraloom.OffChain

def defaultTreeDepth : Nat := 32

def rootHistoryLen : Nat := 256

/-- The most words a `Vec` holds: it is at most `isize::MAX` bytes long. -/
def vecCapacity : Nat := (2 ^ 63 - 1) / 32

/-- Push words to a `Vec`; a vector that would exceed its capacity aborts the process. -/
def extend (leaves more : List Bytes32) : Option (List Bytes32) :=
  if leaves.length + more.length ≤ vecCapacity then some (leaves ++ more) else none

/-- The tree of a node with storage. -/
structure MerkleTree where
  depth : Nat
  leaves : List Bytes32
  cachedRoot : Option Bytes32
  recentRoots : List Bytes32

/-- What a call on the tree returns, with the tree and the disk after it. -/
structure TreeReturn (α : Type) where
  result : α
  tree : MerkleTree
  store : PrivacyStorage

namespace MerkleTree

/-- The leaves and the root that the disk holds. -/
def withStorage (store : PrivacyStorage) : Except StorageError MerkleTree := do
  let leaves ← store.getAllCommitments
  let cachedRoot ← store.getMerkleRoot
  let recentRoots := match cachedRoot with
    | some r => [r]
    | none => []
  pure { depth := defaultTreeDepth, leaves, cachedRoot, recentRoots }

def push (t : MerkleTree) (more : List Bytes32) : Option MerkleTree :=
  (extend t.leaves more).map fun leaves => { t with leaves, cachedRoot := none }

/-- The leaf goes to disk first, and a failed write leaves the memory as it was. Returns the index. -/
def insert (t : MerkleTree) (store : PrivacyStorage) (acknowledged : Bool) (commitment : Bytes32) :
    Option (TreeReturn (Except StorageError Nat)) :=
  let index := t.leaves.length
  match store.insertCommitment acknowledged index commitment with
  | .error e => some ⟨.error e, t, store⟩
  | .ok store => (t.push [commitment]).map fun t => ⟨.ok index, t, store⟩

/-- All leaves go to disk in one write. Returns their indices. -/
def insertBatch (t : MerkleTree) (store : PrivacyStorage) (acknowledged : Bool) (commitments : List Bytes32) :
    Option (TreeReturn (Except StorageError (List Nat))) :=
  let startIndex := t.leaves.length
  let indices := List.range' startIndex commitments.length
  match store.insertCommitmentsBatch acknowledged startIndex commitments with
  | .error e => some ⟨.error e, t, store⟩
  | .ok store => (t.push commitments).map fun t => ⟨.ok indices, t, store⟩

/-- A root in the bounded history, unless it is the newest one already. -/
def remember (recent : List Bytes32) (root : Bytes32) : List Bytes32 :=
  if recent.getLast? = some root then recent
  else
    let recent := recent ++ [root]
    recent.drop (recent.length - rootHistoryLen)

section Root

variable (hashPair : Bytes32 → Bytes32 → Bytes32)

/-- The cached root, or the root of the leaves, which is then cached and written. A failed write is only logged. -/
def root (t : MerkleTree) (store : PrivacyStorage) (acknowledged : Bool) : TreeReturn Bytes32 :=
  match t.cachedRoot with
  | some root => ⟨root, t, store⟩
  | none =>
    let root := computeRoot hashPair zero32 t.leaves t.depth
    let t := { t with cachedRoot := some root, recentRoots := remember t.recentRoots root }
    match store.setMerkleRoot acknowledged root with
    | .ok store => ⟨root, t, store⟩
    | .error _ => ⟨root, t, store⟩

/-- The path of a leaf, if there is one at the index. -/
def path (t : MerkleTree) (index : Nat) : Option (MerklePath Bytes32) :=
  if index ≥ t.leaves.length then none else some (computePath hashPair zero32 t.leaves t.depth index)

end Root

end MerkleTree

/-! ## A process and its restarts -/

/-- The process: what is on disk and the tree it has opened. -/
structure TreeProcess where
  store : PrivacyStorage
  tree : MerkleTree

/-- A call on the tree, or a restart, which loses the memory and opens the tree again. -/
inductive TreeCall where
  | insert (commitment : Bytes32)
  | insertBatch (commitments : List Bytes32)
  | root
  | path (index : Nat)
  | restart

def TreeProcess.start : TreeProcess := ⟨.empty, ⟨defaultTreeDepth, [], none, []⟩⟩

/-- One call, with every write reaching the disk. There is no process afterwards if it aborts or does not open. -/
def TreeProcess.exec (hashPair : Bytes32 → Bytes32 → Bytes32) (p : TreeProcess) : TreeCall → Option TreeProcess
  | .insert commitment => (p.tree.insert p.store true commitment).map fun r => ⟨r.store, r.tree⟩
  | .insertBatch commitments => (p.tree.insertBatch p.store true commitments).map fun r => ⟨r.store, r.tree⟩
  | .root =>
    let r := p.tree.root hashPair p.store true
    some ⟨r.store, r.tree⟩
  | .path _ => some p
  | .restart =>
    match MerkleTree.withStorage p.store with
    | .ok tree => some ⟨p.store, tree⟩
    | .error _ => none

/-- One call as a step. -/
def TreeProcess.Call (hashPair : Bytes32 → Bytes32 → Bytes32) (p : TreeProcess) (call : TreeCall) (p' : TreeProcess) :
    Prop :=
  p.exec hashPair call = some p'

/-! ## The set of revealed nullifiers

New nullifiers are written first, one by one or in one batch, and a failed write leaves the memory as it was. -/

/-- One write for all of them. -/
def PrivacyStorage.insertNullifiersBatch (s : PrivacyStorage) (acknowledged : Bool) (nullifiers : List Bytes32) :
    Except StorageError PrivacyStorage :=
  commit acknowledged { s with nullifierSet := s.nullifierSet.putAll (nullifiers.map fun n => (n.toList, [])) }

structure NullifierSet where
  nullifiers : Finset Bytes32
  storage : PrivacyStorage

namespace NullifierSet

def withStorage (storage : PrivacyStorage) : Except StorageError NullifierSet := do
  let nullifiers ← storage.getAllNullifiers
  pure ⟨nullifiers.toFinset, storage⟩

/-- Whether the nullifier is new, and the set afterwards. -/
def insert (s : NullifierSet) (acknowledged : Bool) (nullifier : Bytes32) : Except StorageError Bool × NullifierSet :=
  if nullifier ∈ s.nullifiers then (.ok false, s)
  else
    match s.storage.insertNullifier acknowledged nullifier with
    | .error e => (.error e, s)
    | .ok storage => (.ok true, ⟨Insert.insert nullifier s.nullifiers, storage⟩)

/-- The filter looks at the set as it was before the batch, and the count is that of the filtered list. -/
def insertBatch (s : NullifierSet) (acknowledged : Bool) (nullifiers : List Bytes32) :
    Except StorageError Nat × NullifierSet :=
  let newNullifiers := nullifiers.filter (· ∉ s.nullifiers)
  if newNullifiers.isEmpty then (.ok 0, s)
  else
    match s.storage.insertNullifiersBatch acknowledged newNullifiers with
    | .error e => (.error e, s)
    | .ok storage =>
      (.ok newNullifiers.length, ⟨newNullifiers.foldl (fun set n => Insert.insert n set) s.nullifiers, storage⟩)

end NullifierSet

/-- A call on the set with the answer of the disk, or a restart, which loses the memory and opens the set again. -/
inductive NullifierCall where
  | insert (acknowledged : Bool) (nullifier : Bytes32)
  | insertBatch (acknowledged : Bool) (nullifiers : List Bytes32)
  | restart

def NullifierSet.exec (s : NullifierSet) : NullifierCall → Except StorageError NullifierSet
  | .insert acknowledged nullifier => .ok (s.insert acknowledged nullifier).2
  | .insertBatch acknowledged nullifiers => .ok (s.insertBatch acknowledged nullifiers).2
  | .restart => withStorage s.storage

end Paraloom.OffChain
