import Paraloom.OffChain.PersistedTree

/-!
# The node's shielded pool

The pool keeps the commitment tree, the revealed nullifiers, the commitments it has credited, the notes it has seen and one
supply per asset. Crediting a deposit takes two writes: the leaf, and then the supply of its asset. The guard against a
repeated deposit looks at the leaves alone.
-/

namespace Paraloom.OffChain

/-- A note, as the bridge hands it to the pool. -/
structure Note where
  recipient : Bytes32
  amount : UInt64
  randomness : Bytes32
  assetId : AssetId
  memo : Option Bytes
  deriving DecidableEq

/-- The pool of a node with storage. -/
structure ShieldedPool where
  commitmentTree : MerkleTree
  nullifierSet : Finset Bytes32
  deposited : Finset Bytes32
  notes : Table Bytes32 Note
  supplies : Table AssetId UInt64

/-- How a call of `credit_commitment` ends: it returns, or the overflow check of `*supply += amount` panics. -/
inductive CreditResult where
  | returned (result : Except StorageError Bytes32)
  | panicked
  deriving DecidableEq

/-- What a call on the pool ends with, and the pool and the disk after it. -/
structure PoolReturn where
  result : CreditResult
  pool : ShieldedPool
  store : PrivacyStorage

namespace ShieldedPool

/-- Everything but the notes comes from the disk. -/
def withStorage (store : PrivacyStorage) : Except StorageError ShieldedPool := do
  let commitmentTree ← MerkleTree.withStorage store
  let nullifiers ← store.getAllNullifiers
  let supplies ← store.getAllAssetSupplies
  let commitments ← store.getAllCommitments
  pure { commitmentTree, nullifierSet := nullifiers.toFinset, deposited := commitments.toFinset, notes := ∅, supplies }

/-- Zero for an asset the pool has never held. -/
def supplyOf (p : ShieldedPool) (assetId : AssetId) : UInt64 := (p.supplies.lookup assetId).getD 0

/-- The second half of `credit_commitment`, after the leaf: the supply is added to in memory and then written. -/
def creditSupply (p : ShieldedPool) (store : PrivacyStorage) (acknowledged : Bool) (commitment : Bytes32) (amount : UInt64)
    (assetId : AssetId) : PoolReturn :=
  let supply := p.supplyOf assetId
  if supply.toNat + amount.toNat < 2 ^ 64 then
    let p := { p with supplies := p.supplies.insert assetId (supply + amount) }
    match store.setAssetSupply acknowledged assetId (supply + amount) with
    | .ok store => ⟨.returned (.ok commitment), p, store⟩
    | .error e => ⟨.returned (.error e), p, store⟩
  else ⟨.panicked, { p with supplies := p.supplies.insert assetId supply }, store⟩

/-- A commitment that is already credited is not credited again; a new one becomes a leaf, is marked as
credited with its note, and is added to the supply of its asset. The two flags say which of the two writes are
acknowledged. -/
def creditCommitment (p : ShieldedPool) (store : PrivacyStorage) (leafAcknowledged supplyAcknowledged : Bool)
    (commitment : Bytes32) (note : Note) (amount : UInt64) (assetId : AssetId) : Option PoolReturn :=
  if commitment ∈ p.deposited then some ⟨.returned (.ok commitment), p, store⟩
  else
    (p.commitmentTree.insert store leafAcknowledged commitment).map fun r =>
      let p := { p with commitmentTree := r.tree }
      match r.result with
      | .error e => ⟨.returned (.error e), p, r.store⟩
      | .ok _ =>
        let p := { p with deposited := insert commitment p.deposited, notes := p.notes.insert commitment note }
        p.creditSupply r.store supplyAcknowledged commitment amount assetId

def isSpent (p : ShieldedPool) (nullifier : Bytes32) : Bool := nullifier ∈ p.nullifierSet

/-- `NullifierSet::insert`: a new nullifier is written before the set holds it, and a failed write leaves the set as it was. -/
def insertNullifier (p : ShieldedPool) (store : PrivacyStorage) (acknowledged : Bool) (nullifier : Bytes32) :
    Except StorageError Bool × ShieldedPool × PrivacyStorage :=
  if nullifier ∈ p.nullifierSet then (.ok false, p, store)
  else
    match store.insertNullifier acknowledged nullifier with
    | .error e => (.error e, p, store)
    | .ok store => (.ok true, { p with nullifierSet := insert nullifier p.nullifierSet }, store)

/-- Both nullifiers of a settlement, one after the other. An error of the first does not keep the second out. -/
def recordSpent (p : ShieldedPool) (store : PrivacyStorage) (acknowledged : Bool × Bool) (nullifiers : Bytes32 × Bytes32) :
    ShieldedPool × PrivacyStorage :=
  let first := (p.insertNullifier store acknowledged.1 nullifiers.1).2
  (first.1.insertNullifier first.2 acknowledged.2 nullifiers.2).2

end ShieldedPool

/-! ## A process and its restarts -/

/-- The process: what is on disk, the pool it has opened, and for the record the amount and asset of the credit that put each
leaf into the tree. -/
structure PoolProcess where
  store : PrivacyStorage
  pool : ShieldedPool
  booked : Table Bytes32 (UInt64 × AssetId)

/-- What a process goes through. -/
inductive PoolCall where
  /-- A credit that ends, with the writes that are acknowledged. -/
  | credit (leafAcknowledged supplyAcknowledged : Bool) (commitment : Bytes32) (note : Note) (amount : UInt64)
      (assetId : AssetId)
  /-- A credit that is interrupted after its first write and before its second, and a restart. -/
  | interrupted (commitment : Bytes32) (note : Note) (amount : UInt64) (assetId : AssetId)
  | restart

namespace PoolProcess

def start : PoolProcess := ⟨.empty, ⟨⟨defaultTreeDepth, [], none, []⟩, ∅, ∅, ∅, ∅⟩, ∅⟩

/-- Open the pool again on what the disk holds. -/
def reopen (store : PrivacyStorage) (booked : Table Bytes32 (UInt64 × AssetId)) : Option PoolProcess :=
  match ShieldedPool.withStorage store with
  | .ok pool => some ⟨store, pool, booked⟩
  | .error _ => none

/-- The record after a credit whose leaf reached the disk or did not. -/
def book (p : PoolProcess) (written : Bool) (commitment : Bytes32) (amount : UInt64) (assetId : AssetId) :
    Table Bytes32 (UInt64 × AssetId) :=
  if commitment ∈ p.pool.deposited ∨ written = false then p.booked else p.booked.insert commitment (amount, assetId)

/-- One step of the process, if there is a process afterwards. -/
def exec (p : PoolProcess) : PoolCall → Option PoolProcess
  | .credit leafAcknowledged supplyAcknowledged commitment note amount assetId =>
    (p.pool.creditCommitment p.store leafAcknowledged supplyAcknowledged commitment note amount assetId).map fun r =>
      ⟨r.store, r.pool, p.book leafAcknowledged commitment amount assetId⟩
  | .interrupted commitment _ amount assetId =>
    if commitment ∈ p.pool.deposited then reopen p.store p.booked
    else (p.pool.commitmentTree.insert p.store true commitment).bind fun r =>
      reopen r.store (p.book true commitment amount assetId)
  | .restart => reopen p.store p.booked

/-- What one commitment adds to the supply of an asset. -/
def bookedAmount (p : PoolProcess) (assetId : AssetId) (commitment : Bytes32) : Nat :=
  match p.booked.lookup commitment with
  | some (amount, asset) => if asset = assetId then amount.toNat else 0
  | none => 0

def creditedSum (p : PoolProcess) (assetId : AssetId) : Nat :=
  ∑ c ∈ p.pool.commitmentTree.leaves.toFinset, p.bookedAmount assetId c

end PoolProcess

end Paraloom.OffChain
