import Paraloom.OffChain.ShieldedPool

/-!
# Concurrent credits

`credit_commitment` takes its locks one after another: the marks are read, the leaf is inserted, the mark is written, and the
note and the supply follow. Between two acquisitions any other call may proceed.
-/

namespace Paraloom.OffChain

/-- The arguments of a call of `credit_commitment`. -/
structure CreditArgs where
  commitment : Bytes32
  note : Note
  amount : UInt64
  assetId : AssetId

/-- Where a call stands: at the lock it asks for next, or at its end. -/
inductive CreditPoint where
  | readDeposited
  | writeLeaves
  /-- Inside `insert`, with the guard of the leaves. -/
  | writeCachedRoot
  | writeDeposited
  | writeNotes
  /-- With the guard of the notes. -/
  | writeSupplies
  | ended (result : CreditResult)
  deriving DecidableEq

structure CreditTask where
  args : CreditArgs
  point : CreditPoint

/-- The part of `insert` up to the lock of the cached root: the leaf goes to disk and then to memory. -/
def MerkleTree.insertLeaf (t : MerkleTree) (store : PrivacyStorage) (acknowledged : Bool) (commitment : Bytes32) :
    Option (TreeReturn (Except StorageError Nat)) :=
  let index := t.leaves.length
  match store.insertCommitment acknowledged index commitment with
  | .error e => some ⟨.error e, t, store⟩
  | .ok store => (extend t.leaves [commitment]).map fun leaves => ⟨.ok index, { t with leaves }, store⟩

/-- The rest of `insert`. -/
def MerkleTree.forgetRoot (t : MerkleTree) : MerkleTree := { t with cachedRoot := none }

/-- What a call does once it has the lock it asks for, up to the next lock or its end. A leaf that is written goes on record with
its amount. -/
def CreditTask.proceed (task : CreditTask) (p : PoolProcess) (acknowledged : Bool) : Option (PoolProcess × CreditPoint) :=
  let ⟨commitment, note, amount, assetId⟩ := task.args
  match task.point with
  | .readDeposited =>
    some (p, if commitment ∈ p.pool.deposited then .ended (.returned (.ok commitment)) else .writeLeaves)
  | .writeLeaves =>
    (p.pool.commitmentTree.insertLeaf p.store acknowledged commitment).map fun r =>
      match r.result with
      | .error e => (p, .ended (.returned (.error e)))
      | .ok _ => ({ store := r.store, pool := { p.pool with commitmentTree := r.tree },
                    booked := p.booked.insert commitment (amount, assetId) }, .writeCachedRoot)
  | .writeCachedRoot =>
    some ({ p with pool := { p.pool with commitmentTree := p.pool.commitmentTree.forgetRoot } }, .writeDeposited)
  | .writeDeposited => some ({ p with pool := { p.pool with deposited := insert commitment p.pool.deposited } }, .writeNotes)
  | .writeNotes => some ({ p with pool := { p.pool with notes := p.pool.notes.insert commitment note } }, .writeSupplies)
  | .writeSupplies =>
    let r := p.pool.creditSupply p.store acknowledged commitment amount assetId
    some ({ p with store := r.store, pool := r.pool }, .ended r.result)
  | .ended _ => none

/-- The calls on one pool, under the numbers of their tasks. -/
structure CreditRace where
  process : PoolProcess
  tasks : Table Nat CreditTask

namespace CreditRace

/-- Every call is about to ask for its first lock. -/
def start (p : PoolProcess) (calls : Table Nat CreditArgs) : CreditRace := ⟨p, calls.mapValues (⟨·, .readDeposited⟩)⟩

/-- Some call stands at the point. -/
def someAt (r : CreditRace) (point : CreditPoint) : Bool := r.tasks.entries.any (·.2.point == point)

/-- The lock a call asks for is held by another one across its own acquisition. -/
def blocked (r : CreditRace) : CreditPoint → Bool
  | .writeLeaves => r.someAt .writeCachedRoot
  | .writeNotes => r.someAt .writeSupplies
  | _ => false

/-- The task is granted its lock and proceeds. The flag says whether the write of the section, if it has one, is acknowledged. -/
def advance (r : CreditRace) (id : Nat) (acknowledged : Bool) : Option CreditRace :=
  (r.tasks.lookup id).bind fun task =>
    if r.blocked task.point then none
    else (task.proceed r.process acknowledged).map fun next => ⟨next.1, r.tasks.insert id { task with point := next.2 }⟩

def Step (r : CreditRace) (grant : Nat × Bool) (r' : CreditRace) : Prop := r.advance grant.1 grant.2 = some r'

/-- Every call has returned `Ok`. -/
def AllOk (r : CreditRace) : Prop :=
  ∀ entry ∈ r.tasks.entries, entry.2.point = .ended (.returned (.ok entry.2.args.commitment))

instance (r : CreditRace) : Decidable r.AllOk := inferInstanceAs (Decidable (∀ entry ∈ r.tasks.entries, _))

end CreditRace

end Paraloom.OffChain
