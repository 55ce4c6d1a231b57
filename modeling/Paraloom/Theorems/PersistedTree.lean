import Paraloom.Lemmas.Storage
import Paraloom.Lib.Run

/-!
# The persisted tree across restarts

The leaves in memory are always the leaves on disk. But an insert forgets the root in memory and leaves the written one, and a
reopened tree takes the written one for its own. So the root is right as long as a tree is reopened before any root was written
or after a root was computed over the last leaf.
-/

namespace Paraloom.OffChain

open PrivacyStorage Option

namespace PersistedTreeAux

/-- What holds of a process whose cached root is current. -/
structure Current (hashPair : Bytes32 → Bytes32 → Bytes32) (p : TreeProcess) : Prop where
  depth : p.tree.depth = defaultTreeDepth
  capacity : p.tree.leaves.length ≤ vecCapacity
  leaves : HoldsLeaves p.store.merkleTree p.tree.leaves
  root : ∀ {r}, p.tree.cachedRoot = some r →
    r = computeRoot hashPair zero32 p.tree.leaves defaultTreeDepth ∧ p.store.getMerkleRoot = .ok (some r)

theorem current_start : Current hashPair .start := ⟨rfl, Nat.zero_le _, holdsLeaves_empty, fun h => by cases h⟩

theorem capacity_lt : vecCapacity < 256 ^ 8 := by decide

/-- The disk gives back the leaves in memory. -/
theorem Current.persisted (h : Current hashPair p) : p.store.getAllCommitments = .ok p.tree.leaves :=
  h.leaves.getAllCommitments (h.capacity.trans capacity_lt.le)

theorem Current.grow {store : PrivacyStorage} {more : List Bytes32} (h : Current hashPair p)
    (hroom : p.tree.leaves.length + more.length ≤ vecCapacity)
    (hstore : HoldsLeaves store.merkleTree (p.tree.leaves ++ more)) :
    Current hashPair ⟨store, { p.tree with leaves := p.tree.leaves ++ more, cachedRoot := none }⟩ :=
  ⟨h.depth, by rwa [List.length_append], hstore, fun hr => by cases hr⟩

theorem Current.insert (h : Current hashPair p) (hexec : p.exec hashPair (.insert c) = some p') : Current hashPair p' := by
  rw [TreeProcess.exec, map_eq_some_iff] at hexec
  obtain ⟨r, hr, rfl⟩ := hexec
  rcases MerkleTree.insert_some hr with ⟨hfail, -⟩ | ⟨-, hroom, rfl⟩
  · cases hfail
  · have hfits := capacity_lt
    exact h.grow hroom (h.leaves.put (by omega) c)

theorem Current.insertBatch (h : Current hashPair p) (hexec : p.exec hashPair (.insertBatch cs) = some p') :
    Current hashPair p' := by
  rw [TreeProcess.exec, map_eq_some_iff] at hexec
  obtain ⟨r, hr, rfl⟩ := hexec
  rcases MerkleTree.insertBatch_some hr with ⟨hfail, -⟩ | ⟨-, hroom, rfl⟩
  · cases hfail
  · exact h.grow hroom (h.leaves.putAll cs rfl (hroom.trans capacity_lt.le))

theorem root_cached {t : MerkleTree} (h : t.cachedRoot = some r) : t.root hashPair store acknowledged = ⟨r, t, store⟩ := by
  unfold MerkleTree.root
  rw [h]

theorem root_computed {t : MerkleTree} (h : t.cachedRoot = none) : t.root hashPair store true =
      let root := computeRoot hashPair zero32 t.leaves t.depth
      ⟨root, { t with cachedRoot := some root, recentRoots := MerkleTree.remember t.recentRoots root },
        { store with poolState := store.poolState.put merkleRootKey root.toList }⟩ := by
  unfold MerkleTree.root
  rw [h]
  rfl

/-- A call of `root` returns the root of the leaves and leaves it in the cache and on the disk. -/
theorem Current.root_call (h : Current hashPair p) :
    (p.tree.root hashPair p.store true).result = computeRoot hashPair zero32 p.tree.leaves defaultTreeDepth ∧
      Current hashPair ⟨(p.tree.root hashPair p.store true).store, (p.tree.root hashPair p.store true).tree⟩ := by
  rcases hcached : p.tree.cachedRoot with _ | r
  · rw [root_computed hcached, h.depth]
    refine ⟨rfl, rfl, h.capacity, h.leaves, ?_⟩
    intro r hr
    obtain rfl := some.inj hr
    exact ⟨rfl, getMerkleRoot_put (s := p.store) _ rfl⟩
  · rw [root_cached hcached]
    exact ⟨(h.root hcached).1, h⟩

theorem Current.restart (h : Current hashPair p) (hexec : p.exec hashPair .restart = some p')
    (hclean : p.tree.cachedRoot.isSome ∨ p.store.getMerkleRoot = .ok none) : Current hashPair p' := by
  simp only [TreeProcess.exec] at hexec
  split at hexec
  · rename_i t hopen
    obtain rfl := some.inj hexec
    obtain ⟨hleaves, hroot, hdepth⟩ := MerkleTree.withStorage_ok hopen
    have hsame : p.tree.leaves = t.leaves := Except.ok.inj (h.persisted.symm.trans hleaves)
    refine ⟨hdepth, hsame ▸ h.capacity, hsame ▸ h.leaves, fun {r} hr => ?_⟩
    simp only at hr
    rw [hr] at hroot
    rcases hclean with hcached | hnone
    · obtain ⟨r', hr'⟩ := isSome_iff_exists.mp hcached
      obtain ⟨hcurrent, hwritten⟩ := h.root hr'
      obtain rfl : r' = r := some.inj (Except.ok.inj (hwritten.symm.trans hroot))
      exact ⟨by rw [← hsame]; exact hcurrent, hwritten⟩
    · cases hnone.symm.trans hroot
  · cases hexec

end PersistedTreeAux

/-- A restart that finds the written root current: a root was computed since the last insert, or none was ever written. -/
def TreeProcess.CleanRestart (p : TreeProcess) : Prop := p.tree.cachedRoot.isSome ∨ p.store.getMerkleRoot = .ok none

/-- A call, with every restart at a clean point. -/
def TreeProcess.CleanCall (hashPair : Bytes32 → Bytes32 → Bytes32) (p : TreeProcess) (call : TreeCall) (p' : TreeProcess) :
    Prop :=
  p.Call hashPair call p' ∧ (call = .restart → p.CleanRestart)

namespace PersistedTreeAux

theorem Current.call {call : TreeCall} (h : Current hashPair p) (hcall : p.CleanCall hashPair call p') :
    Current hashPair p' := by
  obtain ⟨hexec, hclean⟩ := hcall
  cases call with
  | insert c => exact h.insert hexec
  | insertBatch cs => exact h.insertBatch hexec
  | root =>
    obtain rfl := some.inj hexec
    exact h.root_call.2
  | path i =>
    obtain rfl := some.inj hexec
    exact h
  | restart => exact h.restart hexec (hclean rfl)

end PersistedTreeAux

open PersistedTreeAux

/-- In every run of calls and restarts from an empty disk whose restarts are all clean, `root` returns at every point the
root over the leaves on disk in the order of their indices. -/
theorem persisted_root_current (hashPair : Bytes32 → Bytes32 → Bytes32) {calls : List TreeCall} {p : TreeProcess}
    (hrun : Run (TreeProcess.CleanCall hashPair) .start calls p) :
    ∃ leaves, p.store.getAllCommitments = .ok leaves ∧
      (p.tree.root hashPair p.store true).result = computeRoot hashPair zero32 leaves defaultTreeDepth := by
  have hcurrent : Current hashPair p :=
    hrun.invariant current_start fun _ _ _ h hcall => h.call hcall
  exact ⟨p.tree.leaves, hcurrent.persisted, hcurrent.root_call.1⟩

namespace TreeSample

def pairHash : Bytes32 → Bytes32 → Bytes32 := hashWords fun l r => l + r * r + 1

/-- Two commitments. -/
def leaf1 : Bytes32 := LittleEndian.vec 32 1
def leaf2 : Bytes32 := LittleEndian.vec 32 2

def cleanExec (p : TreeProcess) (call : TreeCall) : Option TreeProcess :=
  match call with
  | .restart => if p.tree.cachedRoot.isSome then p.exec pairHash .restart else none
  | call => p.exec pairHash call

theorem cleanExec_cleanCall (p : TreeProcess) (call : TreeCall) (p' : TreeProcess) (h : cleanExec p call = some p') :
    p.CleanCall pairHash call p' := by
  unfold cleanExec at h
  split at h
  · split at h
    · rename_i hcached
      exact ⟨h, fun _ => .inl hcached⟩
    · cases h
  · rename_i hne
    exact ⟨h, fun hrestart => absurd hrestart hne⟩

end TreeSample

open TreeSample in
/-- A leaf, a root, a restart and another leaf: the root is the root over both leaves. -/
theorem persisted_root_current_sample :
    ∃ p, Run (TreeProcess.CleanCall pairHash) .start [.insert leaf1, .root, .restart, .insertBatch [leaf2]] p ∧
      (p.tree.root pairHash p.store true).result = computeRoot pairHash zero32 [leaf1, leaf2] defaultTreeDepth := by
  have hrun : (([.insert leaf1, .root, .restart, .insertBatch [leaf2]] : List TreeCall).foldlM cleanExec
      .start).isSome = true := by decide +kernel
  obtain ⟨p, hp⟩ := isSome_iff_exists.mp hrun
  have hleaves : ((([.insert leaf1, .root, .restart, .insertBatch [leaf2]] : List TreeCall).foldlM cleanExec
      .start).map fun p => p.store.getAllCommitments) = some (.ok [leaf1, leaf2]) := by decide +kernel
  rw [hp, map_some, some.injEq] at hleaves
  have hclean := Run.of_foldlM cleanExec_cleanCall hp
  obtain ⟨leaves, hread, hroot⟩ := persisted_root_current pairHash hclean
  obtain rfl := Except.ok.inj (hleaves.symm.trans hread)
  exact ⟨p, hclean, hroot⟩

open TreeSample in
/-- A leaf, a root, another leaf and a restart: the reopened tree holds both leaves and reports the root over the first. -/
theorem reopened_root_stale : ∃ p, Run (TreeProcess.Call pairHash) .start [.insert leaf1, .root, .insert leaf2, .restart] p ∧
      p.store.getAllCommitments = .ok [leaf1, leaf2] ∧
      (p.tree.root pairHash p.store true).result = computeRoot pairHash zero32 [leaf1] defaultTreeDepth ∧
      computeRoot pairHash zero32 [leaf1] defaultTreeDepth ≠ computeRoot pairHash zero32 [leaf1, leaf2] defaultTreeDepth := by
  have hrun : ((([.insert leaf1, .root, .insert leaf2, .restart] : List TreeCall).foldlM (TreeProcess.exec pairHash)
      .start).any fun p => decide (p.store.getAllCommitments = .ok [leaf1, leaf2] ∧
        (p.tree.root pairHash p.store true).result = computeRoot pairHash zero32 [leaf1] defaultTreeDepth)) = true := by
    decide +kernel
  obtain ⟨p, hp, hleaves, hroot⟩ := Run.exists_of_foldlM (fun _ _ _ h => h) hrun
  refine ⟨p, hp, hleaves, hroot, ?_⟩
  decide +kernel

/-! ## Batches -/

/-- The single inserts one after the other, each acknowledged, with their indices. -/
def TreeProcess.insertEach : List Bytes32 → TreeProcess → Option (List Nat × TreeProcess)
  | [], p => some ([], p)
  | c :: cs, p => do
    let r ← p.tree.insert p.store true c
    let index ← r.result.toOption
    let rest ← insertEach cs ⟨r.store, r.tree⟩
    pure (index :: rest.1, rest.2)

theorem insertEach_eq (cs : List Bytes32) (p : TreeProcess) (hstart : p.tree.leaves.length = start + k)
    (hroom : p.tree.leaves.length + cs.length ≤ vecCapacity) :
    ∃ t, p.insertEach cs = some (List.range' p.tree.leaves.length cs.length, ⟨{ p.store with
        merkleTree := p.store.merkleTree.putAll ((cs.zipIdx k).map fun c => (leafKey (start + c.2), c.1.toList)) }, t⟩) ∧
      t.leaves = p.tree.leaves ++ cs := by
  induction cs generalizing p k with
  | nil => exact ⟨p.tree, rfl, (List.append_nil _).symm⟩
  | cons c cs ih =>
    rw [List.length_cons] at hroom
    let next : TreeProcess := ⟨{ p.store with
      merkleTree := p.store.merkleTree.put (leafKey p.tree.leaves.length) c.toList },
      { p.tree with leaves := p.tree.leaves ++ [c], cachedRoot := none }⟩
    have hinsert : p.tree.insert p.store true c = some ⟨.ok p.tree.leaves.length, next.tree, next.store⟩ := by
      simp [MerkleTree.insert, insertCommitment, commit, MerkleTree.push, extend, next]
      omega
    have hlength : next.tree.leaves.length = p.tree.leaves.length + 1 := List.length_append
    obtain ⟨t, ht, hleaves⟩ := ih (k := k + 1) next (by omega) (by omega)
    refine ⟨t, ?_, by rw [hleaves, List.append_assoc]; rfl⟩
    rw [TreeProcess.insertEach, hinsert]
    simp only [Option.bind_eq_bind, Option.bind_some, Except.toOption, ht, hlength, List.zipIdx_cons, List.map_cons,
      ← hstart, List.length_cons, List.range'_succ]
    rfl

end Paraloom.OffChain
