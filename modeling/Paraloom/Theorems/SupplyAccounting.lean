import Paraloom.Lemmas.Storage
import Paraloom.Lib.Run
import Paraloom.OffChain.ShieldedPool

/-!
# The supply across crashes

A credit writes the leaf and then the supply. As long as the second write follows the first, the supply of an asset is the sum
of its credited commitments and survives any restart. Otherwise the leaf is on disk without its amount, and since the guard
looks at the leaves alone no retry adds it.
-/

namespace Paraloom.OffChain

open PrivacyStorage ShieldedPool

namespace SupplyAux

variable {p p' : PoolProcess}
/-- What holds of a process whose supplies are the sums of its leaves. -/
structure Accounted (p : PoolProcess) : Prop where
  capacity : p.pool.commitmentTree.leaves.length ≤ vecCapacity
  leaves : HoldsLeaves p.store.merkleTree p.pool.commitmentTree.leaves
  deposited : p.pool.deposited = p.pool.commitmentTree.leaves.toFinset
  supplies : HoldsSupplies p.store.poolState p.pool.supplyOf
  sum : ∀ a, (p.pool.supplyOf a).toNat = p.creditedSum a

theorem accounted_start : Accounted .start := by
  have hnone : PoolProcess.start.pool.supplyOf = fun _ => 0 := by
    funext a
    rfl
  refine ⟨Nat.zero_le _, holdsLeaves_empty, rfl, ?_, fun a => rfl⟩
  rw [hnone]
  exact holdsSupplies_empty

theorem reopen_some (hcap : leaves.length ≤ vecCapacity) (hleaves : HoldsLeaves store.merkleTree leaves)
    (hsupplies : HoldsSupplies store.poolState supply) (h : PoolProcess.reopen store booked = some p') :
    p'.store = store ∧ p'.booked = booked ∧ p'.pool.commitmentTree.leaves = leaves ∧
      p'.pool.deposited = leaves.toFinset ∧ p'.pool.supplyOf = supply := by
  have hread : store.getAllCommitments = .ok leaves :=
    hleaves.getAllCommitments (hcap.trans (by decide))
  obtain ⟨t, ht, hsupply⟩ := hsupplies.getAllAssetSupplies
  unfold PoolProcess.reopen at h
  split at h
  · rename_i pool hopen
    obtain rfl := Option.some.inj h
    simp only [withStorage, MerkleTree.withStorage, hread, ht, Checked.seq_ok_iff, Checked.return_ok_iff,
      Except.ok.injEq] at hopen
    obtain ⟨tree, ⟨_, rfl, root, -, rfl⟩, nullifiers, -, _, rfl, _, rfl, rfl⟩ := hopen
    exact ⟨rfl, rfl, rfl, rfl, funext hsupply⟩
  · cases h

theorem Accounted.reopen (h : Accounted p) (hreopen : PoolProcess.reopen p.store p.booked = some p') : Accounted p' := by
  obtain ⟨hstore, hbooked, hleaves, hdeposited, hsupply⟩ := reopen_some h.capacity h.leaves h.supplies hreopen
  refine ⟨hleaves ▸ h.capacity, ?_, ?_, ?_, fun a => ?_⟩
  · rw [hstore, hleaves]
    exact h.leaves
  · rw [hdeposited, hleaves]
  · rw [hstore, hsupply]
    exact h.supplies
  · have hsum : p'.creditedSum a = p.creditedSum a := by
      simp only [PoolProcess.creditedSum, PoolProcess.bookedAmount, hleaves, hbooked]
    rw [hsum, hsupply]
    exact h.sum a

theorem creditCommitment_some (h : pool.creditCommitment store leafAck supplyAck c note amount assetId = some r) :
    c ∈ pool.deposited ∧ r = ⟨.returned (.ok c), pool, store⟩ ∨
      c ∉ pool.deposited ∧ leafAck = false ∧ r = ⟨.returned (.error .write), pool, store⟩ ∨
      c ∉ pool.deposited ∧ leafAck = true ∧ pool.commitmentTree.leaves.length + 1 ≤ vecCapacity ∧
        ∃ (pool' : ShieldedPool) (store' : PrivacyStorage), pool'.commitmentTree.leaves = pool.commitmentTree.leaves ++ [c] ∧
          pool'.deposited = insert c pool.deposited ∧ pool'.supplies = pool.supplies ∧
          store'.merkleTree = store.merkleTree.put (leafKey pool.commitmentTree.leaves.length) c.toList ∧
          store'.poolState = store.poolState ∧ r = pool'.creditSupply store' supplyAck c amount assetId := by
  unfold creditCommitment at h
  split at h
  · rename_i hmem
    exact .inl ⟨hmem, (Option.some.inj h).symm⟩
  · rename_i hnew
    rw [Option.map_eq_some_iff] at h
    obtain ⟨r, hinsert, rfl⟩ := h
    rcases MerkleTree.insert_some hinsert with ⟨hfail, rfl⟩ | ⟨hack, hroom, rfl⟩
    · exact .inr (.inl ⟨hnew, hfail, rfl⟩)
    · let tree := { pool.commitmentTree with leaves := pool.commitmentTree.leaves ++ [c], cachedRoot := none }
      let pool' := { pool with
        commitmentTree := tree, deposited := insert c pool.deposited, notes := pool.notes.insert c note }
      let store' := { store with
        merkleTree := store.merkleTree.put (leafKey pool.commitmentTree.leaves.length) c.toList }
      exact .inr (.inr ⟨hnew, hack, hroom, pool', store', rfl, rfl, rfl, rfl, rfl, rfl⟩)

/-- The supply is added to in memory and on disk if the write is acknowledged and the sum fits. -/
theorem creditSupply_eq {pool : ShieldedPool} (hfits : (pool.supplyOf assetId).toNat + amount.toNat < 2 ^ 64) :
    pool.creditSupply store true c amount assetId =
      ⟨.returned (.ok c), { pool with supplies := pool.supplies.insert assetId (pool.supplyOf assetId + amount) }, { store with
          poolState := store.poolState.put (supplyKey assetId) (supplyBytes (pool.supplyOf assetId + amount)) }⟩ := by
  have hwrite : store.setAssetSupply true assetId (pool.supplyOf assetId + amount) = .ok { store with
      poolState := store.poolState.put (supplyKey assetId) (supplyBytes (pool.supplyOf assetId + amount)) } :=
    setAssetSupply_ok_iff.mpr ⟨rfl, rfl⟩
  unfold creditSupply
  rw [if_pos hfits]
  simp only [hwrite]

theorem creditedSum_book (hleaves : p'.pool.commitmentTree.leaves = p.pool.commitmentTree.leaves ++ [c])
    (hnew : c ∉ p.pool.commitmentTree.leaves.toFinset) (hbooked : p'.booked = p.booked.insert c (amount, assetId))
    (a : AssetId) :
    p'.creditedSum a = (if assetId = a then amount.toNat else 0) + p.creditedSum a := by
  have hset : p'.pool.commitmentTree.leaves.toFinset = insert c p.pool.commitmentTree.leaves.toFinset := by
    ext x
    simp [hleaves]
  have hself : p'.bookedAmount a c = if assetId = a then amount.toNat else 0 := by
    rw [PoolProcess.bookedAmount, hbooked, AList.lookup_insert]
  have hrest : ∀ x ∈ p.pool.commitmentTree.leaves.toFinset, p'.bookedAmount a x = p.bookedAmount a x := by
    intro x hx
    have hne : x ≠ c := fun h => hnew (h ▸ hx)
    rw [PoolProcess.bookedAmount, hbooked, AList.lookup_insert_ne hne, PoolProcess.bookedAmount]
  rw [PoolProcess.creditedSum, hset, Finset.sum_insert hnew, hself, Finset.sum_congr rfl hrest, PoolProcess.creditedSum]

theorem Accounted.book (h : Accounted p) (hnew : c ∉ p.pool.deposited)
    (hroom : p.pool.commitmentTree.leaves.length + 1 ≤ vecCapacity)
    (hfits : (p.pool.supplyOf assetId).toNat + amount.toNat < 2 ^ 64)
    (hleaves : p'.pool.commitmentTree.leaves = p.pool.commitmentTree.leaves ++ [c])
    (hdeposited : p'.pool.deposited = insert c p.pool.deposited)
    (hsupply : p'.pool.supplyOf = Function.update p.pool.supplyOf assetId (p.pool.supplyOf assetId + amount))
    (htree : p'.store.merkleTree = p.store.merkleTree.put (leafKey p.pool.commitmentTree.leaves.length) c.toList)
    (hstate : p'.store.poolState = p.store.poolState.put (supplyKey assetId) (supplyBytes (p.pool.supplyOf assetId + amount)))
    (hbooked : p'.booked = p.booked.insert c (amount, assetId)) : Accounted p' := by
  have hfitsKey : vecCapacity < 256 ^ 8 := by decide
  refine ⟨?_, ?_, ?_, ?_, fun a => ?_⟩
  · rw [hleaves, List.length_append]
    exact hroom
  · rw [htree, hleaves]
    exact h.leaves.put (by omega) c
  · ext x
    simp [hdeposited, hleaves, h.deposited]
  · rw [hstate, hsupply]
    exact h.supplies.put assetId _
  · rw [creditedSum_book hleaves (h.deposited ▸ hnew) hbooked, hsupply]
    by_cases ha : assetId = a
    · subst ha
      rw [Function.update_self, UInt64.toNat_add, Nat.mod_eq_of_lt hfits, if_pos rfl, h.sum, Nat.add_comm]
    · rw [Function.update_of_ne (Ne.symm ha), if_neg ha, Nat.zero_add]
      exact h.sum a

end SupplyAux

/-- A step that does not part a leaf from its amount: a new commitment whose leaf is written also has its supply written, and
the supply has room for the amount. -/
def PoolProcess.WholeCall (p : PoolProcess) : PoolCall → Prop
  | .credit leafAcknowledged supplyAcknowledged commitment _ amount assetId =>
    commitment ∈ p.pool.deposited ∨ leafAcknowledged = false ∨
      supplyAcknowledged = true ∧ (p.pool.supplyOf assetId).toNat + amount.toNat < 2 ^ 64
  | .interrupted commitment _ _ _ => commitment ∈ p.pool.deposited
  | .restart => True

instance (p : PoolProcess) (call : PoolCall) : Decidable (p.WholeCall call) :=
  match call with
  | .credit _ _ _ _ _ _ => inferInstanceAs (Decidable (_ ∨ _ ∨ _ ∧ _))
  | .interrupted _ _ _ _ => inferInstanceAs (Decidable (_ ∈ _))
  | .restart => inferInstanceAs (Decidable True)

namespace SupplyAux

theorem Accounted.credit {leafAck supplyAck : Bool} (h : Accounted p)
    (hexec : p.exec (.credit leafAck supplyAck c note amount assetId) = some p')
    (hwhole : p.WholeCall (.credit leafAck supplyAck c note amount assetId)) : Accounted p' := by
  rw [PoolProcess.exec, Option.map_eq_some_iff] at hexec
  obtain ⟨r, hr, rfl⟩ := hexec
  rcases creditCommitment_some hr with
    ⟨hmem, rfl⟩ | ⟨hnew, hfail, rfl⟩ | ⟨hnew, hack, hroom, pool', store', hleaves, hdeposited, hsupplies, htree, hstate, rfl⟩
  · rw [PoolProcess.book, if_pos (.inl hmem)]
    exact h
  · rw [PoolProcess.book, if_pos (.inr hfail)]
    exact h
  · have hnotFail : leafAck ≠ false := by simp [hack]
    obtain ⟨hsupplyAck, hfits⟩ := (hwhole.resolve_left hnew).resolve_left hnotFail
    have hsupplyOf : pool'.supplyOf = p.pool.supplyOf := by
      funext a
      rw [supplyOf, hsupplies, supplyOf]
    have hfits' : (pool'.supplyOf assetId).toNat + amount.toNat < 2 ^ 64 := by rwa [hsupplyOf]
    rw [hsupplyAck, creditSupply_eq hfits', PoolProcess.book, if_neg (by simp [hnew, hack])]
    refine h.book hnew hroom hfits hleaves hdeposited ?_ htree ?_ rfl
    · funext a
      rw [supplyOf, Table.lookup_insert_if, Function.update_apply, hsupplyOf]
      split
      · rfl
      · rw [hsupplies, supplyOf]
    · rw [hstate, hsupplyOf]

theorem Accounted.call {call : PoolCall} (h : Accounted p) (hexec : p.exec call = some p') (hwhole : p.WholeCall call) :
    Accounted p' := by
  cases call with
  | credit leafAck supplyAck c note amount assetId => exact h.credit hexec hwhole
  | interrupted c note amount assetId =>
    have hmem : c ∈ p.pool.deposited := hwhole
    rw [PoolProcess.exec, if_pos hmem] at hexec
    exact h.reopen hexec
  | restart => exact h.reopen hexec

end SupplyAux

/-- A step that keeps each leaf with its amount. -/
def PoolProcess.WholeStep (p : PoolProcess) (call : PoolCall) (p' : PoolProcess) : Prop :=
  p.exec call = some p' ∧ p.WholeCall call

/-- In every run from an empty disk whose steps all keep each leaf with its amount, the supply of every asset is at every
point the sum of the amounts of its distinct commitments in the tree. -/
theorem supply_eq_credited {calls : List PoolCall} {p : PoolProcess} (hrun : Run PoolProcess.WholeStep .start calls p)
    (assetId : AssetId) : (p.pool.supplyOf assetId).toNat = p.creditedSum assetId := by
  have haccounted : SupplyAux.Accounted p :=
    hrun.invariant SupplyAux.accounted_start fun _ _ _ h hstep => h.call hstep.1 hstep.2
  exact haccounted.sum assetId

namespace PoolSample

/-- A commitment of the sample runs, with its note. -/
def deposit (n : Nat) : Bytes32 := LittleEndian.vec 32 n

def creditNote (amount : UInt64) (assetId : AssetId) : Note := ⟨deposit 7, amount, deposit 9, assetId, none⟩

def token : AssetId := LittleEndian.vec 32 77

/-- A step that is only taken if it keeps each leaf with its amount. -/
def wholeExec (p : PoolProcess) (call : PoolCall) : Option PoolProcess := if p.WholeCall call then p.exec call else none

theorem wholeExec_wholeStep (p : PoolProcess) (call : PoolCall) (p' : PoolProcess) (h : wholeExec p call = some p') :
    p.WholeStep call p' := by
  unfold wholeExec at h
  split at h
  · rename_i hwhole
    exact ⟨h, hwhole⟩
  · cases h

/-- Two credits, the second after a failed write of its leaf, a restart and a repeat of the first. -/
def wholeCalls : List PoolCall :=
  [.credit true true (deposit 1) (creditNote 5 nativeSolAsset) 5 nativeSolAsset,
    .credit false true (deposit 2) (creditNote 8 token) 8 token,
    .credit true true (deposit 2) (creditNote 8 token) 8 token, .restart,
    .credit true true (deposit 1) (creditNote 5 nativeSolAsset) 5 nativeSolAsset]

def partedCalls : List PoolCall :=
  [.credit true false (deposit 1) (creditNote 5 nativeSolAsset) 5 nativeSolAsset, .restart]

end PoolSample

open PoolSample in
/-- Every credited amount is counted once, across a failed write, a restart and a repeat. -/
theorem supply_eq_credited_sample :
    ∃ p, Run PoolProcess.WholeStep .start wholeCalls p ∧ (p.pool.supplyOf nativeSolAsset).toNat = 5 ∧
      (p.pool.supplyOf token).toNat = 8 := by
  have hrun : ((wholeCalls.foldlM wholeExec .start).any fun p =>
      decide (p.creditedSum nativeSolAsset = 5 ∧ p.creditedSum token = 8)) = true := by
    decide +kernel
  obtain ⟨p, hwhole, hnative, htoken⟩ := Run.exists_of_foldlM wholeExec_wholeStep hrun
  exact ⟨p, hwhole, (supply_eq_credited hwhole nativeSolAsset).trans hnative, (supply_eq_credited hwhole token).trans htoken⟩

open PoolSample in
/-- After a failed supply write and a restart the leaf is there without its amount, and the retry that would add it returns
without doing so. -/
theorem retried_credit_not_counted : ∃ p, Run (fun p call p' => PoolProcess.exec p call = some p') .start partedCalls p ∧
      p.pool.commitmentTree.leaves = [deposit 1] ∧ p.creditedSum nativeSolAsset = 5 ∧
      p.pool.supplyOf nativeSolAsset = 0 ∧
      p.pool.creditCommitment p.store true true (deposit 1) (creditNote 5 nativeSolAsset) 5 nativeSolAsset =
        some ⟨.returned (.ok (deposit 1)), p.pool, p.store⟩ := by
  have hrun : ((partedCalls.foldlM PoolProcess.exec .start).any fun p =>
      decide (p.pool.commitmentTree.leaves = [deposit 1] ∧ p.creditedSum nativeSolAsset = 5 ∧
        p.pool.supplyOf nativeSolAsset = 0 ∧ deposit 1 ∈ p.pool.deposited)) = true := by
    decide +kernel
  obtain ⟨p, hp, hleaves, hsum, hsupply, hmem⟩ := Run.exists_of_foldlM (fun _ _ _ h => h) hrun
  refine ⟨p, hp, hleaves, hsum, hsupply, ?_⟩
  rw [ShieldedPool.creditCommitment, if_pos hmem]

end Paraloom.OffChain
