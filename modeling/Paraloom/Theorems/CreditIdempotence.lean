import Paraloom.OffChain.CreditRace
import Paraloom.Theorems.SupplyAccounting

/-!
# Credits under concurrency

The check of a credit and its mark are two critical sections, with the insert of the leaf between them. As long as no call
checks a commitment while another call on it is between the two, each commitment gets one leaf and one credit. Two calls that
both check before either of them marks both credit it.
-/

namespace Paraloom.OffChain

open PrivacyStorage Option AList Table SupplyAux

/-- A call that has found its commitment unmarked and has not marked it. -/
def CreditPoint.InFlight (point : CreditPoint) : Prop :=
  point = .writeLeaves ∨ point = .writeCachedRoot ∨ point = .writeDeposited

instance (point : CreditPoint) : Decidable point.InFlight := inferInstanceAs (Decidable (_ ∨ _ ∨ _))

namespace CreditRace

/-- The task does not check a commitment while another call on it is in flight. -/
def Undisputed (r : CreditRace) (id : Nat) : Prop :=
  ∀ task, r.tasks.lookup id = some task → task.point = .readDeposited →
    ∀ other ∈ r.tasks.entries, other.2.args.commitment = task.args.commitment → ¬ other.2.point.InFlight

instance (r : CreditRace) (id : Nat) : Decidable (r.Undisputed id) :=
  match htask : r.tasks.lookup id with
  | none => isTrue fun _ h => by rw [htask] at h; cases h
  | some task =>
    decidable_of_iff (task.point = .readDeposited →
      ∀ other ∈ r.tasks.entries, other.2.args.commitment = task.args.commitment → ¬ other.2.point.InFlight)
      ⟨fun h task' h' => by obtain rfl := some.inj (htask.symm.trans h'); exact h, fun h => h task htask⟩

/-- A grant that no check disputes. -/
def UndisputedStep (r : CreditRace) (grant : Nat × Bool) (r' : CreditRace) : Prop := r.Step grant r' ∧ r.Undisputed grant.1

end CreditRace

namespace CreditAux

/-- The process after the leaf of a call is on disk and in memory. -/
def withLeaf (p : PoolProcess) (args : CreditArgs) : PoolProcess where
  store := { p.store with
    merkleTree := p.store.merkleTree.put (leafKey p.pool.commitmentTree.leaves.length) args.commitment.toList }
  pool := { p.pool with
    commitmentTree := { p.pool.commitmentTree with leaves := p.pool.commitmentTree.leaves ++ [args.commitment] } }
  booked := p.booked.insert args.commitment (args.amount, args.assetId)

def withSupply (p : PoolProcess) (args : CreditArgs) : PoolProcess := { p with
  store := { p.store with
    poolState := p.store.poolState.put (supplyKey args.assetId) (supplyBytes (p.pool.supplyOf args.assetId + args.amount)) }
  pool := { p.pool with supplies := p.pool.supplies.insert args.assetId (p.pool.supplyOf args.assetId + args.amount) } }

/-- What one section of a call does to the process, and where the call stands after it. -/
inductive Section (p : PoolProcess) (task : CreditTask) : PoolProcess → CreditPoint → Prop where
  | skip (hpoint : task.point = .readDeposited) (hmem : task.args.commitment ∈ p.pool.deposited) :
      Section p task p (.ended (.returned (.ok task.args.commitment)))
  | pass (hpoint : task.point = .readDeposited) (hnew : task.args.commitment ∉ p.pool.deposited) : Section p task p .writeLeaves
  | leaf (hpoint : task.point = .writeLeaves) (hroom : p.pool.commitmentTree.leaves.length + 1 ≤ vecCapacity) :
      Section p task (withLeaf p task.args) .writeCachedRoot
  | forget (hpoint : task.point = .writeCachedRoot) :
      Section p task { p with pool := { p.pool with commitmentTree := p.pool.commitmentTree.forgetRoot } } .writeDeposited
  | mark (hpoint : task.point = .writeDeposited) :
      Section p task { p with pool := { p.pool with deposited := insert task.args.commitment p.pool.deposited } } .writeNotes
  | note (hpoint : task.point = .writeNotes) :
      Section p task { p with pool := { p.pool with notes := p.pool.notes.insert task.args.commitment task.args.note } }
        .writeSupplies
  | supply (hpoint : task.point = .writeSupplies)
      (hfits : (p.pool.supplyOf task.args.assetId).toNat + task.args.amount.toNat < 2 ^ 64) :
      Section p task (withSupply p task.args) (.ended (.returned (.ok task.args.commitment)))
  /-- The call ends without `Ok`. -/
  | fail (p' : PoolProcess) {result : CreditResult} (hfail : result ≠ .returned (.ok task.args.commitment)) :
      Section p task p' (.ended result)

variable {task : CreditTask}

theorem insertLeaf_some {r : TreeReturn (Except StorageError Nat)} (h : t.insertLeaf store acknowledged c = some r) :
    r = ⟨.error .write, t, store⟩ ∨ t.leaves.length + 1 ≤ vecCapacity ∧
      r = ⟨.ok t.leaves.length, { t with leaves := t.leaves ++ [c] },
        { store with merkleTree := store.merkleTree.put (leafKey t.leaves.length) c.toList }⟩ := by
  unfold MerkleTree.insertLeaf at h
  cases acknowledged with
  | false => exact .inl (some.inj h).symm
  | true =>
    simp only [insertCommitment, commit, if_true, map_eq_some_iff, extend] at h
    obtain ⟨leaves, hleaves, rfl⟩ := h
    split at hleaves
    · rename_i hroom
      obtain rfl := some.inj hleaves
      exact .inr ⟨hroom, rfl⟩
    · cases hleaves

/-- The supply is credited in memory and on disk, or the call does not return `Ok`. -/
theorem creditSupply_result (pool : ShieldedPool) (store : PrivacyStorage) (acknowledged : Bool) (c : Bytes32) (amount : UInt64) :
    (pool.creditSupply store acknowledged c amount assetId).result ≠ .returned (.ok c) ∨
      acknowledged = true ∧ (pool.supplyOf assetId).toNat + amount.toNat < 2 ^ 64 := by
  by_cases hfits : (pool.supplyOf assetId).toNat + amount.toNat < 2 ^ 64
  · cases acknowledged with
    | true => exact .inr ⟨rfl, hfits⟩
    | false =>
      have hfail : ∀ supply, store.setAssetSupply false assetId supply = .error .write := by
        intro supply
        simp [setAssetSupply, setTotalSupply, putPoolState, commit]
      refine .inl ?_
      unfold ShieldedPool.creditSupply
      rw [if_pos hfits]
      simp [hfail]
  · refine .inl ?_
    unfold ShieldedPool.creditSupply
    rw [if_neg hfits]
    simp

theorem proceed_some (h : task.proceed p acknowledged = some next) : Section p task next.1 next.2 := by
  obtain ⟨⟨c, note, amount, assetId⟩, point⟩ := task
  unfold CreditTask.proceed at h
  cases point with
  | readDeposited =>
    obtain rfl := some.inj h
    dsimp only
    split
    · rename_i hmem
      exact .skip rfl hmem
    · rename_i hnew
      exact .pass rfl hnew
  | writeLeaves =>
    obtain ⟨r, hr, rfl⟩ := map_eq_some_iff.mp h
    rcases insertLeaf_some hr with rfl | ⟨hroom, rfl⟩
    · exact .fail p (by simp)
    · exact .leaf rfl hroom
  | writeCachedRoot =>
    obtain rfl := some.inj h
    exact .forget rfl
  | writeDeposited =>
    obtain rfl := some.inj h
    exact .mark rfl
  | writeNotes =>
    obtain rfl := some.inj h
    exact .note rfl
  | writeSupplies =>
    obtain rfl := some.inj h
    rcases creditSupply_result p.pool p.store acknowledged c amount with hfail | ⟨rfl, hfits⟩
    · exact .fail _ hfail
    · rw [creditSupply_eq hfits]
      exact .supply rfl hfits
  | ended result => cases h

/-- A grant is a section of one call that has not ended; the other calls stay where they are. -/
theorem advance_some {r r' : CreditRace} {id : Nat} (h : r.advance id acknowledged = some r') :
    ∃ task point, r.tasks.lookup id = some task ∧ (∀ result, task.point ≠ .ended result) ∧
      Section r.process task r'.process point ∧ r'.tasks = r.tasks.insert id { task with point } := by
  obtain ⟨task, htask, h⟩ := bind_eq_some_iff.mp h
  split at h
  · cases h
  · obtain ⟨next, hnext, rfl⟩ := map_eq_some_iff.mp h
    refine ⟨task, next.2, htask, ?_, proceed_some hnext, rfl⟩
    intro result hended
    simp [CreditTask.proceed, hended] at hnext

/-! ## Calls in flight -/

/-- No two calls in flight are on one commitment, and none is on a commitment that is marked. -/
structure Exclusive (tasks : Table Nat CreditTask) (deposited : Finset Bytes32) : Prop where
  unique : ∀ id id' task task', tasks.lookup id = some task → tasks.lookup id' = some task' → task.point.InFlight →
    task'.point.InFlight → task.args.commitment = task'.args.commitment → id = id'
  unmarked : ∀ id task, tasks.lookup id = some task → task.point.InFlight → task.args.commitment ∉ deposited

variable {tasks : Table Nat CreditTask} {id : Nat}

theorem inFlight_insert (hmove : point.InFlight → task.point.InFlight) (htask : tasks.lookup id = some task)
    (h : (tasks.insert id { task with point }).lookup id' = some task') (hflight : task'.point.InFlight) :
    ∃ task'', tasks.lookup id' = some task'' ∧ task''.args = task'.args ∧ task''.point.InFlight := by
  rcases lookup_insert_eq_some.mp h with ⟨rfl, rfl⟩ | ⟨-, h⟩
  · exact ⟨task, htask, rfl, hmove hflight⟩
  · exact ⟨task', h, rfl, hflight⟩

/-- A call that moves on without passing the check puts nothing new in flight. -/
theorem Exclusive.move (h : Exclusive tasks deposited) (htask : tasks.lookup id = some task)
    (hmove : point.InFlight → task.point.InFlight) : Exclusive (tasks.insert id { task with point }) deposited := by
  refine ⟨?_, ?_⟩
  · intro id₁ id₂ task₁ task₂ h₁ h₂ hflight₁ hflight₂ hsame
    obtain ⟨old₁, hold₁, hargs₁, hinFlight₁⟩ := inFlight_insert hmove htask h₁ hflight₁
    obtain ⟨old₂, hold₂, hargs₂, hinFlight₂⟩ := inFlight_insert hmove htask h₂ hflight₂
    exact h.unique id₁ id₂ old₁ old₂ hold₁ hold₂ hinFlight₁ hinFlight₂ (by rw [hargs₁, hargs₂, hsame])
  · intro id' task' h' hflight
    obtain ⟨old, hold, hargs, hinFlight⟩ := inFlight_insert hmove htask h' hflight
    exact hargs ▸ h.unmarked id' old hold hinFlight

/-- A call that passes the check while no other one on its commitment is in flight. -/
theorem Exclusive.pass (h : Exclusive tasks deposited) (hnew : task.args.commitment ∉ deposited)
    (halone : ∀ other ∈ tasks.entries, other.2.args.commitment = task.args.commitment → ¬ other.2.point.InFlight) :
    Exclusive (tasks.insert id { task with point := .writeLeaves }) deposited := by
  have hother : ∀ id' task', tasks.lookup id' = some task' → task'.point.InFlight →
      task'.args.commitment ≠ task.args.commitment := by
    intro id' task' h' hflight hsame
    exact halone ⟨id', task'⟩ (mem_lookup_iff.mp h') hsame hflight
  refine ⟨?_, ?_⟩
  · intro id₁ id₂ task₁ task₂ h₁ h₂ hflight₁ hflight₂ hsame
    rcases lookup_insert_eq_some.mp h₁ with ⟨heq₁, rfl⟩ | ⟨-, h₁⟩
    · rcases lookup_insert_eq_some.mp h₂ with ⟨heq₂, -⟩ | ⟨-, h₂⟩
      · exact heq₁.trans heq₂.symm
      · exact absurd hsame.symm (hother id₂ task₂ h₂ hflight₂)
    · rcases lookup_insert_eq_some.mp h₂ with ⟨-, rfl⟩ | ⟨-, h₂⟩
      · exact absurd hsame (hother id₁ task₁ h₁ hflight₁)
      · exact h.unique id₁ id₂ task₁ task₂ h₁ h₂ hflight₁ hflight₂ hsame
  · intro id' task' h' hflight
    rcases lookup_insert_eq_some.mp h' with ⟨-, rfl⟩ | ⟨-, h'⟩
    · exact hnew
    · exact h.unmarked id' task' h' hflight

theorem Exclusive.mark (h : Exclusive tasks deposited) (htask : tasks.lookup id = some task)
    (hpoint : task.point = .writeDeposited) :
    Exclusive (tasks.insert id { task with point := .writeNotes }) (insert task.args.commitment deposited) := by
  have hland : ¬ CreditPoint.writeNotes.InFlight := by decide
  refine ⟨(h.move htask fun hflight => absurd hflight hland).unique, ?_⟩
  intro id' task' h' hflight hmem
  rcases lookup_insert_eq_some.mp h' with ⟨-, rfl⟩ | ⟨hne, h'⟩
  · exact hland hflight
  · rcases Finset.mem_insert.mp hmem with hsame | hmem
    · exact hne (h.unique id' id task' task h' htask hflight (.inr (.inr hpoint)) hsame)
    · exact h.unmarked id' task' h' hflight hmem

/-! ## The account of the calls -/

/-- The leaf of the call is in the tree and its commitment is not marked. -/
def Landed (point : CreditPoint) : Prop := point = .writeCachedRoot ∨ point = .writeDeposited

/-- The leaf of the call is in the tree and its amount is not in the supply. -/
def Owing (point : CreditPoint) : Prop := Landed point ∨ point = .writeNotes ∨ point = .writeSupplies

instance (point : CreditPoint) : Decidable (Landed point) := inferInstanceAs (Decidable (_ ∨ _))

instance (point : CreditPoint) : Decidable (Owing point) := inferInstanceAs (Decidable (_ ∨ _ ∨ _))

/-- What a call still adds to the supply of an asset. -/
def owed (assetId : AssetId) (task : CreditTask) : Nat :=
  if Owing task.point ∧ task.args.assetId = assetId then task.args.amount.toNat else 0

/-- A commitment is marked, or its leaf is there and its call about to mark it. -/
def Accounts (tasks : Table Nat CreditTask) (deposited : Finset Bytes32) (c : Bytes32) : Prop :=
  c ∈ deposited ∨ ∃ id task, tasks.lookup id = some task ∧ Landed task.point ∧ task.args.commitment = c

theorem Accounts.move (h : Accounts tasks deposited c) (htask : tasks.lookup id = some task) (hsub : deposited ⊆ deposited')
    (hland : Landed task.point → Landed point ∨ task.args.commitment ∈ deposited') :
    Accounts (tasks.insert id { task with point }) deposited' c := by
  rcases h with hmem | ⟨id', task', h', hlanded, rfl⟩
  · exact .inl (hsub hmem)
  · by_cases heq : id' = id
    · subst heq
      obtain rfl := some.inj (htask.symm.trans h')
      rcases hland hlanded with hstill | hmem
      · exact .inr ⟨id', _, lookup_insert _, hstill, rfl⟩
      · exact .inl hmem
    · exact .inr ⟨id', task', (lookup_insert_ne heq).trans h', hlanded, rfl⟩

/-- The calls so far gave each commitment one leaf, and each asset what its leaves hold but for the amounts still owed. -/
structure Safe (r : CreditRace) : Prop where
  capacity : r.process.pool.commitmentTree.leaves.length ≤ vecCapacity
  leaves : HoldsLeaves r.process.store.merkleTree r.process.pool.commitmentTree.leaves
  nodup : r.process.pool.commitmentTree.leaves.Nodup
  supplies : HoldsSupplies r.process.store.poolState r.process.pool.supplyOf
  exclusive : Exclusive r.tasks r.process.pool.deposited
  accounts : ∀ c ∈ r.process.pool.commitmentTree.leaves, Accounts r.tasks r.process.pool.deposited c
  sum : ∀ a, (r.process.pool.supplyOf a).toNat + total (fun _ task => owed a task) r.tasks = r.process.creditedSum a

theorem safe_start (hp : Accounted p) (hnodup : p.pool.commitmentTree.leaves.Nodup) : Safe (.start p calls) := by
  have hpoint : ∀ id task, (CreditRace.start p calls).tasks.lookup id = some task → task.point = .readDeposited := by
    intro id task h
    rw [CreditRace.start, lookup_mapValues, map_eq_some_iff] at h
    obtain ⟨args, -, rfl⟩ := h
    rfl
  have hnone : ∀ id task, (CreditRace.start p calls).tasks.lookup id = some task → ¬ task.point.InFlight := by
    intro id task h
    rw [hpoint id task h]
    decide
  refine ⟨hp.capacity, hp.leaves, hnodup, hp.supplies, ⟨?_, ?_⟩, ?_, ?_⟩
  · intro id _ task _ h _ hflight
    exact absurd hflight (hnone id task h)
  · intro id task h hflight
    exact absurd hflight (hnone id task h)
  · intro c hc
    refine .inl ?_
    rw [CreditRace.start, hp.deposited]
    exact List.mem_toFinset.mpr hc
  · intro a
    rw [total_eq_zero, Nat.add_zero]
    · exact hp.sum a
    · intro id task h
      rw [owed, hpoint id task h, if_neg (by simp [Owing, Landed])]

section Step

variable {r : CreditRace}

theorem total_owed (htask : r.tasks.lookup id = some task) (point : CreditPoint) (a : AssetId) :
    total (fun _ task => owed a task) (r.tasks.insert id { task with point }) + owed a task =
      total (fun _ task => owed a task) r.tasks + owed a { task with point } :=
  total_insert _ _ htask

section Task

variable (h : Safe r) (htask : r.tasks.lookup id = some task)
include h htask

theorem Safe.quiet (hstore : q.store = r.process.store)
    (hleaves : q.pool.commitmentTree.leaves = r.process.pool.commitmentTree.leaves)
    (hsupplies : q.pool.supplies = r.process.pool.supplies) (hbooked : q.booked = r.process.booked)
    (howing : Owing point ↔ Owing task.point)
    (hexclusive : Exclusive (r.tasks.insert id { task with point }) q.pool.deposited)
    (hsub : r.process.pool.deposited ⊆ q.pool.deposited)
    (hland : Landed task.point → Landed point ∨ task.args.commitment ∈ q.pool.deposited) :
    Safe ⟨q, r.tasks.insert id { task with point }⟩ := by
  have hsupplyOf : q.pool.supplyOf = r.process.pool.supplyOf := by
    funext a
    rw [ShieldedPool.supplyOf, hsupplies, ShieldedPool.supplyOf]
  refine ⟨?_, ?_, ?_, ?_, hexclusive, ?_, ?_⟩
  · rw [hleaves]
    exact h.capacity
  · rw [hleaves, hstore]
    exact h.leaves
  · rw [hleaves]
    exact h.nodup
  · rw [hstore, hsupplyOf]
    exact h.supplies
  · intro c hc
    exact (h.accounts c (hleaves ▸ hc)).move htask hsub hland
  · intro a
    have hsum : q.creditedSum a = r.process.creditedSum a := by
      simp only [PoolProcess.creditedSum, PoolProcess.bookedAmount, hleaves, hbooked]
    have howed : owed a { task with point } = owed a task := by simp only [owed, howing]
    have htotal := total_owed htask point a
    rw [howed] at htotal
    rw [hsum, hsupplyOf, Nat.add_right_cancel htotal]
    exact h.sum a

/-- The leaf of a call in flight is new. -/
theorem Safe.notMem_leaves (hpoint : task.point = .writeLeaves) : task.args.commitment ∉ r.process.pool.commitmentTree.leaves := by
  have hflight : task.point.InFlight := Or.inl hpoint
  intro hmem
  rcases h.accounts _ hmem with hmarked | ⟨id', task', h', hlanded, hsame⟩
  · exact h.exclusive.unmarked id task htask hflight hmarked
  · have hflight' : task'.point.InFlight := Or.inr hlanded
    obtain rfl := h.exclusive.unique id id' task task' htask h' hflight hflight' hsame.symm
    obtain rfl := some.inj (htask.symm.trans h')
    rw [hpoint] at hlanded
    exact absurd hlanded (by decide)

/-- A leaf is written, and its amount owed. -/
theorem Safe.leaf (hpoint : task.point = .writeLeaves) (hroom : r.process.pool.commitmentTree.leaves.length + 1 ≤ vecCapacity) :
    Safe ⟨withLeaf r.process task.args, r.tasks.insert id { task with point := .writeCachedRoot }⟩ := by
  have hnew := h.notMem_leaves htask hpoint
  have hfitsKey : vecCapacity < 256 ^ 8 := by decide
  refine ⟨?_, ?_, ?_, h.supplies, ?_, ?_, ?_⟩
  · rw [withLeaf, List.length_append]
    exact hroom
  · exact h.leaves.put (by omega) task.args.commitment
  · exact List.nodup_append.mpr ⟨h.nodup, List.nodup_singleton _, fun c hc c' hc' heq =>
      hnew (List.mem_singleton.mp hc' ▸ heq ▸ hc)⟩
  · exact h.exclusive.move htask fun _ => .inl hpoint
  · intro c hc
    rcases List.mem_append.mp hc with hold | hown
    · exact (h.accounts c hold).move htask (Finset.Subset.refl _) fun _ => .inl (.inl rfl)
    · obtain rfl := List.mem_singleton.mp hown
      exact .inr ⟨id, _, lookup_insert _, Or.inl rfl, rfl⟩
  · intro a
    have hbook : (withLeaf r.process task.args).creditedSum a =
        (if task.args.assetId = a then task.args.amount.toNat else 0) + r.process.creditedSum a :=
      creditedSum_book rfl (mt List.mem_toFinset.mp hnew) rfl a
    have hsupplyOf : (withLeaf r.process task.args).pool.supplyOf a = r.process.pool.supplyOf a := rfl
    have htotal := total_owed htask .writeCachedRoot a
    have howed : owed a task = 0 := by
      rw [owed, hpoint, if_neg (by simp [Owing, Landed])]
    have howes : owed a { task with point := .writeCachedRoot } =
        if task.args.assetId = a then task.args.amount.toNat else 0 := by
      simp [owed, Owing, Landed]
    have hsum := h.sum a
    dsimp only
    rw [hbook, hsupplyOf]
    omega

/-- The amount owed is paid. -/
theorem Safe.supply (hpoint : task.point = .writeSupplies)
    (hfits : (r.process.pool.supplyOf task.args.assetId).toNat + task.args.amount.toNat < 2 ^ 64) :
    Safe ⟨withSupply r.process task.args,
      r.tasks.insert id { task with point := .ended (.returned (.ok task.args.commitment)) }⟩ := by
  have hsupplyOf : (withSupply r.process task.args).pool.supplyOf = Function.update r.process.pool.supplyOf task.args.assetId
      (r.process.pool.supplyOf task.args.assetId + task.args.amount) := by
    funext a
    rw [ShieldedPool.supplyOf, withSupply, lookup_insert_if, Function.update_apply]
    split <;> rfl
  refine ⟨h.capacity, h.leaves, h.nodup, ?_, ?_, ?_, ?_⟩
  · rw [hsupplyOf]
    exact h.supplies.put _ _
  · refine h.exclusive.move htask ?_
    rintro (heq | heq | heq) <;> cases heq
  · intro c hc
    refine (h.accounts c hc).move htask (Finset.Subset.refl _) ?_
    intro hlanded
    rw [hpoint] at hlanded
    exact absurd hlanded (by decide)
  · intro a
    have htotal := total_owed htask (.ended (.returned (.ok task.args.commitment))) a
    have howed : owed a { task with point := .ended (.returned (.ok task.args.commitment)) } = 0 := by
      simp [owed, Owing, Landed]
    have howes : owed a task = if task.args.assetId = a then task.args.amount.toNat else 0 := by
      simp [owed, Owing, hpoint]
    have hsum : _ = (withSupply r.process task.args).creditedSum a := h.sum a
    dsimp only
    rw [hsupplyOf, ← hsum]
    by_cases ha : task.args.assetId = a
    · subst ha
      rw [Function.update_self, UInt64.toNat_add, Nat.mod_eq_of_lt hfits]
      rw [if_pos rfl] at howes
      omega
    · rw [Function.update_of_ne (Ne.symm ha)]
      rw [if_neg ha] at howes
      omega

/-- A section keeps the account, unless its call ends without `Ok`. -/
theorem Safe.section (hundisputed : r.Undisputed id) (hsection : Section r.process task q point)
    (hok : ∀ result, point = .ended result → result = .returned (.ok task.args.commitment)) :
    Safe ⟨q, r.tasks.insert id { task with point }⟩ := by
  have hsub := Finset.Subset.refl r.process.pool.deposited
  cases hsection with
  | skip hpoint hmem =>
    refine h.quiet htask rfl rfl rfl rfl ?_ (h.exclusive.move htask ?_) hsub ?_
    · simp [Owing, Landed, hpoint]
    · simp [CreditPoint.InFlight]
    · simp [Landed, hpoint]
  | pass hpoint hnew =>
    refine h.quiet htask rfl rfl rfl rfl ?_ (h.exclusive.pass hnew (hundisputed task htask hpoint)) hsub ?_
    · simp [Owing, Landed, hpoint]
    · simp [Landed, hpoint]
  | leaf hpoint hroom => exact h.leaf htask hpoint hroom
  | forget hpoint =>
    refine h.quiet htask rfl rfl rfl rfl ?_ (h.exclusive.move htask ?_) hsub ?_
    · simp [Owing, Landed, hpoint]
    · simp [CreditPoint.InFlight, hpoint]
    · simp [Landed]
  | mark hpoint =>
    refine h.quiet htask rfl rfl rfl rfl ?_ (h.exclusive.mark htask hpoint) (Finset.subset_insert _ _) ?_
    · simp [Owing, Landed, hpoint]
    · intro _
      exact .inr (Finset.mem_insert_self _ _)
  | note hpoint =>
    refine h.quiet htask rfl rfl rfl rfl ?_ (h.exclusive.move htask ?_) hsub ?_
    · simp [Owing, hpoint]
    · simp [CreditPoint.InFlight]
    · simp [Landed, hpoint]
  | supply hpoint hfits => exact h.supply htask hpoint hfits
  | fail p' hfail => exact absurd (hok _ rfl) hfail

end Task

/-- Some call has ended without `Ok`. -/
def Failed (r : CreditRace) : Prop :=
  ∃ id task result, r.tasks.lookup id = some task ∧ task.point = .ended result ∧
    result ≠ .returned (.ok task.args.commitment)

/-- Every run keeps the account as long as no call fails: a call that has failed stays so. -/
theorem Safe.step {r' : CreditRace} {grant : Nat × Bool} (h : ¬ Failed r → Safe r) (hstep : r.UndisputedStep grant r')
    (hok : ¬ Failed r') : Safe r' := by
  obtain ⟨hadvance, hundisputed⟩ := hstep
  obtain ⟨task, point, htask, hrunning, hsection, htasks⟩ := advance_some hadvance
  have hbefore : ¬ Failed r := by
    rintro ⟨id', task', result, h', hpoint, hfail⟩
    refine hok ⟨id', task', result, ?_, hpoint, hfail⟩
    have hne : id' ≠ grant.1 := by
      rintro rfl
      obtain rfl := some.inj (htask.symm.trans h')
      exact hrunning result hpoint
    rw [htasks, lookup_insert_ne hne]
    exact h'
  have hsafe := (h hbefore).section htask hundisputed hsection ?_
  · rwa [← htasks] at hsafe
  · intro result hpoint
    by_contra hfail
    refine hok ⟨grant.1, { task with point }, result, ?_, hpoint, hfail⟩
    rw [htasks]
    exact lookup_insert _

end Step

end CreditAux

open CreditAux in
/-- In every interleaving, from a pool whose supplies are the sums of its leaves, in which no call checks a commitment while
another call on it is in flight: once all calls have returned `Ok`, no commitment has two leaves in memory or on disk, and the
supply of every asset is the sum of the amounts of its distinct commitments. -/
theorem credit_idempotent {p : PoolProcess} {calls : Table Nat CreditArgs} {grants : List (Nat × Bool)} {r : CreditRace}
    (hp : SupplyAux.Accounted p) (hnodup : p.pool.commitmentTree.leaves.Nodup)
    (hrun : Run CreditRace.UndisputedStep (.start p calls) grants r) (hok : r.AllOk) :
    r.process.pool.commitmentTree.leaves.Nodup ∧
      (∃ leaves, r.process.store.getAllCommitments = .ok leaves ∧ leaves.Nodup) ∧
      ∀ assetId, (r.process.pool.supplyOf assetId).toNat = r.process.creditedSum assetId := by
  have hended : ∀ id task, r.tasks.lookup id = some task → task.point = .ended (.returned (.ok task.args.commitment)) := by
    intro id task htask
    exact hok ⟨id, task⟩ (mem_lookup_iff.mp htask)
  have hnotFailed : ¬ Failed r := by
    rintro ⟨id, task, result, htask, hpoint, hfail⟩
    rw [hended id task htask, CreditPoint.ended.injEq] at hpoint
    exact hfail hpoint.symm
  have hsafe : Safe r :=
    hrun.invariant (P := fun r => ¬ Failed r → Safe r) (fun _ => safe_start hp hnodup)
      (fun _ _ _ h hstep => Safe.step h hstep) hnotFailed
  refine ⟨hsafe.nodup, ⟨_, hsafe.leaves.getAllCommitments (hsafe.capacity.trans (by decide)), hsafe.nodup⟩, ?_⟩
  intro assetId
  have hsum := hsafe.sum assetId
  rwa [total_eq_zero, Nat.add_zero] at hsum
  intro id task htask
  rw [owed, hended id task htask, if_neg (by simp [Owing, Landed])]

namespace CreditSample

open PoolSample

def args : CreditArgs := ⟨deposit 1, creditNote 5 nativeSolAsset, 5, nativeSolAsset⟩

def twice : Table Nat CreditArgs := (insert 0 args ∅).insert 1 args

/-- A grant that is only made if no check disputes it. -/
def undisputedAdvance (r : CreditRace) (grant : Nat × Bool) : Option CreditRace :=
  if r.Undisputed grant.1 then r.advance grant.1 grant.2 else none

theorem undisputedAdvance_step (r : CreditRace) (grant : Nat × Bool) (r' : CreditRace)
    (h : undisputedAdvance r grant = some r') : r.UndisputedStep grant r' := by
  unfold undisputedAdvance at h
  split at h
  · rename_i hundisputed
    exact ⟨h, hundisputed⟩
  · cases h

/-- The second call checks after the first has marked the commitment, and before it has credited the supply. -/
def inTurn : List (Nat × Bool) := [0, 0, 0, 0, 1, 0, 0].map (·, true)

/-- Both calls check before either marks the commitment. -/
def together : List (Nat × Bool) := [0, 1, 0, 0, 1, 1, 0, 1, 0, 0, 1, 1].map (·, true)

end CreditSample

open CreditSample in
/-- The repeat that checks after the mark adds nothing. -/
theorem credit_idempotent_in_turn : ∃ r, Run CreditRace.UndisputedStep (.start .start twice) inTurn r ∧ r.AllOk ∧
      r.process.pool.commitmentTree.leaves.Nodup ∧ (r.process.pool.supplyOf nativeSolAsset).toNat = 5 := by
  have hrun : ((inTurn.foldlM undisputedAdvance (.start .start twice)).any fun r =>
      decide (r.AllOk ∧ r.process.creditedSum nativeSolAsset = 5)) = true := by
    decide +kernel
  obtain ⟨r, hundisputed, hok, hsum⟩ := Run.exists_of_foldlM undisputedAdvance_step hrun
  obtain ⟨hnodup, -, hsupply⟩ := credit_idempotent accounted_start List.nodup_nil hundisputed hok
  exact ⟨r, hundisputed, hok, hnodup, (hsupply nativeSolAsset).trans hsum⟩

open CreditSample PoolSample in
/-- Two calls with one commitment that both check before either marks it return `Ok`, insert the leaf twice, in memory and on
disk, and credit the amount twice. -/
theorem credit_race_doubles : ∃ r, Run CreditRace.Step (.start .start twice) together r ∧ r.AllOk ∧
      r.process.pool.commitmentTree.leaves = [deposit 1, deposit 1] ∧
      r.process.store.getAllCommitments = .ok [deposit 1, deposit 1] ∧
      (r.process.pool.supplyOf nativeSolAsset).toNat = 10 ∧ r.process.creditedSum nativeSolAsset = 5 := by
  have hrun : ((together.foldlM (fun (r : CreditRace) grant => r.advance grant.1 grant.2) (.start .start twice)).any fun r =>
      decide (r.AllOk ∧ r.process.pool.commitmentTree.leaves = [deposit 1, deposit 1] ∧
        r.process.store.getAllCommitments = .ok [deposit 1, deposit 1] ∧
        (r.process.pool.supplyOf nativeSolAsset).toNat = 10 ∧ r.process.creditedSum nativeSolAsset = 5)) = true := by
    decide +kernel
  exact Run.exists_of_foldlM (fun _ _ _ h => h) hrun

end Paraloom.OffChain
