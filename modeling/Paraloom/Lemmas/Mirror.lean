import Paraloom.Lemmas.ListenerRun
import Paraloom.OffChain.Mirror
import Paraloom.Theorems.DepositLeaf
import Paraloom.Theorems.SupplyAccounting
import Paraloom.Theorems.Withdrawable

/-!
# Histories of deposits, on chain and in the pool

A history with nothing but deposits, each as the decoder wants it, adds the same leaves to the tree of the program and to the
list of deposits that the listener reads, and a pool that credits this list without a failure holds them too.
-/

namespace Paraloom.OffChain

open List FinalizedTransaction

/-- A transaction in which the program is only called for deposits, whose data ends with the arguments, and which the RPC lists in
the order of their execution. -/
structure FinalizedTransaction.OnlyDeposits (programId : Bytes32) (tx : FinalizedTransaction) : Prop where
  calls : ∀ i ∈ tx.executed, tx.accountKeys[i.programIdIndex]? = some programId →
    ∃ call, tx.depositCall programId i = some call ∧ i.data.length = 8 + depositPayloadLen
  order : tx.listed.filterMap (tx.depositCall programId) = tx.executed.filterMap (tx.depositCall programId)

namespace MirrorAux

/-! ## The chain -/

def nextIndex (s : State) : Nat := s.merkleTree.elim 0 (·.nextIndex)

/-- What deposits add to the chain: the leaves, and to the total the amount in lamports. -/
structure Adds (s s' : State) (added : List Bytes32) (lamports : Nat) : Prop where
  leaves : s'.leaves = s.leaves ++ added
  deposited : s'.totalDeposited = s.totalDeposited + lamports
  withdrawn : s'.totalWithdrawn = s.totalWithdrawn
  index : nextIndex s' = nextIndex s + added.length
  room : added = [] ∨ nextIndex s' ≤ 2 ^ treeDepth

theorem Adds.nothing (hleaves : s'.leaves = s.leaves) (hbridge : s'.bridgeState = s.bridgeState)
    (htree : s'.merkleTree = s.merkleTree) : Adds s s' [] 0 := by
  refine ⟨by rw [hleaves, append_nil], ?_, ?_, ?_, .inl rfl⟩
  · rw [State.totalDeposited, hbridge, State.totalDeposited, Nat.add_zero]
  · rw [State.totalWithdrawn, hbridge, State.totalWithdrawn]
  · rw [nextIndex, htree, nextIndex, length_nil, Nat.add_zero]

theorem Adds.refl (s : State) : Adds s s [] 0 := .nothing rfl rfl rfl

theorem Adds.trans (h : Adds s t xs m) (h' : Adds t u ys n) : Adds s u (xs ++ ys) (m + n) := by
  refine ⟨by rw [h'.leaves, h.leaves, append_assoc], by rw [h'.deposited, h.deposited, Nat.add_assoc],
    by rw [h'.withdrawn, h.withdrawn], by rw [h'.index, h.index, length_append, Nat.add_assoc], ?_⟩
  rcases h'.room with rfl | hroom
  · have hindex : nextIndex u = nextIndex t := h'.index
    rw [hindex, append_nil]
    exact h.room
  · exact .inr hroom

theorem Adds.same (h : Adds s t xs n) (hleaves : u.leaves = t.leaves) (hbridge : u.bridgeState = t.bridgeState)
    (htree : u.merkleTree = t.merkleTree) : Adds s u xs n := by
  have hboth := h.trans (.nothing hleaves hbridge htree)
  rwa [append_nil] at hboth

theorem adds_of_foreign (hforeign : ∀ a ∈ actions, ∀ clock ix, a ≠ .program clock ix) (h : Execution Γ s actions s') :
    Adds s s' [] 0 := by
  refine h.invariant_of (P := fun t => Adds s t [] 0) hforeign (Adds.refl s) ?_
  intro t a u ha ht hstep
  cases a with
  | program clock ix => exact absurd rfl (ha clock ix)
  | systemTransfer source target amount =>
    simp only [Step, Action.exec, Checked.seq_ok_iff, Checked.return_ok_iff] at hstep
    obtain ⟨lamports, -, rfl⟩ := hstep
    exact ht.same rfl rfl rfl
  | tokenTransfer owner mint source target amount =>
    simp only [Step, Action.exec, Checked.seq_ok_iff, Checked.return_ok_iff] at hstep
    obtain ⟨tokens, -, rfl⟩ := hstep
    exact ht.same rfl rfl rfl
  | openTokenAccount owner mint address amount =>
    simp only [Step, Action.exec, Checked.seq_ok_iff, Checked.return_ok_iff] at hstep
    obtain ⟨-, -, rfl⟩ := hstep
    exact ht.same rfl rfl rfl

section Deposits

variable {programId : Bytes32}

def leafOf (poseidon : List Fr → Fr) (call : DepositCall) : Bytes32 :=
  toBytesLe (v3Commit poseidon (call.data.amount.toNat : Fr) (fromLeBytesModOrder call.data.recipient)
    (fromLeBytesModOrder call.data.randomness) (fromLeBytesModOrder (call.assetId poseidon)))

def lamportsOf : DepositCall → Nat
  | .note _ data => data.amount.toNat
  | .noteSpl .. => 0

theorem adds_of_deposit (hposeidon : Γ.PoseidonAgrees poseidon) (haddress : ∀ b, Γ.toBytes (address b) = b)
    (h : (call.toInstruction address).exec Γ clock s = .ok s') : Adds s s' [leafOf poseidon call] (lamportsOf call) := by
  have hleaves := DepositLeafAux.leaves_of_exec hposeidon haddress h
  cases call with
  | note depositor data =>
    obtain ⟨bridge, tree, _, leaf, tree', _, _, hbridge, htree, -, -, -, -, happend, rfl⟩ := depositNote_ok h
    obtain ⟨hroom, -, _, -, rfl⟩ := IncrementalMerkleTree.append_ok_iff.mp happend
    refine ⟨hleaves, ?_, ?_, ?_, .inr ?_⟩
    · simp [State.totalDeposited, hbridge, lamportsOf]
    · simp [State.totalWithdrawn, hbridge]
    · simp [nextIndex, htree]
    · simpa [nextIndex] using hroom
  | noteSpl depositor mint tokenAccount data =>
    obtain ⟨tree, _, _, leaf, tree', _, _, htree, -, -, -, -, -, -, happend, rfl⟩ := depositNoteSpl_ok h
    obtain ⟨hroom, -, _, -, rfl⟩ := IncrementalMerkleTree.append_ok_iff.mp happend
    refine ⟨hleaves, rfl, rfl, ?_, .inr ?_⟩
    · simp [nextIndex, htree]
    · simpa [nextIndex] using hroom

theorem discriminator_of_depositCall {tx : FinalizedTransaction} (h : tx.depositCall programId instruction = some call) :
    instruction.data.take 8 = depositNoteDiscriminator ∨ instruction.data.take 8 = depositNoteSplDiscriminator := by
  unfold depositCall at h
  split at h
  · obtain ⟨accounts, -, hcall⟩ := Option.bind_eq_some_iff.mp h
    obtain ⟨-, ⟨_, hnote, -⟩ | ⟨_, _, _, hspl, -⟩⟩ := DecoderAux.ofInstruction_cases hcall
    · exact .inl hnote
    · exact .inr hspl
  · cases h

section Effects

variable {Γ : Ctx} {address : Bytes32 → Pubkey} (hposeidon : Γ.PoseidonAgrees poseidon) (haddress : ∀ b, Γ.toBytes (address b) = b)
include hposeidon haddress

theorem adds_of_effect (hdeposit : tx.accountKeys[instruction.programIdIndex]? = some programId →
      ∃ call, tx.depositCall programId instruction = some call)
    (heffect : InstructionEffect address programId tx instruction actions) (h : Execution Γ s actions s') :
    Adds s s' ((tx.depositCall programId instruction).toList.map (leafOf poseidon))
      ((tx.depositCall programId instruction).toList.map lamportsOf).sum := by
  cases heffect with
  | deposit reads =>
    rw [reads]
    obtain ⟨t, hstep, hnil⟩ := Run.first_step h
    obtain rfl := hnil.eq_of_nil
    exact adds_of_deposit hposeidon haddress hstep
  | transact program kind | transactSpl program kind =>
    obtain ⟨call, hcall⟩ := hdeposit program
    rcases discriminator_of_depositCall hcall with hnote | hspl
    · exact absurd (hnote.symm.trans kind) (by decide)
    · exact absurd (hspl.symm.trans kind) (by decide)
  | other program foreign =>
    rw [depositCall, if_neg program]
    exact adds_of_foreign foreign h

theorem adds_of_effects (hdeposits : ∀ i ∈ instructions, tx.accountKeys[i.programIdIndex]? = some programId →
      ∃ call, tx.depositCall programId i = some call)
    (heffects : List.Forall₂ (InstructionEffect address programId tx) instructions effects)
    (h : Execution Γ s effects.flatten s') :
    Adds s s' ((instructions.filterMap (tx.depositCall programId)).map (leafOf poseidon))
      ((instructions.filterMap (tx.depositCall programId)).map lamportsOf).sum := by
  induction heffects generalizing s with
  | nil =>
    obtain rfl := Run.eq_of_nil h
    exact Adds.refl s
  | @cons instruction actions instructions effects heffect _ ih =>
    rw [flatten_cons] at h
    obtain ⟨t, hfirst, hrest⟩ := Run.split h
    have hadds := (adds_of_effect hposeidon haddress (hdeposits instruction (mem_cons_self ..)) heffect hfirst).trans
      (ih (fun i hi => hdeposits i (mem_cons_of_mem _ hi)) hrest)
    have hcalls : (instruction :: instructions).filterMap (tx.depositCall programId) =
        (tx.depositCall programId instruction).toList ++ instructions.filterMap (tx.depositCall programId) := by
      cases hcall : tx.depositCall programId instruction with
      | none => rw [filterMap_cons_none hcall]; rfl
      | some call => rw [filterMap_cons_some hcall]; rfl
    rwa [hcalls, map_append, map_append, sum_append]

def callsOf (programId : Bytes32) (entry : FinalizedEntry) : List DepositCall :=
  if entry.transaction.error.isSome then [] else entry.transaction.executed.filterMap (entry.transaction.depositCall programId)

def eventOf (poseidon : List Fr → Fr) (entry : FinalizedEntry) (call : DepositCall) : DepositEvent :=
  buildEvent (signatureName entry.signature) entry.transaction.render ⟨call.data, call.depositor, call.assetId poseidon⟩

theorem adds_of_history (hdeposits : ∀ e ∈ entries, e.transaction.error = none → e.transaction.OnlyDeposits programId)
    (h : History Γ address programId s entries s') :
    Adds s s' ((entries.flatMap (callsOf programId)).map (leafOf poseidon))
      ((entries.flatMap (callsOf programId)).map lamportsOf).sum := by
  induction entries generalizing s with
  | nil =>
    obtain rfl := Run.eq_of_nil h
    exact Adds.refl s
  | cons entry entries ih =>
    obtain ⟨t, ⟨actions, heffect, hexec⟩, hrest⟩ := Run.first_step h
    have hentry : Adds s t ((callsOf programId entry).map (leafOf poseidon)) ((callsOf programId entry).map lamportsOf).sum := by
      unfold Effect at heffect
      unfold callsOf
      split at heffect
      · rename_i herror
        rw [if_pos herror]
        rw [heffect] at hexec
        obtain rfl := Run.eq_of_nil hexec
        exact Adds.refl s
      · rename_i herror
        rw [if_neg herror]
        obtain ⟨effects, heffects, rfl⟩ := heffect
        have honly := hdeposits entry (mem_cons_self ..) (Option.not_isSome_iff_eq_none.mp herror)
        refine adds_of_effects hposeidon haddress ?_ heffects hexec
        intro i hi hprogram
        obtain ⟨call, hcall, -⟩ := honly.calls i hi hprogram
        exact ⟨call, hcall⟩
    rw [flatMap_cons, map_append, map_append, sum_append]
    exact hentry.trans (ih (fun e he => hdeposits e (mem_cons_of_mem _ he)) hrest)

end Effects

theorem events_eq (hdeposits : entry.transaction.error = none → entry.transaction.OnlyDeposits programId) :
    entry.events poseidon programId = (callsOf programId entry).map (eventOf poseidon entry) := by
  unfold callsOf
  split
  · rename_i herror
    exact extractDepositEvents_of_error poseidon _ programId herror
  · rename_i herror
    have hnone := Option.not_isSome_iff_eq_none.mp herror
    have honly := hdeposits hnone
    have hevent : ∀ i ∈ entry.transaction.listed, entry.transaction.eventOf poseidon (signatureName entry.signature) programId i =
        (entry.transaction.depositCall programId i).map (eventOf poseidon entry) := by
      intro i hi
      by_cases hprogram : entry.transaction.accountKeys[i.programIdIndex]? = some programId
      · have hexecuted : i ∈ entry.transaction.executed := by
          rw [listed, mem_append, mem_map, mem_flatMap] at hi
          rcases hi with ⟨call, hcall, rfl⟩ | ⟨call, hcall, hinner⟩
          · exact mem_flatMap.mpr ⟨call, hcall, mem_cons_self ..⟩
          · exact mem_flatMap.mpr ⟨call, hcall, mem_cons_of_mem _ hinner⟩
        obtain ⟨call, hcall, hlen⟩ := honly.calls i hexecuted hprogram
        rw [FinalizedTransaction.eventOf, decodeCompiledDeposit_of_call poseidon hcall, if_pos hlen, hcall]
        rfl
      · rw [eventOf_of_other_program poseidon _ hprogram, depositCall, if_neg hprogram]
        rfl
    rw [FinalizedEntry.events, extractDepositEvents_render poseidon _ programId hnone, filterMap_congr hevent,
      ← map_filterMap, honly.order]

theorem commitments_eq {entries : List FinalizedEntry}
    (hdeposits : ∀ e ∈ entries, e.transaction.error = none → e.transaction.OnlyDeposits programId) :
    (entries.flatMap (·.events poseidon programId)).map (·.commitment poseidon) =
      (entries.flatMap (callsOf programId)).map (leafOf poseidon) := by
  rw [map_flatMap, map_flatMap]
  refine flatMap_congr fun e he => ?_
  rw [events_eq (hdeposits e he), map_map]
  rfl

end Deposits

/-! ## The pool -/

def assetTotal (asset : AssetId) (events : List DepositEvent) : Nat :=
  ((events.filter fun e => e.assetId = asset).map (·.amount.toNat)).sum

theorem assetTotal_append (asset : AssetId) (xs ys : List DepositEvent) :
    assetTotal asset (xs ++ ys) = assetTotal asset xs + assetTotal asset ys := by
  rw [assetTotal, filter_append, map_append, sum_append]
  rfl

theorem assetTotal_singleton (asset : AssetId) (event : DepositEvent) :
    assetTotal asset [event] = if event.assetId = asset then event.amount.toNat else 0 := by
  by_cases h : event.assetId = asset <;> simp [assetTotal, h]

/-- The pool has credited these events, in this order. -/
structure Holds (poseidon : List Fr → Fr) (node : OpenPool) (events : List DepositEvent) : Prop where
  leaves : node.pool.commitmentTree.leaves = events.map (·.commitment poseidon)
  deposited : ∀ c, c ∈ node.pool.deposited ↔ c ∈ node.pool.commitmentTree.leaves
  supply : ∀ asset, (node.pool.supplyOf asset).toNat = assetTotal asset events

section Processing

variable {noteCommitment : Note → Bytes32} {poseidon : List Fr → Fr} {node : OpenPool}

theorem creditCommitment_new {pool : ShieldedPool} {store : PrivacyStorage} {c : Bytes32} (note : Note) {amount : UInt64}
    {assetId : AssetId} (hnew : c ∉ pool.deposited) (hroom : pool.commitmentTree.leaves.length + 1 ≤ vecCapacity)
    (hfits : (pool.supplyOf assetId).toNat + amount.toNat < 2 ^ 64) :
    ∃ pool' store', pool.creditCommitment store true true c note amount assetId = some ⟨.returned (.ok c), pool', store'⟩ ∧
      pool'.commitmentTree.leaves = pool.commitmentTree.leaves ++ [c] ∧ pool'.deposited = insert c pool.deposited ∧
      pool'.supplies = pool.supplies.insert assetId (pool.supplyOf assetId + amount) := by
  have hpush : pool.commitmentTree.push [c] =
      some { pool.commitmentTree with leaves := pool.commitmentTree.leaves ++ [c], cachedRoot := none } := by
    rw [MerkleTree.push, extend, if_pos (by simpa using hroom)]
    rfl
  have hinsert : pool.commitmentTree.insert store true c = some ⟨.ok pool.commitmentTree.leaves.length,
      { pool.commitmentTree with leaves := pool.commitmentTree.leaves ++ [c], cachedRoot := none },
      { store with merkleTree := store.merkleTree.put (PrivacyStorage.leafKey pool.commitmentTree.leaves.length) c.toList }⟩ := by
    rw [MerkleTree.insert, PrivacyStorage.insertCommitment]
    simp only [PrivacyStorage.commit, if_true, hpush, Option.map_some]
  rw [ShieldedPool.creditCommitment, if_neg hnew, hinsert, Option.map_some]
  simp only
  rw [SupplyAux.creditSupply_eq (by exact hfits)]
  exact ⟨_, _, rfl, rfl, rfl, rfl⟩

theorem supplyOf_insert {pool pool' : ShieldedPool} (h : pool'.supplies = pool.supplies.insert assetId supply) :
    pool'.supplyOf asset = if asset = assetId then supply else pool.supplyOf asset := by
  rw [ShieldedPool.supplyOf, h, Table.lookup_insert_if]
  split
  · rfl
  · rfl

theorem processCall_credits (h : Holds poseidon node events) {event : DepositEvent} (hfee : event.fee = 0)
    (hnew : event.commitment poseidon ∉ events.map (·.commitment poseidon)) (hroom : events.length + 1 ≤ vecCapacity)
    (hfits : assetTotal event.assetId (events ++ [event]) < 2 ^ 64) (call : Nat) :
    ∃ node', processCall noteCommitment poseidon (fun _ => (true, true)) call event node = (true, node') ∧
      Holds poseidon node' (events ++ [event]) := by
  have hnotDeposited : event.commitment poseidon ∉ node.pool.deposited := by
    rwa [h.deposited, h.leaves]
  have hlength : node.pool.commitmentTree.leaves.length + 1 ≤ vecCapacity := by
    rwa [h.leaves, length_map]
  have hsum : (node.pool.supplyOf event.assetId).toNat + event.amount.toNat < 2 ^ 64 := by
    rwa [assetTotal_append, assetTotal_singleton, if_pos rfl, ← h.supply] at hfits
  obtain ⟨pool', store', hcredit, hleaves, hdeposited, hsupplies⟩ := @creditCommitment_new node.pool node.store
    (event.commitment poseidon) (DepositTx.newAsset noteCommitment event.sender.toList event.amount event.recipient
      event.randomness event.fee event.assetId).outputNote event.amount event.assetId hnotDeposited hlength hsum
  refine ⟨⟨pool', store'⟩, ?_, ?_, ?_, ?_⟩
  · simp only [processCall, processDeposit, DepositLeafAux.verify_newAsset hfee noteCommitment, Bool.true_eq_false, if_false,
      hcredit, Option.map_some]
  · rw [hleaves, h.leaves, map_append, map_singleton]
  · intro c
    rw [hdeposited, Finset.mem_insert, h.deposited, hleaves, mem_append, mem_singleton, or_comm]
  · intro asset
    rw [supplyOf_insert hsupplies, assetTotal_append, assetTotal_singleton, ← h.supply]
    by_cases hasset : asset = event.assetId
    · rw [if_pos hasset, if_pos hasset.symm, UInt64.toNat_add, Nat.mod_eq_of_lt hsum, hasset]
    · rw [if_neg hasset, if_neg (Ne.symm hasset), Nat.add_zero]

theorem processEvents_credits (more : List (DepositEvent × Nat)) (h : Holds poseidon node events)
    (hfees : ∀ e ∈ more, e.1.fee = 0) (hnodup : ((events ++ more.map Prod.fst).map (·.commitment poseidon)).Nodup)
    (hroom : (events ++ more.map Prod.fst).length ≤ vecCapacity)
    (hfits : ∀ asset, assetTotal asset (events ++ more.map Prod.fst) < 2 ^ 64) (call : Nat) :
    (∀ o ∈ (processEvents (processCall noteCommitment poseidon fun _ => (true, true)) call more node).1, o.2 = true) ∧
      Holds poseidon (processEvents (processCall noteCommitment poseidon fun _ => (true, true)) call more node).2
        (events ++ more.map Prod.fst) := by
  induction more generalizing call node events with
  | nil =>
    rw [map_nil, append_nil]
    exact ⟨fun o ho => absurd ho not_mem_nil, h⟩
  | cons event more ih =>
    rw [map_cons, append_cons] at hnodup hroom hfits ⊢
    have hnew : event.1.commitment poseidon ∉ events.map (·.commitment poseidon) := by
      rw [map_append, nodup_append] at hnodup
      have hfirst := hnodup.1
      rw [map_append, nodup_append] at hfirst
      exact fun hmem => hfirst.2.2 _ hmem _ (mem_singleton_self _) rfl
    have hlength : events.length + 1 ≤ vecCapacity := by
      rw [length_append, length_append, length_singleton] at hroom
      omega
    have hsum : assetTotal event.1.assetId (events ++ [event.1]) < 2 ^ 64 := by
      have hall := hfits event.1.assetId
      rw [assetTotal_append] at hall
      omega
    obtain ⟨node', hprocess, hholds⟩ := @processCall_credits noteCommitment poseidon node events h event.1
      (hfees event (mem_cons_self ..)) hnew hlength hsum call
    obtain ⟨hall, hrest⟩ := ih hholds (fun e he => hfees e (mem_cons_of_mem _ he)) hnodup hroom hfits (call + 1)
    rw [processEvents, hprocess]
    refine ⟨?_, hrest⟩
    intro o ho
    rcases mem_cons.mp ho with rfl | ho
    · rfl
    · exact hall o ho

end Processing

end MirrorAux

end Paraloom.OffChain
