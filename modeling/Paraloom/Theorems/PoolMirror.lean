import Paraloom.Lemmas.Mirror
import Paraloom.Theorems.ListenerCursor

/-!
# The pool and the tree of the chain

The listener credits deposits, the settlement path marks nullifiers as spent. What a settlement adds to the tree and takes out
of the vault reaches the pool on neither path. Without settlements the pool holds the leaves of the chain, if every deposit is
found, in order, is new and is credited at the first attempt.
-/

namespace Paraloom.OffChain

open MirrorAux ListenerAux List

/-- A history in which the program is only called for deposits that the decoder finds, no two of them with the same commitment,
and in which no token stands for SOL or is deposited in an amount that its supply does not hold. -/
structure DepositHistory (poseidon : List Fr → Fr) (programId : Bytes32) (finalized : List FinalizedEntry) : Prop where
  deposits : ∀ e ∈ finalized, e.transaction.error = none → e.transaction.OnlyDeposits programId
  tokens : ∀ e ∈ finalized, ∀ i ∈ e.transaction.executed, ∀ depositor mint tokenAccount data,
    e.transaction.depositCall programId i = some (.noteSpl depositor mint tokenAccount data) →
      PoseidonCircom.mintToAsset poseidon mint ≠ nativeSolAsset
  distinct : ((finalized.flatMap (·.events poseidon programId)).map (·.commitment poseidon)).Nodup
  amounts : ∀ asset, asset ≠ nativeSolAsset → assetTotal asset (finalized.flatMap (·.events poseidon programId)) < 2 ^ 64

/-- A step after which the history is one of deposits, and in which every write of the pool is acknowledged. -/
def MirrorSystem.Plain (poseidon : List Fr → Fr) (config : ListenerConfig) (s : MirrorSystem) : MirrorEvent → Prop
  | .finalize entries => DepositHistory poseidon config.programId (s.node.finalized ++ entries)
  | .poll p acknowledged => DepositHistory poseidon config.programId (s.node.finalized ++ p.arrivals) ∧
      acknowledged = fun _ => (true, true)
  | .settle .. => True

/-- The node carries a settlement through. -/
def MirrorEvent.IsSettle : MirrorEvent → Prop
  | .settle .. => True
  | _ => False

namespace PoolMirrorAux

variable {poseidon : List Fr → Fr}
  {config : ListenerConfig} {node : ListenerSystem OpenPool}

/-- The pool has credited the deposits of these entries, in the order of the list, and the cursor is at the last of them. -/
structure InOrder (poseidon : List Fr → Fr) (config : ListenerConfig) (node : ListenerSystem OpenPool)
    (done : List FinalizedEntry) : Prop where
  below : node.state.lastSignature = none ∧ done = [] ∨
    ∃ older last newer, node.finalized = older ++ last :: newer ∧ node.state.lastSignature = some last.signature ∧
      done.Sublist (older ++ [last])
  credited : ∀ key ∈ node.credited, ∃ e ∈ done, key.1 = signatureName e.signature
  holds : Holds poseidon node.pool (done.flatMap (·.events poseidon config.programId))

theorem InOrder.sublist (h : InOrder poseidon config node done) : done.Sublist node.finalized := by
  rcases h.below with ⟨-, rfl⟩ | ⟨older, last, newer, hlist, -, hsub⟩
  · exact nil_sublist _
  · rw [hlist, append_cons]
    exact hsub.trans (sublist_append_left _ _)

/-- What a poll looks at is above what is done. -/
theorem InOrder.scan (h : InOrder poseidon config node done) (hp : Answered node p) :
    ∃ base rest, node.atFirstPage p = base ++ rest ∧ done.Sublist base ∧ Scans config p.rpc node.state rest := by
  rcases h.below with ⟨hcursor, rfl⟩ | ⟨older, last, newer, hlist, hcursor, hsub⟩
  · refine ⟨_, _, (take_append_drop ((node.atFirstPage p).length - config.batchLimit) _).symm, nil_sublist _, ?_⟩
    intro signatures hscan
    rw [hcursor] at hscan
    exact scanPages_newest hp.truthful hscan
  · obtain ⟨k, hscan, -⟩ := @scan_above OpenPool config node p older newer last hlist hcursor hp
    refine ⟨older ++ [last] ++ (newer ++ p.arrivals.take (p.visible 0)).take k, _, ?_, hsub.trans (sublist_append_left _ _),
      hscan⟩
    rw [append_assoc, take_append_drop, ListenerSystem.atFirstPage, hlist]
    simp

theorem InOrder.grow {node' : ListenerSystem OpenPool} (h : InOrder poseidon config node done) {more : List FinalizedEntry}
    (hlist : node'.finalized = node.finalized ++ more) (hcursor : node'.state.lastSignature = node.state.lastSignature)
    (hcredited : node'.credited = node.credited) (hpool : node'.pool = node.pool) : InOrder poseidon config node' done := by
  refine ⟨?_, by rw [hcredited]; exact h.credited, by rw [hpool]; exact h.holds⟩
  rcases h.below with ⟨hnone, hdone⟩ | ⟨older, last, newer, hsplit, hlast, hsub⟩
  · exact .inl ⟨hcursor.trans hnone, hdone⟩
  · exact .inr ⟨older, last, newer ++ more, by rw [hlist, hsplit]; simp, hcursor.trans hlast, hsub⟩

/-- Deposits that a pool can credit one after the other. -/
structure Creditable (poseidon : List Fr → Fr) (events : List DepositEvent) : Prop where
  distinct : (events.map (·.commitment poseidon)).Nodup
  room : events.length ≤ vecCapacity
  fits : ∀ asset, assetTotal asset events < 2 ^ 64

theorem Creditable.sublist (h : Creditable poseidon ys) (hsub : xs.Sublist ys) : Creditable poseidon xs := by
  refine ⟨h.distinct.sublist (hsub.map _), hsub.length_le.trans h.room, fun asset => ?_⟩
  have hle : assetTotal asset xs ≤ assetTotal asset ys :=
    ((hsub.filter _).map _).sum_le_sum fun _ _ => Nat.zero_le _
  exact hle.trans_lt (h.fits asset)

theorem fee_of_mem_events {entry : FinalizedEntry} {programId : Bytes32} (h : event ∈ entry.events poseidon programId) :
    event.fee = 0 := by
  rw [FinalizedEntry.events] at h
  by_cases herror : entry.transaction.error = none
  · rw [extractDepositEvents_render _ _ _ herror, mem_filterMap] at h
    obtain ⟨i, -, hevent⟩ := h
    obtain ⟨decoded, -, rfl⟩ := Option.map_eq_some_iff.mp hevent
    rfl
  · rw [extractDepositEvents_of_error _ _ _ (Option.isSome_iff_ne_none.mpr herror)] at h
    cases h

theorem map_fst_depositsOf (entries : List FinalizedEntry) (programId : Bytes32) :
    (depositsOf poseidon programId entries).map Prod.fst = entries.flatMap (·.events poseidon programId) := by
  rw [depositsOf, map_flatMap]
  refine flatMap_congr fun e _ => ?_
  exact zipIdx_map_fst 0 _

section Poll

variable (h : InOrder poseidon config node done) (hp : Answered node p)
  (hprocess : p.process = processCall noteCommitment poseidon fun _ => (true, true))
  (hcreditable : Creditable poseidon ((node.finalized ++ p.arrivals).flatMap (·.events poseidon config.programId)))
include h hp hprocess hcreditable

/-- A poll in which no write fails: it ends with an error, or it credits what it has fetched, which is above what is done. -/
theorem InOrder.polled_cases : (∃ e, node.polled poseidon config p = ⟨.error e, [], node.state, node.pool⟩) ∨
      ∃ base rest outcomes pool, node.finalized ++ p.arrivals = base ++ rest ++ p.arrivals.drop (p.visible 0) ∧
        done.Sublist base ∧
        outcomes.map Prod.fst = depositsOf poseidon config.programId (fetchedOf node.state.seenSignatures rest) ∧
        (∀ o ∈ outcomes, o.2 = true) ∧
        Holds poseidon pool (done.flatMap (·.events poseidon config.programId) ++ (outcomes.map Prod.fst).map Prod.fst) ∧
        node.polled poseidon config p = ⟨.ok (outcomes.countP (·.2)), outcomes,
          moved config p.written node.state ((fetchedOf node.state.seenSignatures rest).map FinalizedEntry.signature) outcomes,
          pool⟩ := by
  obtain ⟨base, rest, hlog, hbase, hscan⟩ := h.scan hp
  have hlist : node.finalized ++ p.arrivals = base ++ rest ++ p.arrivals.drop (p.visible 0) := by
    rw [← hlog, ListenerSystem.atFirstPage, append_assoc, take_append_drop]
  have hrest : ∀ e ∈ rest, e ∈ node.finalized ++ p.arrivals := fun e he =>
    mem_atFirstPage (hlog ▸ mem_append_right base he)
  rcases @fetchEvents_cases OpenPool poseidon config node p hp.truthful rest hrest hscan true with ⟨e, herror⟩ | hfetch
  · exact .inl ⟨e, by rw [ListenerSystem.polled, pollEvents, herror]⟩
  · have hsub : (done ++ fetchedOf node.state.seenSignatures rest).Sublist (node.finalized ++ p.arrivals) := by
      rw [hlist]
      exact (hbase.append filter_sublist).trans (sublist_append_left _ _)
    have hcredit := hcreditable.sublist (hsub.flatMap (·.events poseidon config.programId))
    rw [flatMap_append, ← map_fst_depositsOf (fetchedOf node.state.seenSignatures rest)] at hcredit
    have hfees : ∀ e ∈ depositsOf poseidon config.programId (fetchedOf node.state.seenSignatures rest), e.1.fee = 0 := by
      intro e he
      obtain ⟨entry, -, hevent⟩ := mem_flatMap.mp he
      exact fee_of_mem_events (fst_mem_of_mem_zipIdx hevent)
    obtain ⟨hall, hholds⟩ := @processEvents_credits noteCommitment poseidon node.pool _ _ h.holds hfees hcredit.distinct
      hcredit.room hcredit.fits 0
    rw [← hprocess] at hall hholds
    have hmap := map_fst_processEvents p.process 0
      (depositsOf poseidon config.programId (fetchedOf node.state.seenSignatures rest)) node.pool
    refine .inr ⟨base, rest, _, _, hlist, hbase, hmap, hall, ?_, polled_of_fetch hfetch⟩
    rwa [hmap]

theorem InOrder.afterPoll : ∃ done', InOrder poseidon config (node.afterPoll poseidon config p) done' := by
  rcases h.polled_cases hp hprocess hcreditable with
    ⟨e, hpolled⟩ | ⟨base, rest, outcomes, pool, hlist, hbase, hmap, hall, hholds, hpolled⟩
  · refine ⟨done, @InOrder.grow _ _ _ _ (node.afterPoll poseidon config p) h _ rfl ?_ ?_ ?_⟩ <;>
      rw [ListenerSystem.afterPoll, hpolled]
    exact Finset.union_empty _
  · by_cases hnone : depositsOf poseidon config.programId (fetchedOf node.state.seenSignatures rest) = []
    · -- no deposit is found, so neither the cursor nor the pool moves
      obtain rfl : outcomes = [] := map_eq_nil_iff.mp (hmap.trans hnone)
      rw [map_nil, map_nil, append_nil] at hholds
      have hgrown := @InOrder.grow poseidon config { node with pool } done
        { node with finalized := node.finalized ++ p.arrivals, pool } ⟨h.below, h.credited, hholds⟩ _ rfl rfl rfl rfl
      refine ⟨done, ?_, ?_, ?_⟩ <;> rw [ListenerSystem.afterPoll, hpolled]
      · exact hgrown.below
      · intro key hkey
        exact h.credited key (by simpa [creditedBy] using hkey)
      · exact hholds
    · obtain ⟨older, e, newer, hfetched, hevents, htrim⟩ := depositsOf_trim hnone
      have hmap' := hmap.trans htrim
      have hcursor := cursor_last hmap' hall hevents
      obtain ⟨first, last, hsplit, hupTo⟩ := fetchedOf_upTo hfetched
      refine ⟨done ++ (older ++ [e]), .inr ⟨base ++ first, e, last ++ p.arrivals.drop (p.visible 0), ?_, ?_, ?_⟩, ?_, ?_⟩
      · change node.finalized ++ p.arrivals = _
        rw [hlist, hsplit]
        simp
      · rw [ListenerSystem.afterPoll, hpolled]
        simp only [moved, hcursor, PollerState.advanceCursor]
      · rw [append_assoc, ← hupTo]
        exact hbase.append filter_sublist
      · rw [ListenerSystem.afterPoll, hpolled]
        intro key hkey
        rcases Finset.mem_union.mp hkey with hold | hnew
        · obtain ⟨e', he', hname⟩ := h.credited key hold
          exact ⟨e', mem_append_left _ he', hname⟩
        · obtain ⟨o, ho, -, rfl⟩ := mem_creditedBy.mp hnew
          obtain ⟨e', he', hname⟩ := entry_of_outcome hmap' ho
          exact ⟨e', mem_append_right _ he', hname⟩
      · rw [ListenerSystem.afterPoll, hpolled, flatMap_append, ← map_fst_depositsOf (older ++ [e]), ← hmap']
        exact hholds

end Poll

/-! ## The history and the pool -/

theorem deposited_fits_of_history (hfits : s.totalDeposited ≤ Checked.u64Max)
    (h : History Γ address config.programId s entries s') : s'.totalDeposited ≤ Checked.u64Max := by
  refine h.invariant (P := fun t => t.totalDeposited ≤ Checked.u64Max) hfits ?_
  rintro t entry u ht ⟨actions, -, hexec⟩
  exact hexec.invariant (P := fun t => t.totalDeposited ≤ Checked.u64Max) ht fun _ _ _ ht' hstep =>
    WithdrawableAux.deposited_fits ht' hstep

theorem assetTotal_native (h : DepositHistory poseidon config.programId finalized) :
    assetTotal nativeSolAsset (finalized.flatMap (·.events poseidon config.programId)) =
      ((finalized.flatMap (callsOf config.programId)).map lamportsOf).sum := by
  have hdeposits := h.deposits
  have htokens := h.tokens
  clear h
  induction finalized with
  | nil => rfl
  | cons entry finalized ih =>
    have hcalls : ∀ calls : List DepositCall, (∀ call ∈ calls, call ∈ callsOf config.programId entry) →
        assetTotal nativeSolAsset (calls.map (eventOf poseidon entry)) = (calls.map lamportsOf).sum := by
      intro calls hcalls
      induction calls with
      | nil => rfl
      | cons call calls ihCalls =>
        have hrest := ihCalls fun c hc => hcalls c (mem_cons_of_mem _ hc)
        rw [map_cons, map_cons, sum_cons, ← singleton_append, assetTotal_append, hrest, assetTotal_singleton]
        congr 1
        cases hcall : call with
        | note depositor data => exact if_pos rfl
        | noteSpl depositor mint tokenAccount data =>
          refine if_neg ?_
          have hmem := hcalls call (mem_cons_self ..)
          unfold callsOf at hmem
          split at hmem
          · cases hmem
          · obtain ⟨i, hi, hread⟩ := mem_filterMap.mp hmem
            exact htokens entry (mem_cons_self ..) i hi depositor mint tokenAccount data (hread.trans (congrArg some hcall))
    rw [flatMap_cons, flatMap_cons, assetTotal_append, map_append, sum_append,
      events_eq (hdeposits entry (mem_cons_self ..)), hcalls _ fun _ hc => hc,
      ih (fun e he => hdeposits e (mem_cons_of_mem _ he)) fun e he => htokens e (mem_cons_of_mem _ he)]

/-- What the chain has taken, the pool can credit. -/
theorem creditable_of_history (hposeidon : Γ.PoseidonAgrees poseidon) (haddress : ∀ b, Γ.toBytes (address b) = b)
    (h : DepositHistory poseidon config.programId finalized) (hdeposited : s.totalDeposited = 0)
    (hhistory : History Γ address config.programId s finalized s') :
    Creditable poseidon (finalized.flatMap (·.events poseidon config.programId)) := by
  have hadds := adds_of_history hposeidon haddress h.deposits hhistory
  have hlength : (finalized.flatMap (·.events poseidon config.programId)).length =
      (finalized.flatMap (callsOf config.programId)).length := by
    have hmap := congrArg length (@commitments_eq config.programId poseidon finalized h.deposits)
    rwa [length_map, length_map] at hmap
  refine ⟨h.distinct, ?_, ?_⟩
  · have hcapacity : 2 ^ treeDepth ≤ vecCapacity := by decide
    have hindex := hadds.index
    rw [length_map] at hindex
    rcases hadds.room with hnil | hroom
    · rw [hlength, map_eq_nil_iff.mp hnil]
      exact Nat.zero_le _
    · omega
  · intro asset
    by_cases hnative : asset = nativeSolAsset
    · have htotal := deposited_fits_of_history (hdeposited ▸ Nat.zero_le _) hhistory
      rw [hadds.deposited, hdeposited, Nat.zero_add, Checked.u64Max] at htotal
      rw [hnative, assetTotal_native h]
      omega
    · exact h.amounts asset hnative

/-- Two pools with the same leaves and the same supplies. -/
structure SameNotes (a b : ShieldedPool) : Prop where
  commitmentTree : a.commitmentTree = b.commitmentTree
  deposited : a.deposited = b.deposited
  supplies : a.supplies = b.supplies

theorem SameNotes.trans (hab : SameNotes a b) (hbc : SameNotes b c) : SameNotes a c :=
  ⟨hab.commitmentTree.trans hbc.commitmentTree, hab.deposited.trans hbc.deposited, hab.supplies.trans hbc.supplies⟩

theorem insertNullifier_sameNotes (pool : ShieldedPool) (store : PrivacyStorage) (acknowledged : Bool) (nullifier : Bytes32) :
    SameNotes (pool.insertNullifier store acknowledged nullifier).2.1 pool := by
  unfold ShieldedPool.insertNullifier
  split
  · exact ⟨rfl, rfl, rfl⟩
  · split <;> exact ⟨rfl, rfl, rfl⟩

theorem recordSpent_sameNotes : SameNotes (pool.recordSpent store acknowledged nullifiers).1 pool := by
  have hfirst := insertNullifier_sameNotes pool store acknowledged.1 nullifiers.1
  have hsecond := insertNullifier_sameNotes (pool.insertNullifier store acknowledged.1 nullifiers.1).2.1
    (pool.insertNullifier store acknowledged.1 nullifiers.1).2.2 acknowledged.2 nullifiers.2
  exact hsecond.trans hfirst

/-- A settlement leaves the leaves and the supplies of the pool alone. -/
theorem settle_sameNotes (cosign : Bytes32 → Except String Transaction) (acknowledged : Bool × Bool)
    (approved : ApprovedTransact) (node : OpenPool) :
    SameNotes (settleTransactViaCosign bridge cosign acknowledged approved node).2.pool node.pool := by
  have hif : ∀ settled : Bool, SameNotes (if settled then
      (⟨(node.pool.recordSpent node.store acknowledged approved.request.nullifiers).1,
        (node.pool.recordSpent node.store acknowledged approved.request.nullifiers).2⟩ : OpenPool) else node).pool node.pool := by
    intro settled
    cases settled with
    | true => exact recordSpent_sameNotes
    | false => exact ⟨rfl, rfl, rfl⟩
  unfold settleTransactViaCosign
  split
  · exact ⟨rfl, rfl, rfl⟩
  · split
    · exact ⟨rfl, rfl, rfl⟩
    · split
      · exact ⟨rfl, rfl, rfl⟩
      · dsimp only
        split
        · exact hif true
        · exact hif _

theorem settlements_keep (hall : ∀ event ∈ events, event.IsSettle)
    (h : Run (MirrorStep Γ address noteCommitment poseidon config) s events s') :
    s'.chain = s.chain ∧ s'.node.finalized = s.node.finalized ∧ s'.node.credited = s.node.credited ∧
      SameNotes s'.node.pool.pool s.node.pool.pool := by
  refine h.invariant_of (P := fun t => t.chain = s.chain ∧ t.node.finalized = s.node.finalized ∧
    t.node.credited = s.node.credited ∧ SameNotes t.node.pool.pool s.node.pool.pool) hall ⟨rfl, rfl, rfl, rfl, rfl, rfl⟩ ?_
  rintro t event u hsettle ⟨hchain, hfinalized, hcredited, hsame⟩ hstep
  cases hstep with
  | finalize => cases hsettle
  | poll => cases hsettle
  | settle => exact ⟨hchain, hfinalized, hcredited, (settle_sameNotes _ _ _ _).trans hsame⟩

theorem SameNotes.holds (h : SameNotes a.pool b.pool) (hb : Holds poseidon b events) : Holds poseidon a events := by
  refine ⟨by rw [h.commitmentTree, hb.leaves], ?_, ?_⟩
  · intro c
    rw [h.deposited, h.commitmentTree]
    exact hb.deposited c
  · intro asset
    rw [ShieldedPool.supplyOf, h.supplies]
    exact hb.supply asset

/-- What a run of deposits keeps: the list is the history of the chain, and the pool is in order. -/
structure Synced (Γ : Ctx) (address : Bytes32 → Pubkey) (poseidon : List Fr → Fr) (config : ListenerConfig) (chain₀ : State)
    (s : MirrorSystem) : Prop where
  history : History Γ address config.programId chain₀ s.node.finalized s.chain
  deposits : DepositHistory poseidon config.programId s.node.finalized
  fresh : (s.node.finalized.map FinalizedEntry.signature).Nodup
  order : ∃ done, InOrder poseidon config s.node done

theorem synced_step (hposeidon : Γ.PoseidonAgrees poseidon) (haddress : ∀ b, Γ.toBytes (address b) = b)
    (hdeposited : chain₀.totalDeposited = 0) (h : Synced Γ address poseidon config chain₀ s)
    (hplain : s.Plain poseidon config event) (hstep : MirrorStep Γ address noteCommitment poseidon config s event s') :
    Synced Γ address poseidon config chain₀ s' := by
  obtain ⟨done, horder⟩ := h.order
  cases hstep with
  | finalize chain node =>
    have hhistory := h.history.trans chain
    obtain ⟨chain', node'⟩ := s'
    cases node with
    | finalize fresh => exact ⟨hhistory, hplain, fresh, done, horder.grow rfl rfl rfl rfl⟩
  | poll process chain node =>
    have hhistory := h.history.trans chain
    obtain ⟨chain', node'⟩ := s'
    obtain ⟨hdeposits, rfl⟩ := hplain
    cases node with
    | poll fresh truthful =>
      have hcreditable := creditable_of_history hposeidon haddress hdeposits hdeposited hhistory
      exact ⟨hhistory, hdeposits, fresh, horder.afterPoll ⟨truthful, fresh⟩ process hcreditable⟩
  | settle =>
    exact ⟨h.history, h.deposits, h.fresh, done, horder.below, horder.credited, (settle_sameNotes _ _ _ _).holds horder.holds⟩

theorem flatMap_of_sublist {xs ys : List FinalizedEntry} (hsub : xs.Sublist ys) (hnodup : ys.Nodup)
    (h : ∀ e ∈ ys, f e ≠ [] → e ∈ xs) : xs.flatMap f = ys.flatMap f := by
  induction hsub with
  | slnil => rfl
  | @cons xs ys e hsub ih =>
    obtain ⟨hnew, hnodup⟩ := nodup_cons.mp hnodup
    have hempty : f e = [] := by
      by_contra hne
      exact hnew (hsub.subset (h e (mem_cons_self ..) hne))
    rw [flatMap_cons, hempty, nil_append]
    exact ih hnodup fun e' he' => h e' (mem_cons_of_mem _ he')
  | @cons_cons xs ys e hsub ih =>
    obtain ⟨hnew, hnodup⟩ := nodup_cons.mp hnodup
    rw [flatMap_cons, flatMap_cons, ih hnodup]
    intro e' he' hne
    rcases mem_cons.mp (h e' (mem_cons_of_mem _ he') hne) with rfl | hmem
    · exact absurd he' hnew
    · exact hmem

/-- Once everything is observed the pool holds the deposits of the whole list. -/
theorem holds_of_observed {s : MirrorSystem} (hfresh : (s.node.finalized.map FinalizedEntry.signature).Nodup)
    (h : InOrder poseidon config s.node done) (hobserved : s.Observed poseidon config) :
    Holds poseidon s.node.pool (s.node.finalized.flatMap (·.events poseidon config.programId)) := by
  rw [← flatMap_of_sublist h.sublist (List.Nodup.of_map _ hfresh)]
  · exact h.holds
  · intro e he hevents
    obtain ⟨e', he', hname⟩ := h.credited _ (hobserved e he 0 (length_pos_iff.mpr hevents))
    have hsig := signatureName_injective hname
    rwa [inj_on_of_nodup_map hfresh he (h.sublist.subset he') hsig]

end PoolMirrorAux

/-- A node that starts with an empty pool next to a chain without leaves: in every run that only has deposits in its history,
each found by the decoder, in the order of the chain and with its own commitment, and in which no write fails, the pool mirrors
the chain once every transaction is observed and processed. -/
theorem pool_mirrors_chain (Γ : Ctx) (address : Bytes32 → Pubkey) (noteCommitment : Note → Bytes32) (poseidon : List Fr → Fr)
    (config : ListenerConfig) (hposeidon : Γ.PoseidonAgrees poseidon) (haddress : ∀ b, Γ.toBytes (address b) = b) (chain₀ : State)
    (hleaves : chain₀.leaves = []) (hdeposited : chain₀.totalDeposited = 0) (hwithdrawn : chain₀.totalWithdrawn = 0)
    (events : List MirrorEvent) (s : MirrorSystem)
    (hrun : Run (fun s event s' => s.Plain poseidon config event ∧
      MirrorStep Γ address noteCommitment poseidon config s event s')
      ⟨chain₀, ⟨[], .start config none, ⟨PoolProcess.start.pool, .empty⟩, ∅⟩⟩ events s)
    (hobserved : s.Observed poseidon config) : s.Mirrors := by
  have hstart : PoolMirrorAux.Synced Γ address poseidon config chain₀
      ⟨chain₀, ⟨[], .start config none, ⟨PoolProcess.start.pool, .empty⟩, ∅⟩⟩ := by
    refine ⟨.nil, ⟨by simp, by simp, nodup_nil, fun _ _ => Nat.two_pow_pos 64⟩, nodup_nil, [], ?_, ?_, ?_⟩
    · exact .inl ⟨by rw [PollerState.start, ite_self], rfl⟩
    · intro key hkey
      cases hkey
    · exact ⟨rfl, fun c => iff_of_false (Finset.notMem_empty c) not_mem_nil, fun asset => rfl⟩
  have hend : PoolMirrorAux.Synced Γ address poseidon config chain₀ s :=
    hrun.invariant hstart fun t event u ht hstep =>
      PoolMirrorAux.synced_step hposeidon haddress hdeposited ht hstep.1 hstep.2
  obtain ⟨done, horder⟩ := hend.order
  have hholds := PoolMirrorAux.holds_of_observed hend.fresh horder hobserved
  have hadds := adds_of_history hposeidon haddress hend.deposits.deposits hend.history
  constructor
  · rw [hholds.leaves, commitments_eq hend.deposits.deposits, hadds.leaves, hleaves, nil_append]
  · rw [hholds.supply, PoolMirrorAux.assetTotal_native hend.deposits, hadds.deposited, hadds.withdrawn, hdeposited, hwithdrawn]
    simp

/-- What becomes of a deposit in the pool does not depend on the earlier commitments of notes. -/
theorem processCall_noteCommitment (noteCommitment' : Note → Bytes32) (poseidon : List Fr → Fr)
    (acknowledged : Nat → Bool × Bool) :
    processCall noteCommitment poseidon acknowledged = processCall noteCommitment' poseidon acknowledged := by
  funext call event node
  simp [processCall, processDeposit, DepositTx.verify, DepositTx.newAsset]

namespace MirrorSample

open ListenerAux PoolMirrorAux
open DepositSample (poseidon call depositCall_eq)
open ListenerSample (deposit)

def config : ListenerConfig := ⟨CoSignSample.programId, signatureBatchLimit, true⟩

/-- The hashes of the run, and a proof system that accepts the honest statement. -/
def ctx : Ctx := { DepositSample.ctx with groth16 := Sample.idealCtx.groth16 }

/-- The addresses that the program derives for the accounts of the settlement. -/
def sdk : SolanaSdk := { CoSignSample.sdk with
  findProgramAddress seeds program :=
    match [([utf8 "nullifier", Sample.spend.nullifier0.toList],
        LittleEndian.vec 32 0xcc26d779eebff8854754492a662a4c72655c36a87b0d3f4b42550313d46656d5),
      ([utf8 "nullifier", Sample.spend.nullifier1.toList],
        LittleEndian.vec 32 0xdfae50a94c67b775cb3e653ced4663e68640e103dd87ec1bc15be325eed92b6f),
      ([utf8 "validator", Sample.operator.toList],
        LittleEndian.vec 32 0x5bc52dee8c7644743b3392f86dd767664f31d26d02a88fbf822fadbdac3d9b74),
      ([utf8 "validator", Sample.cosigner.toList],
        LittleEndian.vec 32 0xfe2bb36cb5d49cee69789ece82e17b4a332aac8b8306d7d9c330265bc52b999d)].lookup seeds with
    | some derived => derived
    | none => CoSignSample.sdk.findProgramAddress seeds program }

/-- The instruction that settles a withdrawal of 0.4 SOL from the deposited note. -/
def settlementInstruction : Sdk.Instruction Bytes32 :=
  createTransactInstruction sdk CoSignSample.programId Sample.operator (deriveBridgeVault sdk CoSignSample.programId)
    Sample.depositor (Sample.spend.nullifier0, Sample.spend.nullifier1)
    (Sample.spend.outCommitment0, Sample.spend.outCommitment1) Sample.spend.root Sample.spend.extAmount Sample.spend.proof
    [Sample.cosigner]

def settlement : FinalizedEntry where
  signature := ListenerSample.signature 1
  transaction := {
    slot := 17
    blockTime := some 0
    accountKeys := settlementInstruction.accounts.map (·.pubkey) ++ [settlementInstruction.programId]
    calls := [(⟨settlementInstruction.accounts.length, range settlementInstruction.accounts.length,
      settlementInstruction.data⟩, [])]
    error := none }

def settlementAction : Action := .program ⟨17, 0⟩ (.transact Sample.operator (.key Sample.depositor)
  [⟨.key Sample.cosigner, true⟩, ⟨.validator (.key Sample.cosigner), false⟩] Sample.spend)

def start : ListenerSystem OpenPool := ⟨[], .start config none, ⟨PoolProcess.start.pool, .empty⟩, ∅⟩

def poll (noteCommitment : Note → Bytes32) (finalized : List FinalizedEntry) : Poll OpenPool :=
  { (Poll.ofList finalized : Poll OpenPool) with
    process := processCall noteCommitment poseidon fun _ => (true, true) }

def polled (finalized : List FinalizedEntry) : ListenerSystem OpenPool :=
  { start with finalized }.afterPoll poseidon config (poll (fun _ => zero32) finalized)

theorem polled_step (hfresh : (finalized.map FinalizedEntry.signature).Nodup) :
    { start with finalized }.Step poseidon config (.poll (poll noteCommitment finalized)) (polled finalized) := by
  have hpoll : poll noteCommitment finalized = poll (fun _ => zero32) finalized := by
    rw [poll, processCall_noteCommitment fun _ => zero32]
    rfl
  rw [hpoll]
  exact .poll ((append_nil finalized).symm ▸ hfresh) (truthful_ofList hfresh)

/-- The poll observes everything, and the pool holds the deposits of the list. -/
theorem polled_holds (hfresh : (finalized.map FinalizedEntry.signature).Nodup)
    (hlength : finalized.length ≤ signatureBatchLimit)
    (hcreditable : Creditable poseidon (finalized.flatMap (·.events poseidon config.programId))) (chain : State) :
    (⟨chain, polled finalized⟩ : MirrorSystem).Observed poseidon config ∧
      Holds poseidon (polled finalized).pool (finalized.flatMap (·.events poseidon config.programId)) := by
  have hlist : finalized ++ [] = finalized := append_nil _
  have hsound : ListenerSystem.Sound poseidon config 0 { start with finalized } := by
    refine ⟨hfresh, ?_, ?_, ?_⟩
    · rintro c ⟨⟩
    · rintro c ⟨⟩
    · intro sig hsig
      cases hsig
  have horder : InOrder poseidon config { start with finalized } [] :=
    ⟨.inl ⟨rfl, rfl⟩, fun key hkey => absurd hkey (Finset.notMem_empty key),
      rfl, fun c => iff_of_false (Finset.notMem_empty c) not_mem_nil, fun asset => rfl⟩
  have hanswered : Answered { start with finalized } (poll (fun _ => zero32) finalized) :=
    ⟨truthful_ofList hfresh, hlist.symm ▸ hfresh⟩
  have hcreditable' : Creditable poseidon
      (({ start with finalized }.finalized ++ (poll (fun _ => zero32) finalized).arrivals).flatMap
        (·.events poseidon config.programId)) := hlist.symm ▸ hcreditable
  have hpage : { start with finalized }.atFirstPage (poll (fun _ => zero32) finalized) = finalized := hlist
  have hreach : ListenerSystem.InReach config 0 { start with finalized } finalized := by
    rw [ListenerSystem.InReach]
    exact hlength.trans (Nat.le_add_left _ 0)
  obtain ⟨done, hdone⟩ := horder.afterPoll hanswered rfl hcreditable'
  have hobserved : (⟨chain, polled finalized⟩ : MirrorSystem).Observed poseidon config := by
    obtain ⟨_, _, -, -, hfetch⟩ := fetchEvents_ofList hsound hreach true
    rcases horder.polled_cases hanswered rfl hcreditable' with
      ⟨e, hpolled⟩ | ⟨_, _, outcomes, pool, -, -, -, hall, -, hpolled⟩
    · have herror := congrArg PollReturn.result hpolled
      unfold ListenerSystem.polled pollEvents at herror
      split at herror
      · rename_i e' st hfetch'
        have hfetch'' := congrArg Prod.fst hfetch'
        cases hfetch.symm.trans hfetch''
      · cases herror
    · intro e he
      have hcredited := credited_afterPoll hsound hanswered (hpage.symm ▸ hreach)
        (congrArg PollReturn.result hpolled) (by rw [hpolled]; exact hall)
      exact hcredited e he
  refine ⟨hobserved, ?_⟩
  have hfinalized : (polled finalized).finalized = finalized := hlist
  have hholds := @holds_of_observed _ _ _ ⟨chain, polled finalized⟩ hanswered.fresh hdone hobserved
  dsimp only at hholds
  rwa [hfinalized] at hholds

theorem exists_history : ∃ chain₀ chain₁ chain₂, chain₀.leaves = [] ∧ chain₀.totalDeposited = 0 ∧ chain₀.totalWithdrawn = 0 ∧
    Step ctx chain₀ (.program ⟨16, 0⟩ (call.toInstruction .key)) chain₁ ∧
    Step ctx chain₁ settlementAction chain₂ ∧ chain₂.leaves.length = 3 ∧ chain₂.totalDeposited = 1000000000 ∧
    chain₂.totalWithdrawn = 400000000 := by
  have hsetup : succeedsWith ctx Sample.genesis DepositSample.actions (fun s =>
      s.leaves = [] ∧ s.totalDeposited = 0 ∧ s.totalWithdrawn = 0) = true := by decide +kernel
  have hall : succeedsWith ctx Sample.genesis (DepositSample.actions ++
      [.program ⟨16, 0⟩ (call.toInstruction .key)] ++ [settlementAction]) (fun s =>
      s.leaves.length = 3 ∧ s.totalDeposited = 1000000000 ∧ s.totalWithdrawn = 400000000) = true := by decide +kernel
  obtain ⟨chain₀, hrun₀, hcheck₀⟩ := exists_execution hsetup
  obtain ⟨chain₂, hrun₂, hcheck₂⟩ := exists_execution hall
  obtain ⟨chain₁, hrun₁, hsettle⟩ := hrun₂.last_step
  obtain ⟨chain, hrun, hdeposit⟩ := hrun₁.last_step
  obtain rfl := Execution.functional hrun hrun₀
  have hzero : chain.leaves = [] ∧ chain.totalDeposited = 0 ∧ chain.totalWithdrawn = 0 := of_decide_eq_true hcheck₀
  have hthree : chain₂.leaves.length = 3 ∧ chain₂.totalDeposited = 1000000000 ∧ chain₂.totalWithdrawn = 400000000 :=
    of_decide_eq_true hcheck₂
  exact ⟨chain, chain₁, chain₂, hzero.1, hzero.2.1, hzero.2.2, hdeposit, hsettle, hthree⟩

theorem deposit_step (n : Nat) (h : Step ctx chain (.program ⟨16, 0⟩ (call.toInstruction .key)) chain') :
    TransactionStep ctx .key CoSignSample.programId chain (deposit n) chain' :=
  ⟨_, ⟨_, .cons (.deposit depositCall_eq) .nil, rfl⟩, Run.nil.snoc h⟩

theorem settlement_step (h : Step ctx chain settlementAction chain') :
    TransactionStep ctx .key CoSignSample.programId chain settlement chain' := by
  refine ⟨_, ⟨_, .cons (.transact ?_ ?_) .nil, rfl⟩, Run.nil.snoc h⟩
  · decide +kernel
  · decide +kernel

theorem settlement_events : settlement.events poseidon config.programId = [] := by
  have hnone : ∀ i ∈ settlement.transaction.listed, settlement.transaction.eventOf poseidon
      (signatureName settlement.signature) config.programId i = none := by
    intro i hi
    obtain rfl := mem_singleton.mp hi
    refine eventOf_of_other_kind _ _ ?_
    have hkind : settlementInstruction.data.take 8 = transactDiscriminator := rfl
    rw [hkind]
    rfl
  rw [FinalizedEntry.events, extractDepositEvents_render _ _ _ rfl]
  exact filterMap_eq_nil_iff.mpr hnone

theorem onlyDeposits : (DepositSample.transaction []).OnlyDeposits CoSignSample.programId := by
  refine ⟨?_, rfl⟩
  intro i hi _
  obtain rfl := mem_singleton.mp hi
  exact ⟨_, depositCall_eq, by decide +kernel⟩

theorem deposit_events : (deposit n).events poseidon config.programId = [eventOf poseidon (deposit n) call] := by
  have hcalls : callsOf CoSignSample.programId (deposit n) = [call] :=
    (if_neg Bool.false_ne_true).trans (filterMap_cons_some depositCall_eq)
  have hevents : (deposit n).events poseidon CoSignSample.programId = _ :=
    events_eq fun _ => onlyDeposits
  rw [hcalls] at hevents
  exact hevents

theorem creditable_deposit : Creditable poseidon [eventOf poseidon (deposit n) call] := by
  refine ⟨nodup_singleton _, (by decide : 1 ≤ vecCapacity), ?_⟩
  intro asset
  rw [assetTotal_singleton]
  split
  · exact UInt64.toNat_lt _
  · exact Nat.two_pow_pos 64

theorem deposit_total : assetTotal nativeSolAsset [eventOf poseidon (deposit 0) call] = 1000000000 := by
  rw [assetTotal_singleton]
  decide +kernel

theorem events_singleton : [deposit 0].flatMap (·.events poseidon config.programId) = [eventOf poseidon (deposit 0) call] := by
  rw [flatMap_singleton, deposit_events]

theorem depositHistory : DepositHistory poseidon config.programId [deposit 0] := by
  refine ⟨?_, ?_, ?_, ?_⟩
  · intro e he _
    obtain rfl := mem_singleton.mp he
    exact onlyDeposits
  · intro e he i hi depositor mint tokenAccount data hcall
    obtain rfl := mem_singleton.mp he
    obtain rfl := mem_singleton.mp hi
    cases depositCall_eq.symm.trans hcall
  · rw [events_singleton]
    exact nodup_singleton _
  · intro asset hasset
    rw [events_singleton, assetTotal_singleton, if_neg fun h => hasset h.symm]
    exact Nat.two_pow_pos 64

theorem finalize_step (noteCommitment : Note → Bytes32) (hfresh : (finalized.map FinalizedEntry.signature).Nodup)
    (h : History ctx .key CoSignSample.programId chain finalized chain') :
    MirrorStep ctx .key noteCommitment poseidon config ⟨chain, start⟩ (.finalize finalized)
      ⟨chain', { start with finalized }⟩ :=
  .finalize h (.finalize hfresh)

theorem poll_step (noteCommitment : Note → Bytes32) (hfresh : (finalized.map FinalizedEntry.signature).Nodup) (chain : State) :
    MirrorStep ctx .key noteCommitment poseidon config ⟨chain, { start with finalized }⟩
      (.poll (poll noteCommitment finalized) fun _ => (true, true)) ⟨chain, polled finalized⟩ :=
  .poll rfl .nil (polled_step hfresh)

def depositAndSettlement : List FinalizedEntry := [deposit 0, settlement]

theorem fresh_both : (depositAndSettlement.map FinalizedEntry.signature).Nodup := by decide +kernel

theorem both_holds (chain : State) : (⟨chain, polled depositAndSettlement⟩ : MirrorSystem).Observed poseidon config ∧
      Holds poseidon (polled depositAndSettlement).pool [eventOf poseidon (deposit 0) call] := by
  have hevents : depositAndSettlement.flatMap (·.events poseidon config.programId) = [eventOf poseidon (deposit 0) call] := by
    rw [depositAndSettlement, flatMap_cons, flatMap_singleton, deposit_events, settlement_events, append_nil]
  have hholds := polled_holds fresh_both (Nat.le_add_left 2 998) (hevents ▸ creditable_deposit) chain
  rwa [hevents] at hholds

end MirrorSample

open MirrorSample
open DepositSample (poseidon)
open ListenerSample (deposit)

/-- A deposit of one SOL and a poll: the pool has the leaf and the supply. -/
theorem pool_mirrors_chain_one_deposit : ∃ chain₀ chain₁, chain₀.leaves = [] ∧
      Run (fun s event s' => s.Plain DepositSample.poseidon MirrorSample.config event ∧
        MirrorStep MirrorSample.ctx .key (fun _ => zero32) DepositSample.poseidon MirrorSample.config s event s')
        ⟨chain₀, MirrorSample.start⟩ [.finalize [ListenerSample.deposit 0],
          .poll (MirrorSample.poll (fun _ => zero32) [ListenerSample.deposit 0]) fun _ => (true, true)]
        ⟨chain₁, MirrorSample.polled [ListenerSample.deposit 0]⟩ ∧
      (⟨chain₁, MirrorSample.polled [ListenerSample.deposit 0]⟩ : MirrorSystem).Mirrors := by
  obtain ⟨chain₀, chain₁, -, hleaves, hdeposited, hwithdrawn, hdeposit, -⟩ := exists_history
  have hfresh : ([deposit 0].map FinalizedEntry.signature).Nodup := nodup_singleton _
  have hfinalize := finalize_step (fun _ => zero32) hfresh (Run.nil.snoc (deposit_step 0 hdeposit))
  have hpoll := poll_step (fun _ => zero32) hfresh chain₁
  have hrun : Run (fun s event s' => s.Plain poseidon config event ∧
      MirrorStep ctx .key (fun _ => zero32) poseidon config s event s')
      ⟨chain₀, start⟩ [.finalize [deposit 0], .poll (poll (fun _ => zero32) [deposit 0]) fun _ => (true, true)]
      ⟨chain₁, polled [deposit 0]⟩ := by
    refine Run.snoc (Run.nil.snoc ⟨?_, hfinalize⟩) ⟨⟨?_, rfl⟩, hpoll⟩
    · exact depositHistory
    · exact depositHistory
  obtain ⟨hobserved, -⟩ := polled_holds hfresh (Nat.le_add_left 1 999) (events_singleton ▸ creditable_deposit) chain₁
  refine ⟨chain₀, chain₁, hleaves, hrun, ?_⟩
  exact pool_mirrors_chain ctx .key (fun _ => zero32) poseidon config
    DepositSample.poseidonAgrees (fun _ => rfl) chain₀ hleaves hdeposited hwithdrawn _ _ hrun hobserved

/-- The deposit and a settlement that pays 0.4 SOL out and has two new notes. The listener has processed both, and however often the
node then carries settlements through, the chain has three leaves and 0.6 SOL, and the pool one leaf and one SOL. -/
theorem pool_misses_settlement : ∃ chain₀ chain₂, chain₀.leaves = [] ∧ chain₀.totalDeposited = 0 ∧ chain₀.totalWithdrawn = 0 ∧
      ∀ noteCommitment, Run (MirrorStep MirrorSample.ctx .key noteCommitment DepositSample.poseidon MirrorSample.config)
          ⟨chain₀, MirrorSample.start⟩ [.finalize MirrorSample.depositAndSettlement,
            .poll (MirrorSample.poll noteCommitment MirrorSample.depositAndSettlement) fun _ => (true, true)]
          ⟨chain₂, MirrorSample.polled MirrorSample.depositAndSettlement⟩ ∧
        ∀ settlements s, (∀ event ∈ settlements, event.IsSettle) →
          Run (MirrorStep MirrorSample.ctx .key noteCommitment DepositSample.poseidon MirrorSample.config)
            ⟨chain₂, MirrorSample.polled MirrorSample.depositAndSettlement⟩ settlements s →
          s.Observed DepositSample.poseidon MirrorSample.config ∧
          s.chain.leaves.length = 3 ∧ s.node.pool.pool.commitmentTree.leaves.length = 1 ∧
          s.chain.totalDeposited - s.chain.totalWithdrawn = 600000000 ∧
          (s.node.pool.pool.supplyOf nativeSolAsset).toNat = 1000000000 ∧ ¬s.Mirrors := by
  obtain ⟨chain₀, chain₁, chain₂, hleaves, hdeposited, hwithdrawn, hdeposit, hsettle, hthree, htotal, hpaid⟩ :=
    exists_history
  have hhistory := (Run.nil.snoc (deposit_step 0 hdeposit)).snoc (settlement_step hsettle)
  refine ⟨chain₀, chain₂, hleaves, hdeposited, hwithdrawn, fun noteCommitment => ⟨?_, ?_⟩⟩
  · exact (Run.nil.snoc (finalize_step noteCommitment fresh_both hhistory)).snoc (poll_step noteCommitment fresh_both chain₂)
  · intro settlements s hall hrun
    obtain ⟨hchain, hfinalized, hcredited, hsame⟩ := PoolMirrorAux.settlements_keep hall hrun
    obtain ⟨hobserved, hholds⟩ := both_holds chain₂
    have hnow := hsame.holds hholds
    have hone : s.node.pool.pool.commitmentTree.leaves.length = 1 := by
      rw [hnow.leaves]
      rfl
    have hsupply : (s.node.pool.pool.supplyOf nativeSolAsset).toNat = 1000000000 :=
      (hnow.supply nativeSolAsset).trans deposit_total
    refine ⟨?_, by rw [hchain, hthree], hone, by rw [hchain, htotal, hpaid], hsupply, ?_⟩
    · intro entry hentry
      rw [hfinalized] at hentry
      intro n hn
      rw [hcredited]
      exact hobserved entry hentry n hn
    · intro hmirrors
      have hlength := congrArg length hmirrors.leaves
      rw [hone, hchain, hthree] at hlength
      cases hlength

end Paraloom.OffChain
