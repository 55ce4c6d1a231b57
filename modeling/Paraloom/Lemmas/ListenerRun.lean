import Paraloom.Lemmas.Listener

/-!
# What every run of the listener keeps

The cursor, the file and the seen set only hold signatures whose deposits are credited, and the list is credited up to the
cursor, from some entry on. A poll keeps this if its pages reach down to the cursor, or to that entry if there is no cursor.
-/

namespace Paraloom.OffChain

open List PollerState

namespace ListenerSystem

variable {π : Type} (poseidon : List Fr → Fr) (config : ListenerConfig)

/-- The signature is in the list, and the entries up to it are credited, except for the first ones. -/
def CreditedUpTo (skipped : Nat) (s : ListenerSystem π) (c : Signature) : Prop :=
  ∃ older entry newer, s.finalized = older ++ entry :: newer ∧ entry.signature = c ∧
    ∀ e ∈ (older ++ [entry]).drop skipped, s.EntryCredited poseidon config e

/-- What every run keeps. -/
structure Sound (skipped : Nat) (s : ListenerSystem π) : Prop where
  fresh : (s.finalized.map FinalizedEntry.signature).Nodup
  cursor : ∀ c ∈ s.state.lastSignature, s.CreditedUpTo poseidon config skipped c
  file : ∀ c ∈ s.state.cursorFile, s.CreditedUpTo poseidon config skipped c
  seen : ∀ sig ∈ s.state.seenSignatures, ∃ e ∈ s.finalized, e.signature = sig ∧ s.EntryCredited poseidon config e

/-- The entries above the cursor fit into the pages of a poll; without a cursor, those that count fit into one page. -/
def InReach (skipped : Nat) (s : ListenerSystem π) (log : List FinalizedEntry) : Prop :=
  match s.state.lastSignature with
  | some c => (Paging.newerThan FinalizedEntry.signature (some c) log).length ≤ maxSignaturePages * config.batchLimit
  | none => log.length ≤ skipped + config.batchLimit

end ListenerSystem

namespace ListenerAux

variable {π : Type} {poseidon : List Fr → Fr} {config : ListenerConfig} {s s' : ListenerSystem π} {skipped : Nat}
  {p : Poll π}

theorem entryCredited_mono (hcredited : s.credited ⊆ s'.credited) (h : s.EntryCredited poseidon config e) :
    s'.EntryCredited poseidon config e :=
  fun i hi => hcredited (h i hi)

theorem creditedUpTo_mono (hlist : s'.finalized = s.finalized ++ more) (hcredited : s.credited ⊆ s'.credited)
    (h : s.CreditedUpTo poseidon config skipped c) : s'.CreditedUpTo poseidon config skipped c := by
  obtain ⟨older, entry, newer, hsplit, hsig, hentries⟩ := h
  refine ⟨older, entry, newer ++ more, by rw [hlist, hsplit]; simp, hsig, ?_⟩
  intro e he
  exact entryCredited_mono hcredited (hentries e he)

/-- A step that leaves the listener alone, or restarts it, keeps everything. -/
theorem sound_mono (h : s.Sound poseidon config skipped) (hlist : s'.finalized = s.finalized ++ more)
    (hfresh : (s'.finalized.map FinalizedEntry.signature).Nodup) (hcredited : s.credited ⊆ s'.credited)
    (hcursor : ∀ c ∈ s'.state.lastSignature, c ∈ s.state.lastSignature ∨ c ∈ s.state.cursorFile)
    (hfile : s'.state.cursorFile = s.state.cursorFile) (hseen : s'.state.seenSignatures ⊆ s.state.seenSignatures) :
    s'.Sound poseidon config skipped := by
  refine ⟨hfresh, ?_, ?_, ?_⟩
  · intro c hc
    rcases hcursor c hc with hc | hc
    · exact creditedUpTo_mono hlist hcredited (h.cursor c hc)
    · exact creditedUpTo_mono hlist hcredited (h.file c hc)
  · intro c hc
    rw [hfile] at hc
    exact creditedUpTo_mono hlist hcredited (h.file c hc)
  · intro sig hsig
    obtain ⟨e, he, hesig, hcred⟩ := h.seen sig (hseen hsig)
    exact ⟨e, by rw [hlist]; exact mem_append_left _ he, hesig, entryCredited_mono hcredited hcred⟩

theorem mem_start (h : c ∈ (start config file).lastSignature) : c ∈ file := by
  unfold start at h
  split at h
  · exact h
  · cases h

/-- What a poll may rely on: the RPC is truthful, and every transaction of the list has its own signature. -/
structure Answered (s : ListenerSystem π) (p : Poll π) : Prop where
  truthful : p.rpc.Truthful s.finalized p.arrivals p.visible
  fresh : ((s.finalized ++ p.arrivals).map FinalizedEntry.signature).Nodup

/-- A scan that succeeds returns these entries. -/
def Scans (config : ListenerConfig) (rpc : ListenerRpc) (st : PollerState) (rest : List FinalizedEntry) : Prop :=
  ∀ signatures, scanPages rpc config.batchLimit st.lastSignature maxSignaturePages 0 none = .ok signatures →
    signatures = rest.reverse.map FinalizedEntry.status

/-- A poll with a cursor only looks at what is above it, the newest part of it or all of it. -/
theorem scan_above {older newer : List FinalizedEntry} {last : FinalizedEntry} (hlist : s.finalized = older ++ last :: newer)
    (hcursor : s.state.lastSignature = some last.signature) (hp : Answered s p) :
    ∃ k, Scans config p.rpc s.state ((newer ++ p.arrivals.take (p.visible 0)).drop k) ∧
      ((newer ++ p.arrivals.take (p.visible 0)).length ≤ maxSignaturePages * config.batchLimit → k = 0) := by
  unfold Scans
  rw [hcursor]
  cases hscan : scanPages p.rpc config.batchLimit (some last.signature) maxSignaturePages 0 none with
  | error e =>
    refine ⟨0, ?_, fun _ => rfl⟩
    intro signatures h
    cases h
  | ok signatures =>
    have hlog : s.finalized ++ p.arrivals.take (p.visible 0) = older ++ last :: (newer ++ p.arrivals.take (p.visible 0)) := by
      rw [hlist]
      simp
    obtain ⟨k, -, hsignatures, hall⟩ := scanPages_above hp.truthful hp.fresh hlog hscan
    refine ⟨k, ?_, hall⟩
    intro signatures' h
    rw [← Except.ok.inj h, hsignatures]

/-- What the scan of a poll returns: a part of the list above entries that are credited. -/
theorem scan_covers (h : s.Sound poseidon config skipped) (hp : Answered s p)
    (hreach : s.InReach config skipped (s.atFirstPage p)) :
    ∃ base rest, s.atFirstPage p = base ++ rest ∧ (∀ e ∈ base.drop skipped, s.EntryCredited poseidon config e) ∧
      Scans config p.rpc s.state rest := by
  unfold ListenerSystem.InReach at hreach
  cases hcursor : s.state.lastSignature with
  | none =>
    rw [hcursor] at hreach
    refine ⟨_, _, (take_append_drop ((s.atFirstPage p).length - config.batchLimit) _).symm, ?_, ?_⟩
    · intro e he
      rw [drop_eq_nil_of_le (by rw [length_take]; omega)] at he
      cases he
    · intro signatures hscan
      rw [hcursor] at hscan
      exact scanPages_newest hp.truthful hscan
  | some c =>
    rw [hcursor] at hreach
    obtain ⟨older, entry, newer, hsplit, rfl, hentries⟩ := h.cursor c hcursor
    have hlog : s.atFirstPage p = older ++ entry :: (newer ++ p.arrivals.take (p.visible 0)) := by
      rw [ListenerSystem.atFirstPage, hsplit]
      simp
    have hnew : entry.signature ∉ older.map FinalizedEntry.signature := by
      have hnodup := h.fresh
      rw [hsplit, map_append, map_cons, nodup_append] at hnodup
      exact fun hmem => hnodup.2.2 _ hmem _ (mem_cons_self ..) rfl
    simp only [hlog, Paging.newerThan_split hnew] at hreach
    obtain ⟨k, hscan, hall⟩ := @scan_above π config s p older newer entry hsplit hcursor hp
    obtain rfl := hall hreach
    refine ⟨older ++ [entry], newer ++ p.arrivals.take (p.visible 0), by rw [hlog]; simp, hentries, ?_⟩
    rwa [drop_zero] at hscan

def moved (config : ListenerConfig) (written : Bool) (st : PollerState) (sigs : List Signature)
    (outcomes : List ((DepositEvent × Nat) × Bool)) : PollerState :=
  let advance := contiguousCursor (sigOutcomes outcomes)
  let st := { st with seenSignatures := sigs.foldl markSeen st.seenSignatures \ advance.2.toFinset }
  match advance.1 with
  | some sig => st.advanceCursor config written sig
  | none => st

/-- The listener after it has fetched these entries. -/
def afterFetch (st : PollerState) (rest : List FinalizedEntry) : PollerState :=
  { st with seenSignatures :=
    ((fetchedOf st.seenSignatures rest).map FinalizedEntry.signature).foldl markSeen st.seenSignatures }

theorem fetchEvents_cases (htruthful : p.rpc.Truthful s.finalized p.arrivals p.visible) {rest : List FinalizedEntry}
    (hrest : ∀ e ∈ rest, e ∈ s.finalized ++ p.arrivals) (hscan : Scans config p.rpc s.state rest) (removed : Bool) :
    (∃ e, fetchEvents poseidon config p.rpc removed s.state = (.error e, s.state)) ∨
      fetchEvents poseidon config p.rpc removed s.state =
        (.ok (depositsOf poseidon config.programId (fetchedOf s.state.seenSignatures rest)), afterFetch s.state rest) := by
  unfold fetchEvents scanSignatures
  cases hpages : scanPages p.rpc config.batchLimit s.state.lastSignature maxSignaturePages 0 none with
  | error e =>
    obtain ⟨e, calls⟩ := e
    simp [scanPages_error htruthful hpages]
  | ok signatures =>
    obtain rfl := hscan signatures hpages
    simp only [toFetch_status]
    cases hfetch : fetchTransactions poseidon config p.rpc 0
        ((fetchedOf s.state.seenSignatures rest).map FinalizedEntry.signature) with
    | error e => exact .inl ⟨e, rfl⟩
    | ok events =>
      right
      obtain rfl := fetchTransactions_ok htruthful (fun e he => hrest e (mem_of_mem_filter he)) hfetch
      rfl

/-! ## A poll -/

theorem polled_of_fetch {events : List (DepositEvent × Nat)} {rest : List FinalizedEntry}
    (hfetch : fetchEvents poseidon config p.rpc true s.state = (.ok events, afterFetch s.state rest)) :
    s.polled poseidon config p =
      ⟨.ok ((processEvents p.process 0 events s.pool).1.countP (·.2)), (processEvents p.process 0 events s.pool).1,
        moved config p.written s.state ((fetchedOf s.state.seenSignatures rest).map FinalizedEntry.signature)
          (processEvents p.process 0 events s.pool).1, (processEvents p.process 0 events s.pool).2⟩ := by
  rw [ListenerSystem.polled, pollEvents, hfetch]
  rfl

theorem polled_cases (htruthful : p.rpc.Truthful s.finalized p.arrivals p.visible) {rest : List FinalizedEntry}
    (hrest : ∀ e ∈ rest, e ∈ s.finalized ++ p.arrivals) (hscan : Scans config p.rpc s.state rest) :
    (∃ e, s.polled poseidon config p = ⟨.error e, [], s.state, s.pool⟩) ∨
      ∃ outcomes pool, outcomes.map Prod.fst = depositsOf poseidon config.programId (fetchedOf s.state.seenSignatures rest) ∧
        s.polled poseidon config p = ⟨.ok (outcomes.countP (·.2)), outcomes,
          moved config p.written s.state ((fetchedOf s.state.seenSignatures rest).map FinalizedEntry.signature) outcomes,
          pool⟩ := by
  rcases @fetchEvents_cases π poseidon config s p htruthful rest hrest hscan true with ⟨e, hfetch⟩ | hfetch
  · exact .inl ⟨e, by rw [ListenerSystem.polled, pollEvents, hfetch]⟩
  · exact .inr ⟨_, _, map_fst_processEvents .., polled_of_fetch hfetch⟩

theorem processEvents_of_success {process : Nat → DepositEvent → π → Bool × π}
    (h : ∀ call event pool, (process call event pool).1 = true) (call : Nat) (events : List (DepositEvent × Nat)) (pool : π) :
    ∀ o ∈ (processEvents process call events pool).1, o.2 = true := by
  induction events generalizing call pool with
  | nil => simp [processEvents]
  | cons event events ih =>
    intro o ho
    rcases mem_cons.mp ho with rfl | ho
    · exact h call event.1 pool
    · exact ih (call + 1) _ o ho

theorem mem_creditedBy : key ∈ creditedBy outcomes ↔ ∃ o ∈ outcomes, o.2 = true ∧ (o.1.1.signature, o.1.2) = key := by
  simp only [creditedBy, mem_toFinset, mem_map, mem_filter, and_assoc]

theorem credited_of_clean (hmap : outcomes.map Prod.fst = depositsOf poseidon config.programId entries)
    (hcredited : creditedBy outcomes ⊆ s.credited) (he : e ∈ entries) (hclean : Clean outcomes e.signature) :
    s.EntryCredited poseidon config e := by
  intro i hi
  have hevent : ((e.events poseidon config.programId)[i], i) ∈ depositsOf poseidon config.programId entries :=
    mem_flatMap.mpr ⟨e, he, mk_mem_zipIdx_iff_getElem?.mpr (getElem?_eq_getElem hi)⟩
  rw [← hmap, mem_map] at hevent
  obtain ⟨o, ho, hfst⟩ := hevent
  have hsig : o.1.1.signature = signatureName e.signature := by
    rw [hfst]
    exact signature_of_mem_events (getElem_mem hi)
  exact hcredited (mem_creditedBy.mpr ⟨o, ho, hclean o ho hsig, by rw [hsig, hfst]⟩)

theorem credited_of_fetched (h : s.Sound poseidon config skipped) (hcredited : s.credited ⊆ s'.credited)
    {log rest : List FinalizedEntry} (hlog : (log.map FinalizedEntry.signature).Nodup) (hsub : ∀ e ∈ s.finalized, e ∈ log)
    (hrest : ∀ e ∈ rest, e ∈ log)
    (hfetched : ∀ e ∈ fetchedOf s.state.seenSignatures rest, s'.EntryCredited poseidon config e) :
    ∀ e ∈ rest, s'.EntryCredited poseidon config e := by
  intro e he
  by_cases herror : e.transaction.error = none
  · by_cases hseen : e.signature ∈ s.state.seenSignatures
    · obtain ⟨e', he', hsig, hcred⟩ := h.seen _ hseen
      obtain rfl := inj_on_of_nodup_map hlog (hsub e' he') (hrest e he) hsig
      exact entryCredited_mono hcredited hcred
    · exact hfetched e (mem_filter.mpr ⟨he, by simp [herror, hseen]⟩)
  · -- a failed transaction has no deposits
    intro i hi
    rw [events_of_error herror] at hi
    exact absurd hi (Nat.not_lt_zero i)

theorem mem_foldl_markSeen {sigs : List Signature} (h : sig ∈ sigs.foldl markSeen seen) : sig ∈ seen ∨ sig ∈ sigs := by
  induction sigs generalizing seen with
  | nil => exact .inl h
  | cons first sigs ih =>
    rcases ih h with hseen | hmem
    · rw [markSeen, Finset.mem_insert] at hseen
      rcases hseen with rfl | hseen
      · exact .inr (mem_cons_self ..)
      · split at hseen
        · cases hseen
        · exact .inl hseen
    · exact .inr (mem_cons_of_mem _ hmem)

section Moved

variable {c : Signature}

theorem moved_cursor (h : c ∈ (moved config written st sigs outcomes).lastSignature) :
    (contiguousCursor (sigOutcomes outcomes)).1 = some c ∨ c ∈ st.lastSignature := by
  unfold moved at h
  cases hcursor : (contiguousCursor (sigOutcomes outcomes)).1 with
  | none => exact .inr (by simpa [hcursor] using h)
  | some c' => exact .inl (by simpa [hcursor, advanceCursor] using h)

theorem moved_file (h : c ∈ (moved config written st sigs outcomes).cursorFile) :
    (contiguousCursor (sigOutcomes outcomes)).1 = some c ∨ c ∈ st.cursorFile := by
  unfold moved at h
  cases hcursor : (contiguousCursor (sigOutcomes outcomes)).1 with
  | none => exact .inr (by simpa [hcursor] using h)
  | some c' =>
    simp only [hcursor, advanceCursor] at h
    split at h
    · exact .inl h
    · exact .inr h

theorem moved_seen (h : c ∈ (moved config written st sigs outcomes).seenSignatures) :
    c ∈ st.seenSignatures ∨ c ∈ sigs ∧ Clean outcomes c := by
  have hseen : c ∈ sigs.foldl markSeen st.seenSignatures \ (contiguousCursor (sigOutcomes outcomes)).2.toFinset := by
    unfold moved at h
    cases hcursor : (contiguousCursor (sigOutcomes outcomes)).1 <;>
      simpa only [hcursor, advanceCursor] using h
  rw [Finset.mem_sdiff, contiguousCursor_eq] at hseen
  rcases mem_foldl_markSeen hseen.1 with hold | hmem
  · exact .inl hold
  · exact .inr ⟨hmem, not_mem_failedSigs_iff.mp hseen.2⟩

end Moved

theorem fetchedOf_upTo (h : fetchedOf seen rest = older ++ entry :: newer) :
    ∃ first last, rest = first ++ entry :: last ∧ fetchedOf seen (first ++ [entry]) = older ++ [entry] := by
  obtain ⟨first, second, rfl, hfirst, hsecond⟩ := filter_eq_append_iff.mp h
  obtain ⟨between, last, rfl, hbetween, hentry, -⟩ := filter_eq_cons_iff.mp hsecond
  refine ⟨first ++ between, last, by simp, ?_⟩
  rw [fetchedOf, filter_append, filter_append, hfirst, filter_eq_nil_iff.mpr hbetween, append_nil,
    filter_singleton, hentry, cond_true]

theorem cursor_split (hmap : outcomes.map Prod.fst = depositsOf poseidon config.programId (fetchedOf seen rest))
    (hnodup : (rest.map FinalizedEntry.signature).Nodup) (hcursor : (contiguousCursor (sigOutcomes outcomes)).1 = some c) :
    ∃ older entry newer, rest = older ++ entry :: newer ∧ entry.signature = c ∧
      ∀ e ∈ fetchedOf seen (older ++ [entry]), e ∈ fetchedOf seen rest ∧ Clean outcomes e.signature := by
  have hfetched : ((fetchedOf seen rest).map FinalizedEntry.signature).Nodup :=
    hnodup.sublist (filter_sublist.map _)
  obtain ⟨older, entry, newer, hsplit, hsig, hclean⟩ := cursor_clean hmap hfetched hcursor
  obtain ⟨first, last, hrest, hupTo⟩ := fetchedOf_upTo hsplit
  refine ⟨first, entry, last, hrest, hsig, ?_⟩
  intro e he
  rw [hupTo] at he
  refine ⟨?_, hclean e he⟩
  rw [hsplit, append_cons]
  exact mem_append_left _ he

theorem mem_atFirstPage (he : e ∈ s.atFirstPage p) : e ∈ s.finalized ++ p.arrivals := by
  rcases mem_append.mp he with he | he
  · exact mem_append_left _ he
  · exact mem_append_right _ (mem_of_mem_take he)

structure Processed (poseidon : List Fr → Fr) (config : ListenerConfig) (skipped : Nat) (s : ListenerSystem π) (p : Poll π)
    (base rest : List FinalizedEntry) (outcomes : List ((DepositEvent × Nat) × Bool)) (pool : π) : Prop where
  log : s.atFirstPage p = base ++ rest
  base : ∀ e ∈ base.drop skipped, s.EntryCredited poseidon config e
  events : outcomes.map Prod.fst = depositsOf poseidon config.programId (fetchedOf s.state.seenSignatures rest)
  polled : s.polled poseidon config p = ⟨.ok (outcomes.countP (·.2)), outcomes,
    moved config p.written s.state ((fetchedOf s.state.seenSignatures rest).map FinalizedEntry.signature) outcomes, pool⟩

theorem poll_covers (h : s.Sound poseidon config skipped) (hp : Answered s p)
    (hreach : s.InReach config skipped (s.atFirstPage p)) :
    (∃ e, s.polled poseidon config p = ⟨.error e, [], s.state, s.pool⟩) ∨
      ∃ base rest outcomes pool, Processed poseidon config skipped s p base rest outcomes pool := by
  obtain ⟨base, rest, hlog, hbase, hscan⟩ := scan_covers h hp hreach
  have hrest : ∀ e ∈ rest, e ∈ s.finalized ++ p.arrivals := fun e he =>
    mem_atFirstPage (hlog ▸ mem_append_right base he)
  rcases polled_cases hp.truthful hrest hscan with herror | ⟨outcomes, pool, hmap, hpolled⟩
  · exact .inl herror
  · exact .inr ⟨base, rest, outcomes, pool, hlog, hbase, hmap, hpolled⟩

section Processed

variable {base rest : List FinalizedEntry} {pool : π}
  (h : Processed poseidon config skipped s p base rest outcomes pool)
include h

theorem Processed.mem_rest (he : e ∈ rest) : e ∈ s.finalized ++ p.arrivals :=
  mem_atFirstPage (h.log ▸ mem_append_right base he)

theorem Processed.finalized : s.finalized ++ p.arrivals = base ++ rest ++ p.arrivals.drop (p.visible 0) := by
  rw [← h.log, ListenerSystem.atFirstPage, append_assoc, take_append_drop]

theorem Processed.credited_of_clean (he : e ∈ fetchedOf s.state.seenSignatures rest) (hclean : Clean outcomes e.signature) :
    (s.afterPoll poseidon config p).EntryCredited poseidon config e := by
  refine ListenerAux.credited_of_clean h.events ?_ he hclean
  rw [ListenerSystem.afterPoll, h.polled]
  exact Finset.subset_union_right

theorem Processed.credited_part (hsound : s.Sound poseidon config skipped) (hp : Answered s p)
    {part : List FinalizedEntry} (hpart : part ⊆ rest)
    (hclean : ∀ e ∈ fetchedOf s.state.seenSignatures part,
      e ∈ fetchedOf s.state.seenSignatures rest ∧ Clean outcomes e.signature) :
    ∀ e ∈ (base ++ part).drop skipped, (s.afterPoll poseidon config p).EntryCredited poseidon config e := by
  have hmono : s.credited ⊆ (s.afterPoll poseidon config p).credited := Finset.subset_union_left
  have hfetched : ∀ e ∈ part, (s.afterPoll poseidon config p).EntryCredited poseidon config e := by
    refine credited_of_fetched hsound hmono hp.fresh (fun e he => mem_append_left _ he)
      (fun e he => h.mem_rest (hpart he)) ?_
    intro e he
    obtain ⟨hrest, hcleanE⟩ := hclean e he
    exact h.credited_of_clean hrest hcleanE
  intro e he
  rw [drop_append, mem_append] at he
  rcases he with he | he
  · exact entryCredited_mono hmono (h.base e he)
  · exact hfetched e (mem_of_mem_drop he)

theorem Processed.creditedUpTo (hsound : s.Sound poseidon config skipped) (hp : Answered s p)
    (hc : (contiguousCursor (sigOutcomes outcomes)).1 = some c) :
    (s.afterPoll poseidon config p).CreditedUpTo poseidon config skipped c := by
  have hnodup : (rest.map FinalizedEntry.signature).Nodup := by
    have hfresh := hp.fresh
    rw [h.finalized] at hfresh
    exact hfresh.sublist (((sublist_append_right base rest).trans (sublist_append_left _ _)).map _)
  obtain ⟨older, entry, newer, hsplit, hsig, hclean⟩ := cursor_split h.events hnodup hc
  refine ⟨base ++ older, entry, newer ++ p.arrivals.drop (p.visible 0), ?_, hsig, ?_⟩
  · rw [ListenerSystem.afterPoll, h.finalized, hsplit]
    simp
  · rw [append_assoc]
    refine h.credited_part hsound hp ?_ hclean
    rw [hsplit, append_cons older entry newer]
    exact subset_append_left _ _

end Processed

section Sound

variable (h : s.Sound poseidon config skipped)
include h

theorem sound_afterPoll (hp : Answered s p) (hreach : s.InReach config skipped (s.atFirstPage p)) :
    (s.afterPoll poseidon config p).Sound poseidon config skipped := by
  have hmono : s.credited ⊆ (s.afterPoll poseidon config p).credited := Finset.subset_union_left
  rcases poll_covers h hp hreach with ⟨e, hpolled⟩ | ⟨base, rest, outcomes, pool, hprocessed⟩
  · have hstate : (s.afterPoll poseidon config p).state = s.state := by rw [ListenerSystem.afterPoll, hpolled]
    refine sound_mono h rfl hp.fresh hmono ?_ (by rw [hstate]) (by rw [hstate])
    intro c hc
    rw [hstate] at hc
    exact .inl hc
  · have hstate : (s.afterPoll poseidon config p).state = moved config p.written s.state
        ((fetchedOf s.state.seenSignatures rest).map FinalizedEntry.signature) outcomes := by
      rw [ListenerSystem.afterPoll, hprocessed.polled]
    refine ⟨hp.fresh, ?_, ?_, ?_⟩
    · intro c hc
      rw [hstate] at hc
      rcases moved_cursor hc with hc | hc
      · exact hprocessed.creditedUpTo h hp hc
      · exact creditedUpTo_mono rfl hmono (h.cursor c hc)
    · intro c hc
      rw [hstate] at hc
      rcases moved_file hc with hc | hc
      · exact hprocessed.creditedUpTo h hp hc
      · exact creditedUpTo_mono rfl hmono (h.file c hc)
    · intro sig hsig
      rw [hstate] at hsig
      rcases moved_seen hsig with hsig | ⟨hsig, hclean⟩
      · obtain ⟨e, he, hesig, hcred⟩ := h.seen sig hsig
        exact ⟨e, mem_append_left _ he, hesig, entryCredited_mono hmono hcred⟩
      · obtain ⟨e, he, rfl⟩ := mem_map.mp hsig
        exact ⟨e, hprocessed.mem_rest (mem_of_mem_filter he), rfl, hprocessed.credited_of_clean he hclean⟩

/-- A poll that is in reach and in which nothing fails credits everything that was finalized before its first page. -/
theorem credited_afterPoll (hp : Answered s p)
    (hreach : s.InReach config skipped (s.atFirstPage p)) (hok : (s.polled poseidon config p).result = .ok n)
    (hall : ∀ o ∈ (s.polled poseidon config p).outcomes, o.2 = true) :
    ∀ e ∈ (s.atFirstPage p).drop skipped, (s.afterPoll poseidon config p).EntryCredited poseidon config e := by
  rcases poll_covers h hp hreach with ⟨e, hpolled⟩ | ⟨base, rest, outcomes, pool, hprocessed⟩
  · rw [hpolled] at hok
    cases hok
  · rw [hprocessed.polled] at hall
    rw [hprocessed.log]
    refine hprocessed.credited_part h hp (List.Subset.refl _) ?_
    intro e he
    exact ⟨he, fun o ho _ => hall o ho⟩

/-- A poll that is interrupted keeps what every run keeps. -/
theorem sound_afterInterrupted (hfresh : ((s.finalized ++ p.arrivals).map FinalizedEntry.signature).Nodup) :
    (s.afterInterrupted poseidon config p deposits pool).Sound poseidon config skipped := by
  refine sound_mono h rfl hfresh Finset.subset_union_left ?_ rfl (Finset.empty_subset _)
  intro c hc
  exact .inr (mem_start hc)

/-! ## Steps -/

theorem sound_step
    (hreach : ∀ p, event = .poll p → s.InReach config skipped (s.atFirstPage p)) (hstep : s.Step poseidon config event s') :
    s'.Sound poseidon config skipped := by
  cases hstep with
  | finalize fresh => exact sound_mono h rfl fresh (Finset.Subset.refl _) (fun c hc => .inl hc) rfl (Finset.Subset.refl _)
  | poll fresh truthful => exact sound_afterPoll h ⟨truthful, fresh⟩ (hreach _ rfl)
  | interrupted fresh truthful => exact sound_afterInterrupted h fresh
  | restart =>
    exact sound_mono h (append_nil _).symm h.fresh (Finset.Subset.refl _) (fun c hc => .inr (mem_start hc)) rfl
      (Finset.empty_subset _)

end Sound

/-! ## An RPC that does not fail -/

section OfList

theorem getTransaction_ofList (h : (finalized.map FinalizedEntry.signature).Nodup) (hentry : entry ∈ finalized) :
    (ListenerRpc.ofList finalized).getTransaction call entry.signature = .ok entry.transaction.render := by
  have hfind : finalized.find? (·.signature = entry.signature) = some entry := by
    obtain ⟨older, newer, rfl⟩ := append_of_mem hentry
    have hnew : entry.signature ∉ older.map FinalizedEntry.signature := by
      rw [map_append, map_cons, nodup_append] at h
      exact fun hmem => h.2.2 _ hmem _ (mem_cons_self ..) rfl
    rw [find?_append, find?_eq_none.mpr, Option.none_or, find?_cons_of_pos (by simp)]
    intro e he
    simp only [decide_eq_true_eq]
    exact fun heq => hnew (heq ▸ mem_map_of_mem he)
  rw [ListenerRpc.ofList]
  simp only [hfind]

theorem truthful_ofList (h : (finalized.map FinalizedEntry.signature).Nodup) :
    (ListenerRpc.ofList finalized).Truthful finalized [] fun _ => 0 := by
  refine ⟨fun _ _ _ => Nat.le_refl 0, ?_, ?_⟩
  · intro call before boundary limit
    right
    rw [take_nil, append_nil]
    rfl
  · intro call entry hentry
    rw [append_nil] at hentry
    exact .inr (getTransaction_ofList h hentry)

theorem atFirstPage_ofList (s : ListenerSystem π) : s.atFirstPage (.ofList s.finalized) = s.finalized := by
  rw [ListenerSystem.atFirstPage, Poll.ofList, take_nil, append_nil]

theorem scanPages_ofList (limit : Nat) (boundary : Option Signature) (pagesLeft call : Nat) (before : Option Signature) :
    ∃ signatures, scanPages (.ofList finalized) limit boundary pagesLeft call before = .ok signatures := by
  induction pagesLeft generalizing call before with
  | zero => exact ⟨[], rfl⟩
  | succ pagesLeft ih =>
    have hcall : (ListenerRpc.ofList finalized).getSignatures call before boundary limit =
      .ok ((Paging.page FinalizedEntry.signature before boundary limit finalized).map FinalizedEntry.status) := rfl
    rw [scanPages, hcall]
    dsimp only
    split
    · exact ⟨_, rfl⟩
    · split
      · exact ⟨_, rfl⟩
      · rename_i oldest _
        obtain ⟨older, holder⟩ := ih (call + 1) (some oldest)
        rw [holder]
        exact ⟨_, rfl⟩

theorem fetchTransactions_ofList (h : (finalized.map FinalizedEntry.signature).Nodup) {entries : List FinalizedEntry}
    (hentries : ∀ e ∈ entries, e ∈ finalized) (call : Nat) :
    ∃ events, fetchTransactions poseidon config (.ofList finalized) call (entries.map FinalizedEntry.signature) = .ok events := by
  induction entries generalizing call with
  | nil => exact ⟨[], rfl⟩
  | cons entry entries ih =>
    obtain ⟨events, hevents⟩ := ih (fun e he => hentries e (mem_cons_of_mem _ he)) (call + 1)
    rw [map_cons, fetchTransactions, getTransaction_ofList h (hentries entry (mem_cons_self ..)), hevents]
    exact ⟨_, rfl⟩

theorem fetchEvents_of_scan (h : (finalized.map FinalizedEntry.signature).Nodup) (hrest : ∀ e ∈ rest, e ∈ finalized)
    (hscan : Scans config (.ofList finalized) st rest) :
    fetchEvents poseidon config (.ofList finalized) removed st =
      (.ok (depositsOf poseidon config.programId (fetchedOf st.seenSignatures rest)), afterFetch st rest) := by
  obtain ⟨signatures, hpages⟩ := @scanPages_ofList finalized config.batchLimit st.lastSignature maxSignaturePages 0 none
  obtain rfl := hscan signatures hpages
  have hmem : ∀ e ∈ fetchedOf st.seenSignatures rest, e ∈ finalized := fun e he => hrest e (mem_of_mem_filter he)
  obtain ⟨events, hevents⟩ := @fetchTransactions_ofList poseidon config finalized h _ hmem 0
  obtain rfl := fetchTransactions_ok (truthful_ofList h) (fun e he => mem_append_left _ (hmem e he)) hevents
  rw [fetchEvents, scanSignatures, hpages]
  simp only [toFetch_status, hevents]
  rfl

end OfList

theorem fetchEvents_ofList (h : s.Sound poseidon config skipped) (hreach : s.InReach config skipped s.finalized)
    (removed : Bool) : ∃ base rest, s.finalized = base ++ rest ∧ (∀ e ∈ base.drop skipped, s.EntryCredited poseidon config e) ∧
      (fetchEvents poseidon config (.ofList s.finalized) removed s.state).1 =
        .ok (depositsOf poseidon config.programId (fetchedOf s.state.seenSignatures rest)) := by
  have hlog := atFirstPage_ofList s
  obtain ⟨base, rest, hsplit, hbase, hscan⟩ := @scan_covers π poseidon config s skipped (.ofList s.finalized) h
    ⟨truthful_ofList h.fresh, (append_nil s.finalized).symm ▸ h.fresh⟩ (hlog.symm ▸ hreach)
  rw [hlog] at hsplit
  have hrest : ∀ e ∈ rest, e ∈ s.finalized := fun e he => hsplit ▸ mem_append_right base he
  refine ⟨base, rest, hsplit, hbase, ?_⟩
  rw [fetchEvents_of_scan h.fresh hrest hscan]

end ListenerAux

end Paraloom.OffChain
