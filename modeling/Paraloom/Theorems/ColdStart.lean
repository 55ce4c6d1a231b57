import Paraloom.Theorems.ListenerCursor

/-!
# A listener without a cursor

A listener that starts without a cursor takes the newest page and leaves the history before it alone. It has no cursor either
after polls that found no deposit, and then the newest page is again all that it takes, however much was finalized since the
last poll.
-/

namespace Paraloom.OffChain

open List ListenerAux PollerState

namespace ListenerSystem

variable {π : Type} (poseidon : List Fr → Fr) (config : ListenerConfig)

/-- Every poll ends with an error. -/
def Unfinished (s : ListenerSystem π) (event : ListenerEvent π) : Prop :=
  ∀ p, event = .poll p → ∃ e, (s.polled poseidon config p).result = .error e

/-- Every poll reaches down to the cursor, or without a cursor to what was finalized before. -/
def Reaching (skipped : Nat) (s : ListenerSystem π) (event : ListenerEvent π) : Prop :=
  ∀ p, event = .poll p → s.InReach config skipped (s.atFirstPage p)

end ListenerSystem

open ListenerSystem

/-- Polls and finalized transactions, without a restart. -/
def ListenerEvent.Running {π : Type} : ListenerEvent π → Prop
  | .finalize _ | .poll _ => True
  | .interrupted .. | .restart _ => False

namespace ColdStartAux

open ListenerAux

variable {π : Type} {poseidon : List Fr → Fr} {config : ListenerConfig} {s s' : ListenerSystem π}


theorem sound_start (hfresh : (s.finalized.map FinalizedEntry.signature).Nodup) (hstart : s.state = .start config none)
    (skipped : Nat) : s.Sound poseidon config skipped := by
  refine ⟨hfresh, ?_, ?_, ?_⟩ <;> rw [hstart]
  · intro c hc
    cases mem_start hc
  · intro c hc
    cases hc
  · intro sig hsig
    cases hsig

theorem inReach_start (hstart : s.state = .start config none) {log : List FinalizedEntry} (hlog : log.length ≤ skipped) :
    s.InReach config skipped log := by
  have hcursor : s.state.lastSignature = none := by rw [hstart, start, ite_self]
  rw [InReach, hcursor]
  exact Nat.le_add_right_of_le hlog

theorem restart_start (hstart : s.state = .start config none) : start config s.state.cursorFile = .start config none := by
  rw [hstart]
  rfl

/-- Until a poll completes the listener stays as it was started. -/
theorem start_step (hfresh : (s.finalized.map FinalizedEntry.signature).Nodup) (hstart : s.state = .start config none)
    (hunfinished : s.Unfinished poseidon config event) (hstep : s.Step poseidon config event s') :
    (s'.finalized.map FinalizedEntry.signature).Nodup ∧ s'.state = .start config none := by
  cases hstep with
  | finalize fresh => exact ⟨fresh, hstart⟩
  | restart => exact ⟨hfresh, restart_start hstart⟩
  | interrupted fresh truthful => exact ⟨fresh, restart_start hstart⟩
  | @poll p fresh truthful =>
    refine ⟨fresh, ?_⟩
    obtain ⟨e, herror⟩ := hunfinished p rfl
    rcases poll_covers (sound_start hfresh hstart _) ⟨truthful, fresh⟩ (inReach_start hstart le_rfl) with
      ⟨e', hpolled⟩ | ⟨base, rest, outcomes, pool, hprocessed⟩
    · rw [ListenerSystem.afterPoll, hpolled, hstart]
    · rw [hprocessed.polled] at herror
      cases herror

theorem returned_of_uncredited (h : s.Sound poseidon config skipped) (hreach : s.InReach config skipped s.finalized)
    {entry : FinalizedEntry} (hentry : entry ∈ s.finalized.drop skipped)
    (hdeposit : deposit ∈ (entry.events poseidon config.programId).zipIdx)
    (huncredited : (signatureName entry.signature, deposit.2) ∉ s.credited) :
    ∃ events, (fetchEvents poseidon config (.ofList s.finalized) true s.state).1 = .ok events ∧ deposit ∈ events := by
  have hnot : ¬s.EntryCredited poseidon config entry := by
    intro hcredited
    refine huncredited (hcredited deposit.2 ?_)
    exact (List.getElem?_eq_some_iff.mp (List.mem_zipIdx_iff_getElem?.mp hdeposit)).1
  have hmem := mem_of_mem_drop hentry
  obtain ⟨base, rest, hsplit, hbase, hfetch⟩ := fetchEvents_ofList h hreach true
  refine ⟨_, hfetch, mem_flatMap.mpr ⟨entry, ?_, hdeposit⟩⟩
  have hrest : entry ∈ rest := by
    rw [hsplit, drop_append, mem_append] at hentry
    rcases hentry with hentry | hentry
    · exact absurd (hbase entry hentry) hnot
    · exact mem_of_mem_drop hentry
  have herror : entry.transaction.error = none := by
    by_contra herror
    rw [events_of_error herror] at hdeposit
    cases hdeposit
  have hseen : entry.signature ∉ s.state.seenSignatures := by
    intro hseen
    obtain ⟨e, he, hsig, hcredited⟩ := h.seen _ hseen
    obtain rfl := inj_on_of_nodup_map h.fresh he hmem hsig
    exact hnot hcredited
  exact mem_filter.mpr ⟨hrest, by simp [herror, hseen]⟩

end ColdStartAux

/-- After a start without a cursor, polls that fail and one more poll, every deposit that is finalized later and not credited
is returned by the next fetch that does not fail, as long as every poll reaches down far enough: with a cursor there are no
more signatures above it than its pages hold, and without one no more than one page was finalized since that poll. -/
theorem cold_start_loses_nothing {π : Type} (poseidon : List Fr → Fr) (config : ListenerConfig) (s₀ s₁ s : ListenerSystem π)
    (before after : List (ListenerEvent π)) (p : Poll π)
    (hfresh : (s₀.finalized.map FinalizedEntry.signature).Nodup) (hstart : s₀.state = .start config none)
    (hbefore : Run (fun s event s' => s.Unfinished poseidon config event ∧ s.Step poseidon config event s') s₀ before s₁)
    (hfirst : s₁.Step poseidon config (.poll p) (s₁.afterPoll poseidon config p))
    (hafter : Run (fun s event s' => s.Reaching config (s₁.finalized ++ p.arrivals).length event ∧
      s.Step poseidon config event s') (s₁.afterPoll poseidon config p) after s)
    (hreach : s.InReach config (s₁.finalized ++ p.arrivals).length s.finalized) :
    ∀ entry ∈ s.finalized.drop (s₁.finalized ++ p.arrivals).length,
      ∀ deposit ∈ (entry.events poseidon config.programId).zipIdx, (signatureName entry.signature, deposit.2) ∉ s.credited →
        ∃ events, (fetchEvents poseidon config (.ofList s.finalized) true s.state).1 = .ok events ∧ deposit ∈ events := by
  obtain ⟨hfresh₁, hstart₁⟩ := hbefore.invariant ⟨hfresh, hstart⟩ fun t event u ht hstep =>
    ColdStartAux.start_step ht.1 ht.2 hstep.1 hstep.2
  have hsound₁ := @ColdStartAux.sound_start π poseidon config s₁ hfresh₁ hstart₁ (s₁.finalized ++ p.arrivals).length
  have hsound : s.Sound poseidon config (s₁.finalized ++ p.arrivals).length := by
    refine hafter.invariant (sound_step hsound₁ ?_ hfirst) fun t event u ht hstep =>
      sound_step ht hstep.1 hstep.2
    rintro q hq
    obtain rfl := ListenerEvent.poll.inj hq
    refine ColdStartAux.inReach_start hstart₁ ?_
    rw [ListenerSystem.atFirstPage, length_append, length_append, length_take]
    omega
  intro entry hentry deposit hdeposit huncredited
  exact ColdStartAux.returned_of_uncredited hsound hreach hentry hdeposit huncredited

/-! ## Deposits below the cursor -/

/-- The cursor is above an entry. -/
def ListenerSystem.Passed {π : Type} (s : ListenerSystem π) (entry : FinalizedEntry) : Prop :=
  ∃ older last newer, s.finalized = older ++ last :: newer ∧ s.state.lastSignature = some last.signature ∧ entry ∈ older

namespace ColdStartAux

open ListenerAux

variable {π : Type} {poseidon : List Fr → Fr} {config : ListenerConfig} {s s' : ListenerSystem π}
  {p : Poll π} {older newer : List FinalizedEntry}

/-- What a poll looks at is above the cursor. -/
theorem rest_above (hlist : s.finalized = older ++ last :: newer) (k : Nat) :
    ∀ e ∈ (newer ++ p.arrivals.take (p.visible 0)).drop k, e ∈ newer ++ p.arrivals ∧ e ∈ s.finalized ++ p.arrivals := by
  intro e he
  have habove : e ∈ newer ++ p.arrivals := by
    rcases mem_append.mp (mem_of_mem_drop he) with he | he
    · exact mem_append_left _ he
    · exact mem_append_right _ (mem_of_mem_take he)
  refine ⟨habove, ?_⟩
  rw [hlist, append_assoc, cons_append]
  exact mem_append_right _ (mem_cons_of_mem _ habove)

theorem fetch_of_passed (h : s.Passed entry) (hp : Answered s p) {events : List (DepositEvent × Nat)}
    (hfetch : (fetchEvents poseidon config p.rpc true s.state).1 = .ok events) :
    ∀ o ∈ events, o.1.signature ≠ signatureName entry.signature := by
  obtain ⟨older, last, newer, hlist, hcursor, hentry⟩ := h
  obtain ⟨k, hscan, -⟩ := @scan_above π config s p older newer last hlist hcursor hp
  have hrest := @rest_above π s p older newer last hlist k
  rcases @fetchEvents_cases π poseidon config s p hp.truthful _ (fun e he => (hrest e he).2) hscan true with ⟨e, herror⟩ | hok
  · rw [herror] at hfetch
    cases hfetch
  · rw [hok] at hfetch
    obtain rfl := Except.ok.inj hfetch
    intro o ho hsig
    obtain ⟨e, he, hdeposit⟩ := mem_flatMap.mp ho
    have hname := signature_of_mem_events (fst_mem_of_mem_zipIdx hdeposit)
    have habove := (hrest e (mem_of_mem_filter he)).1
    have hfresh := hp.fresh
    rw [hlist, append_assoc, cons_append, map_append, nodup_append] at hfresh
    exact hfresh.2.2 _ (mem_map_of_mem hentry) _ (mem_map_of_mem (mem_cons_of_mem _ habove))
      (signatureName_injective (hsig.symm.trans hname))

theorem passed_step (h : s.Passed entry) (hrunning : event.Running) (hstep : s.Step poseidon config event s') :
    s'.Passed entry := by
  obtain ⟨older, last, newer, hlist, hcursor, hentry⟩ := h
  cases hstep with
  | @finalize entries fresh => exact ⟨older, last, newer ++ entries, by rw [hlist]; simp, hcursor, hentry⟩
  | interrupted => cases hrunning
  | restart => cases hrunning
  | @poll p fresh truthful =>
    obtain ⟨k, hscan, -⟩ := @scan_above π config s p older newer last hlist hcursor ⟨truthful, fresh⟩
    have hrest := @rest_above π s p older newer last hlist k
    have hlist' : s.finalized ++ p.arrivals = older ++ last :: (newer ++ p.arrivals) := by rw [hlist]; simp
    rcases @polled_cases π poseidon config s p truthful _ (fun e he => (hrest e he).2) hscan with
      ⟨e, hpolled⟩ | ⟨outcomes, pool, hmap, hpolled⟩
    · exact ⟨older, last, newer ++ p.arrivals, hlist', by rw [ListenerSystem.afterPoll, hpolled]; exact hcursor, hentry⟩
    · rw [ListenerSystem.afterPoll, hpolled]
      cases hmoved : (contiguousCursor (sigOutcomes outcomes)).1 with
      | none =>
        refine ⟨older, last, newer ++ p.arrivals, hlist', ?_, hentry⟩
        simp only [moved, hmoved]
        exact hcursor
      | some c =>
        obtain ⟨e, he, rfl⟩ := cursor_mem hmap hmoved
        obtain ⟨between, newest, hsplit⟩ := append_of_mem (hrest e (mem_of_mem_filter he)).1
        refine ⟨older ++ last :: between, e, newest, ?_, ?_, mem_append_left _ hentry⟩
        · rw [hlist', hsplit]
          simp
        · simp only [moved, hmoved, advanceCursor]

/-- A fetch without a cursor, of a list that is one longer than a page. -/
theorem cold_fetch (hlist : s.finalized = entry :: newer) (hstart : s.state = .start config none)
    (hfresh : (s.finalized.map FinalizedEntry.signature).Nodup) (hlimit : newer.length = config.batchLimit) :
    fetchEvents poseidon config (.ofList s.finalized) true s.state =
      (.ok (depositsOf poseidon config.programId (fetchedOf s.state.seenSignatures newer)), afterFetch s.state newer) := by
  have htruthful := truthful_ofList hfresh
  have hcursor : s.state.lastSignature = none := by rw [hstart, start, ite_self]
  have hmem : ∀ e ∈ newer, e ∈ s.finalized ++ [] := by
    intro e he
    rw [append_nil, hlist]
    exact mem_cons_of_mem _ he
  have hscan : Scans config (.ofList s.finalized) s.state newer := by
    intro signatures hscan
    rw [hcursor] at hscan
    have hnewest := scanPages_newest htruthful hscan
    rwa [take_nil, append_nil, hlist, length_cons, hlimit, Nat.add_sub_cancel_left, drop_one, tail_cons] at hnewest
  obtain ⟨_, _, -, -, hok⟩ := @fetchEvents_ofList π poseidon config s s.finalized.length (sound_start hfresh hstart _)
    (inReach_start hstart le_rfl) true
  rcases @fetchEvents_cases π poseidon config s (.ofList s.finalized) htruthful newer hmem hscan true with ⟨e, herror⟩ | hfetch
  · rw [show (Poll.ofList s.finalized : Poll π).rpc = .ofList s.finalized from rfl] at herror
    rw [herror] at hok
    cases hok
  · exact hfetch

theorem cold_poll_passes (hlist : s.finalized = entry :: newer) (hstart : s.state = .start config none)
    (hfresh : (s.finalized.map FinalizedEntry.signature).Nodup) (hlimit : newer.length = config.batchLimit)
    (hdeposits : depositsOf poseidon config.programId (fetchedOf s.state.seenSignatures newer) ≠ []) :
    (s.afterPoll poseidon config (.ofList s.finalized)).Passed entry ∧
      ∀ i, (signatureName entry.signature, i) ∈ (s.afterPoll poseidon config (.ofList s.finalized)).credited →
        (signatureName entry.signature, i) ∈ s.credited := by
  have hpolled := @polled_of_fetch π poseidon config s (.ofList s.finalized) _ _ (cold_fetch hlist hstart hfresh hlimit)
  have hmap := map_fst_processEvents (Poll.ofList s.finalized : Poll π).process 0
    (depositsOf poseidon config.programId (fetchedOf s.state.seenSignatures newer)) s.pool
  have hall := @processEvents_of_success π (Poll.ofList s.finalized : Poll π).process (fun _ _ _ => rfl) 0
    (depositsOf poseidon config.programId (fetchedOf s.state.seenSignatures newer)) s.pool
  generalize processEvents (Poll.ofList s.finalized : Poll π).process 0
    (depositsOf poseidon config.programId (fetchedOf s.state.seenSignatures newer)) s.pool = processed at hpolled hmap hall
  obtain ⟨_, e, _, hfetched, hevents, htrim⟩ := depositsOf_trim hdeposits
  have hc := cursor_last (hmap.trans htrim) hall hevents
  have he : e ∈ fetchedOf s.state.seenSignatures newer := by
    rw [hfetched]
    exact mem_append_right _ (mem_cons_self ..)
  obtain ⟨between, newest, hsplit⟩ := append_of_mem (mem_of_mem_filter he)
  rw [ListenerSystem.afterPoll, hpolled]
  refine ⟨⟨entry :: between, e, newest, ?_, ?_, mem_cons_self ..⟩, ?_⟩
  · rw [hlist, hsplit]
    exact append_nil _
  · simp only [moved, hc, advanceCursor]
  · intro i hi
    rcases Finset.mem_union.mp hi with hi | hi
    · exact hi
    · obtain ⟨o, ho, -, hkey⟩ := mem_creditedBy.mp hi
      obtain ⟨e', he', hname⟩ := entry_of_outcome hmap ho
      have hsig := signatureName_injective (hname.symm.trans (Prod.ext_iff.mp hkey).1)
      rw [hlist, map_cons, nodup_cons] at hfresh
      exact absurd (hsig ▸ mem_map_of_mem (mem_of_mem_filter he')) hfresh.1

end ColdStartAux

namespace ColdStartSample

open ListenerAux ListenerSample
open DepositSample (poseidon)

def config : ListenerConfig := ⟨CoSignSample.programId, signatureBatchLimit, true⟩

/-- Nothing is finalized yet. -/
def start : ListenerSystem Unit := ⟨[], .start config none, (), ∅⟩

def first : ListenerSystem Unit := start.afterPoll poseidon config (.ofList [])

theorem first_state : first.state = .start config none := by decide +kernel

theorem first_step : start.Step poseidon config (.poll (.ofList [])) first :=
  .poll nodup_nil (truthful_ofList nodup_nil)

def newer : List FinalizedEntry := (range signatureBatchLimit).map fun n => deposit (n + 1)

theorem fresh : ((deposit 0 :: newer).map FinalizedEntry.signature).Nodup := by
  have hlist : (deposit 0 :: newer).map FinalizedEntry.signature = (range (signatureBatchLimit + 1)).map signature := by
    rw [range_succ_eq_map, newer, map_cons, map_cons, map_map, map_map]
    rfl
  rw [hlist]
  refine List.Nodup.map_on ?_ nodup_range
  intro a ha b hb heq
  have hlt : ∀ n ∈ range (signatureBatchLimit + 1), n < 256 ^ 64 := by
    intro n hn
    have hn := mem_range.mp hn
    rw [signatureBatchLimit] at hn
    omega
  have hnat := congrArg (fun v : Signature => LittleEndian.toNat v.toList) heq
  have hvec : ∀ n ∈ range (signatureBatchLimit + 1), LittleEndian.toNat (signature n).toList = n :=
    fun n hn => LittleEndian.toNat_ofNat_of_lt (hlt n hn)
  rwa [hvec a ha, hvec b hb] at hnat

def waiting : ListenerSystem Unit := { first with finalized := deposit 0 :: newer }

theorem newer_deposits : depositsOf poseidon config.programId (fetchedOf waiting.state.seenSignatures newer) ≠ [] := by
  have hlength : ((deposit 1).events poseidon CoSignSample.programId).length = 1 :=
    events_length 1
  have hmem : deposit 1 ∈ fetchedOf waiting.state.seenSignatures newer := by
    have hseen : waiting.state.seenSignatures = ∅ := congrArg seenSignatures first_state
    rw [hseen]
    refine mem_filter.mpr ⟨mem_map.mpr ⟨0, mem_range.mpr (Nat.succ_pos 999), rfl⟩, ?_⟩
    rw [decide_eq_true_iff]
    exact ⟨rfl, Finset.notMem_empty _⟩
  obtain ⟨event, hevent⟩ := exists_mem_of_length_pos (hlength ▸ Nat.one_pos)
  obtain ⟨i, hi⟩ := mem_iff_getElem?.mp hevent
  exact ne_nil_of_mem (mem_flatMap.mpr ⟨_, hmem, mk_mem_zipIdx_iff_getElem?.mpr hi⟩)

end ColdStartSample

open ColdStartSample ColdStartAux ListenerAux
open DepositSample (poseidon)
open ListenerSample (deposit events_length)

/-- One deposit after the first poll, which the next fetch returns. -/
theorem cold_start_loses_nothing_of_one :
    ((ListenerSample.deposit 0).events DepositSample.poseidon CoSignSample.programId).length = 1 ∧
    ∀ deposit ∈ ((ListenerSample.deposit 0).events DepositSample.poseidon CoSignSample.programId).zipIdx,
      ∃ events, (fetchEvents DepositSample.poseidon ColdStartSample.config (.ofList [ListenerSample.deposit 0]) true
        ColdStartSample.first.state).1 = .ok events ∧ deposit ∈ events := by
  refine ⟨events_length 0, ?_⟩
  intro deposit hdeposit
  have hfinalize : first.Step poseidon config
      (.finalize [ListenerSample.deposit 0]) { first with finalized := [ListenerSample.deposit 0] } :=
    .finalize (nodup_singleton _)
  have hreach : ListenerSystem.InReach config 0
      { first with finalized := [ListenerSample.deposit 0] } [ListenerSample.deposit 0] := by
    rw [ListenerSystem.InReach, first_state]
    exact Nat.succ_le_succ (Nat.zero_le _)
  have huncredited : (signatureName (ListenerSample.signature 0), deposit.2) ∉ first.credited := by
    have hempty : first.credited = ∅ := by decide +kernel
    rw [hempty]
    exact Finset.notMem_empty _
  refine cold_start_loses_nothing poseidon config start start
    { first with finalized := [ListenerSample.deposit 0] } [] [.finalize [ListenerSample.deposit 0]] (.ofList [])
    nodup_nil rfl .nil first_step (Run.nil.snoc ⟨?_, hfinalize⟩) hreach (ListenerSample.deposit 0)
    (mem_singleton_self _) deposit hdeposit huncredited
  rintro p ⟨⟩

/-- One page of deposits and one more after the first poll: the second poll takes the page, the cursor is at its end, and no fetch
returns the oldest deposit any more. -/
theorem deposit_lost_after_cold_start :
    ColdStartSample.start.Step DepositSample.poseidon ColdStartSample.config (.poll (.ofList [])) ColdStartSample.first ∧
    (ColdStartSample.start.polled DepositSample.poseidon ColdStartSample.config (.ofList [])).result = .ok 0 ∧
    ∃ s, Run (fun s event s' => event.Running ∧ s.Step DepositSample.poseidon ColdStartSample.config event s')
        ColdStartSample.first [.finalize (ListenerSample.deposit 0 :: ColdStartSample.newer),
          .poll (.ofList (ListenerSample.deposit 0 :: ColdStartSample.newer))] s ∧
      ¬s.EntryCredited DepositSample.poseidon ColdStartSample.config (ListenerSample.deposit 0) ∧
      ∀ events s', Run (fun s event s' => event.Running ∧ s.Step DepositSample.poseidon ColdStartSample.config event s')
          s events s' →
        ∀ p : Poll Unit, s'.Step DepositSample.poseidon ColdStartSample.config (.poll p)
            (s'.afterPoll DepositSample.poseidon ColdStartSample.config p) →
          ∀ found, (fetchEvents DepositSample.poseidon ColdStartSample.config p.rpc true s'.state).1 = .ok found →
            ∀ o ∈ found, o.1.signature ≠ signatureName (ListenerSample.signature 0) := by
  obtain ⟨hpassed, hcredited⟩ := @cold_poll_passes Unit poseidon config waiting newer (deposit 0) rfl first_state
    fresh (by rw [newer, length_map, length_range]; rfl) newer_deposits
  have hwaiting : first.Step poseidon config (.finalize (deposit 0 :: newer)) waiting :=
    .finalize fresh
  have hpoll : waiting.Step poseidon config (.poll (.ofList (deposit 0 :: newer))) (waiting.afterPoll poseidon config
        (.ofList waiting.finalized)) :=
    .poll ((append_nil _).symm ▸ fresh) (truthful_ofList fresh)
  refine ⟨first_step, by decide +kernel, _, (Run.nil.snoc ⟨trivial, hwaiting⟩).snoc ⟨trivial, hpoll⟩, ?_, ?_⟩
  · intro h
    have hlength := events_length 0
    have hempty : waiting.credited = ∅ := by decide +kernel
    have hmem := hcredited 0 (h 0 (hlength ▸ Nat.one_pos))
    rw [hempty] at hmem
    cases hmem
  · intro events s' hrun p hstep found hfound
    have hpassed' := hrun.invariant hpassed fun t event u ht hlast => passed_step ht hlast.1 hlast.2
    cases hstep with
    | poll fresh truthful => exact fetch_of_passed hpassed' ⟨truthful, fresh⟩ hfound

end Paraloom.OffChain
