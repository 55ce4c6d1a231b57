import Paraloom.Lemmas.Decoder
import Paraloom.OffChain.ListenerRun

/-!
# What a poll does

The pages of a poll that succeeds are the entries above the cursor, all of them if they fit into the pages. The entries that the
listener has not seen are fetched and their deposits processed in order, and the cursor moves to the last signature before the
first failure.
-/

namespace Paraloom.OffChain

open List Option

namespace ListenerAux

variable {rpc : ListenerRpc} {finalized arrivals : List FinalizedEntry}

/-! ## Signatures -/

theorem parse_signatureName (sig : Signature) : parseSignature (signatureName sig) = some sig :=
  Base58.decode_eq_some_iff.mpr rfl

theorem signatureName_injective : Function.Injective signatureName := by
  intro a b h
  have hparse := parse_signatureName a
  rw [h, parse_signatureName] at hparse
  exact (some.inj hparse).symm

theorem signature_of_mem_events {programId : Bytes32} {entry : FinalizedEntry} (h : event ∈ entry.events poseidon programId) :
    event.signature = signatureName entry.signature := by
  cases herror : entry.transaction.error with
  | some e =>
    rw [FinalizedEntry.events, extractDepositEvents_of_error _ _ _ (by rw [herror]; rfl)] at h
    cases h
  | none =>
    rw [FinalizedEntry.events, extractDepositEvents_render _ _ _ herror] at h
    obtain ⟨instruction, -, hevent⟩ := mem_filterMap.mp h
    obtain ⟨decoded, -, rfl⟩ := map_eq_some_iff.mp hevent
    rfl

theorem events_of_error {programId : Bytes32} {entry : FinalizedEntry} (h : entry.transaction.error ≠ none) :
    entry.events poseidon programId = [] :=
  extractDepositEvents_of_error _ _ _ (isSome_iff_ne_none.mpr h)

/-! ## Pages -/

/-- Later calls see a longer list. -/
theorem visible_extends (h : Monotone visible) (call : Nat) : ∃ more, finalized ++ arrivals.take (visible (call + 1)) =
    finalized ++ arrivals.take (visible call) ++ more := by
  have hprefix : arrivals.take (visible call) <+: arrivals.take (visible (call + 1)) :=
    take_prefix_take_left (h (Nat.le_succ call))
  obtain ⟨more, hmore⟩ := hprefix
  exact ⟨more, by rw [← hmore, append_assoc]⟩

theorem page_of_ok (h : rpc.Truthful finalized arrivals visible)
    (hbatch : rpc.getSignatures call before boundary limit = .ok batch) :
    batch = (Paging.page FinalizedEntry.signature before boundary limit
      (finalized ++ arrivals.take (visible call))).map FinalizedEntry.status := by
  rcases h.signatures call before boundary limit with ⟨e, he, -⟩ | hok
  · rw [he] at hbatch
    cases hbatch
  · rw [hok] at hbatch
    exact (Except.ok.inj hbatch).symm

theorem oldest_of_page {rest : List FinalizedEntry} {limit : Nat} (hlimit : 0 < limit) (hfull : limit ≤ rest.length) :
    ∃ older y newer, rest = older ++ y :: newer ∧ older.length = rest.length - limit ∧
      rest.reverse.take limit = newer.reverse ++ [y] ∧
      (((rest.reverse.take limit).map FinalizedEntry.status).getLast?.bind fun s => parseSignature s.signature) =
        some y.signature := by
  have hdrop : rest.length - limit < rest.length := by omega
  refine ⟨rest.take (rest.length - limit), rest[rest.length - limit], rest.drop (rest.length - limit + 1), ?_, ?_, ?_, ?_⟩
  · rw [← drop_eq_getElem_cons hdrop, take_append_drop]
  · rw [length_take]
    omega
  · rw [take_reverse, drop_eq_getElem_cons hdrop, reverse_cons]
  · rw [take_reverse, drop_eq_getElem_cons hdrop, reverse_cons, map_append, map_singleton,
      getLast?_concat, bind_some]
    exact parse_signatureName _

section Scan

variable (h : rpc.Truthful finalized arrivals visible)
include h

/-- The scan from a page on, by induction on the pages that are left: of `rest`, which lies between the cursor and the pages so
far, it returns the newest part, and all of it if it fits. -/
theorem scanPages_rest (hnodup : ((finalized ++ arrivals).map FinalizedEntry.signature).Nodup) :
    ∀ (call : Nat) (before : Option Signature) (rest newer : List FinalizedEntry) (signatures : List SignatureStatus),
      finalized ++ arrivals.take (visible call) = pre ++ x :: (rest ++ newer) →
      (newer = [] ∧ before = none ∨ ∃ y newer', newer = y :: newer' ∧ before = some y.signature) →
      scanPages rpc limit (some x.signature) pagesLeft call before = .ok signatures →
      ∃ k ≤ rest.length, signatures = (rest.drop k).reverse.map FinalizedEntry.status ∧
        (rest.length ≤ pagesLeft * limit → k = 0) := by
  induction pagesLeft with
  | zero =>
    intro call before rest newer signatures _ _ hscan
    refine ⟨rest.length, Nat.le_refl _, ?_, fun hlen => by omega⟩
    rw [drop_length]
    exact (Except.ok.inj hscan).symm
  | succ pagesLeft ih =>
    intro call before rest newer signatures hlog hbefore hscan
    have hlogNodup : ((finalized ++ arrivals.take (visible call)).map FinalizedEntry.signature).Nodup :=
      hnodup.sublist (((List.Sublist.refl _).append (take_sublist _ _)).map _)
    have hpage : Paging.page FinalizedEntry.signature before (some x.signature) limit
        (finalized ++ arrivals.take (visible call)) = rest.reverse.take limit := by
      rw [hlog] at hlogNodup ⊢
      rcases hbefore with ⟨rfl, rfl⟩ | ⟨y, newer', rfl, rfl⟩
      · rw [append_nil] at hlogNodup ⊢
        refine Paging.page_above ?_
        rw [map_append, map_cons, nodup_append] at hlogNodup
        exact fun hmem => hlogNodup.2.2 _ hmem _ (mem_cons_self ..) rfl
      · exact Paging.page_between hlogNodup
    rw [scanPages] at hscan
    cases hbatch : rpc.getSignatures call before (some x.signature) limit with
    | error e => simp [hbatch] at hscan
    | ok batch =>
      obtain rfl := page_of_ok h hbatch
      rw [hpage] at hbatch
      simp only [hbatch, length_map, length_take, length_reverse, reduceCtorEq, or_false] at hscan
      split at hscan
      · -- the page is short, so it has reached the cursor
        rename_i hshort
        refine ⟨0, Nat.zero_le _, ?_, fun _ => rfl⟩
        rw [← Except.ok.inj hscan, take_of_length_le (by rw [length_reverse]; omega), drop_zero]
      rename_i hfull
      rcases Nat.eq_zero_or_pos limit with rfl | hlimit
      · refine ⟨rest.length, Nat.le_refl _, ?_, fun hlen => by omega⟩
        rw [drop_length]
        exact (Except.ok.inj hscan).symm
      obtain ⟨older, y, newest, rfl, holder, htake, holdest⟩ := @oldest_of_page rest limit hlimit (by omega)
      simp only [holdest] at hscan
      cases hrest : scanPages rpc limit (some x.signature) pagesLeft (call + 1) (some y.signature) with
      | error e => simp [hrest] at hscan
      | ok olderSignatures =>
        obtain ⟨more, hmore⟩ := @visible_extends finalized arrivals visible h.grows call
        obtain ⟨k, hk, hnext, hall⟩ := ih (call + 1) (some y.signature) older (y :: (newest ++ newer ++ more)) olderSignatures
          (by rw [hmore, hlog]; simp) (.inr ⟨y, _, rfl, rfl⟩) hrest
        refine ⟨k, by rw [length_append]; omega, ?_, ?_⟩
        · rw [hrest] at hscan
          rw [← Except.ok.inj hscan, hnext, htake, drop_append_of_le_length hk]
          simp
        · intro hlen
          rw [Nat.succ_mul] at hlen
          exact hall (by omega)

/-- A scan above a cursor returns the newest part of what is above it at the first call, and all of it if it fits into the
pages. -/
theorem scanPages_above (hnodup : ((finalized ++ arrivals).map FinalizedEntry.signature).Nodup)
    (hlog : finalized ++ arrivals.take (visible 0) = pre ++ x :: rest)
    (hscan : scanPages rpc limit (some x.signature) maxSignaturePages 0 none = .ok signatures) :
    ∃ k ≤ rest.length, signatures = (rest.drop k).reverse.map FinalizedEntry.status ∧
      (rest.length ≤ maxSignaturePages * limit → k = 0) :=
  scanPages_rest h hnodup 0 none rest [] signatures (by rw [hlog, append_nil]) (.inl ⟨rfl, rfl⟩) hscan

/-- A scan without a cursor returns the newest page. -/
theorem scanPages_newest (hscan : scanPages rpc limit none maxSignaturePages 0 none = .ok signatures) :
    signatures = ((finalized ++ arrivals.take (visible 0)).drop
      ((finalized ++ arrivals.take (visible 0)).length - limit)).reverse.map FinalizedEntry.status := by
  rw [maxSignaturePages, scanPages] at hscan
  cases hbatch : rpc.getSignatures 0 none none limit with
  | error e => simp [hbatch] at hscan
  | ok batch =>
    simp only [hbatch, or_true, if_true] at hscan
    rw [← Except.ok.inj hscan, page_of_ok h hbatch, Paging.page_newest]

theorem scanPages_error
    (hscan : scanPages rpc limit boundary pagesLeft call before = .error (e, calls)) : isStaleUntilCursor e = false := by
  induction pagesLeft generalizing call before with
  | zero => cases hscan
  | succ pagesLeft ih =>
    rw [scanPages] at hscan
    cases hbatch : rpc.getSignatures call before boundary limit with
    | error e' =>
      rw [hbatch] at hscan
      obtain ⟨rfl, -⟩ := Prod.mk.inj (Except.error.inj hscan)
      rcases h.signatures call before boundary limit with ⟨e'', he'', hstale⟩ | hok
      · rw [hbatch] at he''
        rwa [Except.error.inj he'']
      · rw [hbatch] at hok
        cases hok
    | ok batch =>
      simp only [hbatch] at hscan
      split at hscan
      · cases hscan
      split at hscan
      · cases hscan
      split at hscan
      · rename_i hrest
        rw [Except.error.inj hscan] at hrest
        exact ih hrest
      · cases hscan

end Scan

/-! ## Transactions -/

/-- The entries that a poll fetches. -/
def fetchedOf (seen : Finset Signature) (rest : List FinalizedEntry) : List FinalizedEntry :=
  rest.filter fun e => e.transaction.error = none ∧ e.signature ∉ seen

theorem toFetch_status (seen : Finset Signature) (rest : List FinalizedEntry) :
    toFetch seen (rest.reverse.map FinalizedEntry.status) = (fetchedOf seen rest).map FinalizedEntry.signature := by
  rw [toFetch, ← map_reverse, reverse_reverse, filterMap_map, fetchedOf]
  induction rest with
  | nil => rfl
  | cons entry rest ih =>
    have hparse : parseSignature entry.status.signature = some entry.signature := parse_signatureName _
    by_cases hkeep : entry.transaction.error = none ∧ entry.signature ∉ seen
    · have hskip : (entry.status.err.isSome || decide (entry.signature ∈ seen)) = false := by
        simp [FinalizedEntry.status, hkeep.1, hkeep.2]
      rw [filter_cons_of_pos (by simpa using hkeep), map_cons, ← ih]
      refine filterMap_cons_some ?_
      simp only [Function.comp_apply, hparse, bind_some, hskip, Bool.false_eq_true, if_false]
    · have hskip : (entry.status.err.isSome || decide (entry.signature ∈ seen)) = true := by
        rw [not_and_or, not_not] at hkeep
        rcases hkeep with herror | hseen
        · simp [FinalizedEntry.status, isSome_iff_ne_none.mpr herror]
        · simp [hseen]
      rw [filter_cons_of_neg (by simpa using hkeep), ← ih]
      refine filterMap_cons_none ?_
      simp only [Function.comp_apply, hparse, bind_some, hskip, if_true]

def depositsOf (poseidon : List Fr → Fr) (programId : Bytes32) (entries : List FinalizedEntry) : List (DepositEvent × Nat) :=
  entries.flatMap fun e => (e.events poseidon programId).zipIdx

theorem fetchTransactions_ok (h : rpc.Truthful finalized arrivals visible) (hentries : ∀ e ∈ entries, e ∈ finalized ++ arrivals)
    (hfetch : fetchTransactions poseidon config rpc call (entries.map FinalizedEntry.signature) = .ok events) :
    events = depositsOf poseidon config.programId entries := by
  induction entries generalizing call events with
  | nil => exact (Except.ok.inj hfetch).symm
  | cons entry entries ih =>
    rw [map_cons, fetchTransactions] at hfetch
    rcases h.transactions call entry (hentries entry (mem_cons_self ..)) with ⟨e, he⟩ | hok
    · simp [he] at hfetch
    · rw [hok] at hfetch
      cases hrest : fetchTransactions poseidon config rpc (call + 1) (entries.map FinalizedEntry.signature) with
      | error e => simp [hrest] at hfetch
      | ok older =>
        have hih := ih (fun e he => hentries e (mem_cons_of_mem _ he)) hrest
        simp only [hrest, Except.ok.injEq] at hfetch
        rw [← hfetch, hih]
        rfl

theorem map_fst_processEvents (process : Nat → DepositEvent → π → Bool × π) (call : Nat) (events : List (DepositEvent × Nat))
    (pool : π) : (processEvents process call events pool).1.map Prod.fst = events := by
  induction events generalizing call pool with
  | nil => rfl
  | cons event events ih => rw [processEvents, map_cons, ih]

/-! ## The cursor -/

theorem foldl_cursorStep_frozen (outcomes : List (Signature × Bool)) (cursor : Option Signature) (failed : List Signature) :
    outcomes.foldl (cursorStep failedSigs) (cursor, true, failed) =
      (cursor, true, failed ++ (outcomes.filter fun o => o.2 = false).map Prod.fst) := by
  induction outcomes generalizing failed with
  | nil => simp
  | cons o outcomes ih =>
    rw [foldl_cons]
    obtain ⟨sig, ok⟩ := o
    cases ok with
    | true => simpa [cursorStep] using ih failed
    | false => simpa [cursorStep] using ih (failed ++ [sig])

/-- The loop of `contiguous_cursor`, by induction on the outcomes that are left. -/
theorem foldl_cursorStep (outcomes : List (Signature × Bool)) (cursor : Option Signature) (failed : List Signature)
    (hfailed : ∀ o ∈ outcomes, o.2 = false → o.1 ∈ failedSigs) :
    (outcomes.foldl (cursorStep failedSigs) (cursor, false, failed)).1 =
        ((outcomes.takeWhile fun o => o.1 ∉ failedSigs).getLast?.map Prod.fst).or cursor ∧
      (outcomes.foldl (cursorStep failedSigs) (cursor, false, failed)).2.2 =
        failed ++ (outcomes.filter fun o => o.2 = false).map Prod.fst := by
  induction outcomes generalizing cursor failed with
  | nil => simp
  | cons o outcomes ih =>
    obtain ⟨sig, ok⟩ := o
    by_cases hsig : sig ∈ failedSigs
    · have hstep : cursorStep failedSigs (cursor, false, failed) (sig, ok) =
          (cursor, true, if ok then failed else failed ++ [sig]) := by simp [cursorStep, hsig]
      rw [foldl_cons, hstep, foldl_cursorStep_frozen]
      cases ok <;> simp [hsig]
    · obtain rfl : ok = true := by
        by_contra hok
        exact hsig (hfailed _ (mem_cons_self ..) (by simpa using hok))
      have hstep : cursorStep failedSigs (cursor, false, failed) (sig, true) = (some sig, false, failed) := by
        simp [cursorStep, hsig]
      obtain ⟨hcursor, hrest⟩ := ih (some sig) failed fun o ho => hfailed o (mem_cons_of_mem _ ho)
      rw [foldl_cons, hstep, hcursor, hrest, takeWhile_cons_of_pos (by simpa using hsig), getLast?_cons]
      refine ⟨?_, by simp⟩
      cases (outcomes.takeWhile fun o => o.1 ∉ failedSigs).getLast? <;> simp

/-- The signatures with a failure. -/
def failedSigs (outcomes : List (Signature × Bool)) : Finset Signature :=
  ((outcomes.filter fun o => o.2 = false).map Prod.fst).toFinset

theorem mem_failedSigs : sig ∈ failedSigs outcomes ↔ (sig, false) ∈ outcomes := by
  simp [failedSigs]

/-- The cursor moves to the last signature before the first one with a failure, and the signatures with a failure are
returned. -/
theorem contiguousCursor_eq (outcomes : List (Signature × Bool)) :
    contiguousCursor outcomes = ((outcomes.takeWhile fun o => o.1 ∉ failedSigs outcomes).getLast?.map Prod.fst,
      (outcomes.filter fun o => o.2 = false).map Prod.fst) := by
  have hfailed : ∀ o ∈ outcomes, o.2 = false → o.1 ∈ failedSigs outcomes := by
    rintro ⟨sig, ok⟩ ho rfl
    exact mem_failedSigs.mpr ho
  obtain ⟨hcursor, hrest⟩ := foldl_cursorStep outcomes none [] hfailed
  rw [contiguousCursor, Prod.ext_iff]
  exact ⟨by rw [← failedSigs, hcursor, or_none], by rw [← failedSigs, hrest, nil_append]⟩

/-! ## Outcomes -/

def sigOutcomes (outcomes : List ((DepositEvent × Nat) × Bool)) : List (Signature × Bool) :=
  outcomes.filterMap fun o => (parseSignature o.1.1.signature).map fun sig => (sig, o.2)

def Clean (outcomes : List ((DepositEvent × Nat) × Bool)) (sig : Signature) : Prop :=
  ∀ o ∈ outcomes, o.1.1.signature = signatureName sig → o.2 = true

theorem mem_sigOutcomes :
    (sig, ok) ∈ sigOutcomes outcomes ↔ ∃ o ∈ outcomes, o.1.1.signature = signatureName sig ∧ o.2 = ok := by
  simp only [sigOutcomes, mem_filterMap, map_eq_some_iff, Prod.mk.injEq]
  constructor
  · rintro ⟨o, ho, sig', hparse, rfl, hok⟩
    exact ⟨o, ho, (Base58.decode_eq_some_iff.mp hparse).symm, hok⟩
  · rintro ⟨o, ho, hsig, hok⟩
    exact ⟨o, ho, sig, by rw [hsig, parse_signatureName], rfl, hok⟩

theorem not_mem_failedSigs_iff : sig ∉ failedSigs (sigOutcomes outcomes) ↔ Clean outcomes sig := by
  rw [mem_failedSigs, mem_sigOutcomes, Clean]
  constructor
  · intro h o ho hsig
    by_contra hok
    exact h ⟨o, ho, hsig, by simpa using hok⟩
  · rintro h ⟨o, ho, hsig, hok⟩
    rw [h o ho hsig] at hok
    cases hok

variable {programId : Bytes32}
  {outcomes : List ((DepositEvent × Nat) × Bool)}

theorem entry_of_outcome (hmap : outcomes.map Prod.fst = depositsOf poseidon programId entries) (ho : o ∈ outcomes) :
    ∃ e ∈ entries, o.1.1.signature = signatureName e.signature := by
  have hmem : o.1 ∈ depositsOf poseidon programId entries := hmap ▸ mem_map_of_mem ho
  obtain ⟨e, he, hdeposit⟩ := mem_flatMap.mp hmem
  exact ⟨e, he, signature_of_mem_events (fst_mem_of_mem_zipIdx hdeposit)⟩

/-- An element that fails the test ends `takeWhile` there. -/
theorem takeWhile_append_of_stop {xs ys : List α} (hx : x ∈ xs) (hstop : p x = false) :
    (xs ++ ys).takeWhile p = xs.takeWhile p := by
  rw [takeWhile_append, if_neg]
  intro hall
  have hself := takeWhile_eq_self_iff.mp (( takeWhile_prefix p).eq_of_length hall)
  rw [hself x hx] at hstop
  cases hstop

/-- Entries in two parts of a list with distinct signatures have different signatures. -/
theorem signature_ne_of_nodup {older newer : List FinalizedEntry}
    (hnodup : ((older ++ newer).map FinalizedEntry.signature).Nodup) (he : e ∈ older) (he' : e' ∈ newer) :
    e.signature ≠ e'.signature := by
  rw [map_append, nodup_append] at hnodup
  exact hnodup.2.2 _ (mem_map_of_mem he) _ (mem_map_of_mem he')

theorem run_stops_at_failure {older newer : List FinalizedEntry}
    (hnodup : ((older ++ newer).map FinalizedEntry.signature).Nodup)
    (hsecond : second.map Prod.fst = depositsOf poseidon programId newer) {e : FinalizedEntry} (he : e ∈ older)
    (hfailed : ¬Clean (first ++ second) e.signature) :
    (sigOutcomes (first ++ second)).takeWhile (fun o => o.1 ∉ failedSigs (sigOutcomes (first ++ second))) =
      (sigOutcomes first).takeWhile fun o => o.1 ∉ failedSigs (sigOutcomes (first ++ second)) := by
  have hmem : e.signature ∈ failedSigs (sigOutcomes (first ++ second)) := by
    by_contra hnot
    exact hfailed (not_mem_failedSigs_iff.mp hnot)
  obtain ⟨o, ho, hsig, hok⟩ := mem_sigOutcomes.mp (mem_failedSigs.mp hmem)
  have hfirst : o ∈ first := by
    rcases mem_append.mp ho with ho | ho
    · exact ho
    · obtain ⟨e', he', hname⟩ := entry_of_outcome hsecond ho
      exact absurd (signatureName_injective (hsig.symm.trans hname)) (signature_ne_of_nodup hnodup he he')
  have happend : sigOutcomes (first ++ second) = sigOutcomes first ++ sigOutcomes second := filterMap_append
  conv_lhs => arg 2; rw [happend]
  exact takeWhile_append_of_stop (mem_sigOutcomes.mpr ⟨o, hfirst, hsig, hok⟩) (by simp [hmem])

theorem cursor_mem (hmap : outcomes.map Prod.fst = depositsOf poseidon programId entries)
    (hcursor : (contiguousCursor (sigOutcomes outcomes)).1 = some c) : ∃ e ∈ entries, e.signature = c := by
  rw [contiguousCursor_eq, map_eq_some_iff] at hcursor
  obtain ⟨last, hlast, rfl⟩ := hcursor
  obtain ⟨o, ho, hsig, -⟩ := mem_sigOutcomes.mp (( takeWhile_prefix _).subset (mem_of_getLast? hlast))
  obtain ⟨e, he, hname⟩ := entry_of_outcome hmap ho
  exact ⟨e, he, signatureName_injective (hname.symm.trans hsig)⟩

theorem depositsOf_trim (h : depositsOf poseidon programId entries ≠ []) :
    ∃ older e newer, entries = older ++ e :: newer ∧ e.events poseidon programId ≠ [] ∧
      depositsOf poseidon programId entries = depositsOf poseidon programId (older ++ [e]) := by
  induction entries using reverseRecOn with
  | nil => exact absurd rfl h
  | append_singleton entries e ih =>
    by_cases hevents : e.events poseidon programId = []
    · have heq : depositsOf poseidon programId (entries ++ [e]) = depositsOf poseidon programId entries := by
        simp [depositsOf, hevents]
      rw [heq] at h
      obtain ⟨older, e', newer, rfl, hne, htrim⟩ := ih h
      exact ⟨older, e', newer ++ [e], by simp, hne, heq.trans htrim⟩
    · exact ⟨entries, e, [], rfl, hevents, rfl⟩

theorem cursor_last (hmap : outcomes.map Prod.fst = depositsOf poseidon programId (older ++ [e]))
    (hall : ∀ o ∈ outcomes, o.2 = true) (hevents : e.events poseidon programId ≠ []) :
    (contiguousCursor (sigOutcomes outcomes)).1 = some e.signature := by
  have hfailed : ∀ o ∈ sigOutcomes outcomes, decide (o.1 ∉ failedSigs (sigOutcomes outcomes)) = true := by
    intro o _
    rw [decide_eq_true_iff, not_mem_failedSigs_iff]
    exact fun o' ho' _ => hall o' ho'
  have hzip : (e.events poseidon programId).zipIdx ≠ [] := by simpa using hevents
  have hsplit : outcomes.map Prod.fst = depositsOf poseidon programId older ++ (e.events poseidon programId).zipIdx := by
    rw [hmap]
    simp [depositsOf]
  have hne : outcomes ≠ [] := by
    rintro rfl
    exact hzip (append_eq_nil_iff.mp hsplit.symm).2
  obtain ⟨init, o, rfl⟩ := (eq_nil_or_concat outcomes).resolve_left hne
  have hlast : o.1 ∈ (e.events poseidon programId).zipIdx := by
    have hgetLast := congrArg getLast? hsplit
    rw [concat_eq_append, map_append, map_singleton, getLast?_concat, getLast?_append_of_ne_nil _ hzip] at hgetLast
    exact mem_of_getLast? hgetLast.symm
  have hname := signature_of_mem_events (fst_mem_of_mem_zipIdx hlast)
  have hsig : sigOutcomes (init.concat o) = sigOutcomes init ++ [(e.signature, o.2)] := by
    rw [concat_eq_append, sigOutcomes, filterMap_append]
    simp [sigOutcomes, hname, parse_signatureName]
  rw [contiguousCursor_eq, takeWhile_eq_self_iff.mpr hfailed, hsig, getLast?_concat]
  rfl

theorem cursor_clean (hmap : outcomes.map Prod.fst = depositsOf poseidon programId entries)
    (hnodup : (entries.map FinalizedEntry.signature).Nodup) {c : Signature}
    (hcursor : (contiguousCursor (sigOutcomes outcomes)).1 = some c) :
    ∃ older e newer, entries = older ++ e :: newer ∧ e.signature = c ∧ ∀ e' ∈ older ++ [e], Clean outcomes e'.signature := by
  obtain ⟨e, he, hesig⟩ := cursor_mem hmap hcursor
  rw [contiguousCursor_eq, map_eq_some_iff] at hcursor
  obtain ⟨last, hlast, rfl⟩ := hcursor
  have hmem := mem_of_getLast? hlast
  have hclean : Clean outcomes last.1 := not_mem_failedSigs_iff.mp (by simpa using mem_takeWhile_imp hmem)
  obtain ⟨older, newer, rfl⟩ := append_of_mem he
  refine ⟨older, e, newer, rfl, hesig, ?_⟩
  intro e' he'
  rcases mem_append.mp he' with he' | he'
  · -- a failure of an older entry would end the run of successes before the cursor
    by_contra hfailed
    rw [depositsOf, flatMap_append, map_eq_append_iff] at hmap
    obtain ⟨first, second, rfl, hfirst, hsecond⟩ := hmap
    rw [run_stops_at_failure hnodup hsecond he' hfailed] at hmem
    obtain ⟨o', ho', hsig', -⟩ := mem_sigOutcomes.mp (( takeWhile_prefix _).subset hmem)
    obtain ⟨e'', he'', hname'⟩ := entry_of_outcome hfirst ho'
    refine signature_ne_of_nodup hnodup he'' (mem_cons_self ..) (signatureName_injective ?_)
    rw [← hname', hsig', hesig]
  · rw [mem_singleton.mp he', hesig]
    exact hclean

end ListenerAux

end Paraloom.OffChain
