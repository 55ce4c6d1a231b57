import Mathlib.Data.List.DropRight
import Paraloom.OffChain.PeerRegistry

/-!
# When a peer is dialled again

The wait for a peer depends on its history: on the disconnects since it was last connected or forgotten. A disconnect after the
operator has forgotten a peer starts the waits anew, so the peer is dialled again.
-/

namespace Paraloom.OffChain

open List Checked

/-- The events since the last connect of a peer. -/
def sinceConnect (p : NodeId) (events : List (Nat × PeerEvent)) : List (Nat × PeerEvent) :=
  events.rtakeWhile (·.2 ≠ .markConnected p)

/-- The events since the last time a peer was forgotten. -/
def sinceForget (p : NodeId) (events : List (Nat × PeerEvent)) : List (Nat × PeerEvent) :=
  events.rtakeWhile (·.2 ≠ .forget p)

/-- The times of the disconnects of a peer. -/
def disconnects (p : NodeId) (events : List (Nat × PeerEvent)) : List Nat :=
  (events.filter (·.2 = .markDisconnected p)).map (·.1)

/-- Since its last connect the peer was not forgotten and was disconnected, the last time long enough ago. -/
def DueSince (p : NodeId) (events : List (Nat × PeerEvent)) (now : Nat) : Prop :=
  (∀ e ∈ sinceConnect p events, e.2 ≠ .forget p) ∧ ∃ t ∈ (disconnects p (sinceConnect p events)).getLast?,
    t + reconnectBackoff.getD (min (disconnects p (sinceConnect p events)).length 5 - 1) 0 ≤ now

/-- When a peer is due, and its failures, if it is waited for. -/
def PeerState.waiting : PeerState → Option (Nat × Nat)
  | .backoff retryAt failures => some (retryAt, failures)
  | _ => none

namespace ReconnectAux

open PeerRegistry

def waiting (r : PeerRegistry) (p : NodeId) : Option (Nat × Nat) := (r.peers.lookup p).bind (·.state.waiting)

/-- The wait after a number of failures. -/
def wait (failures : Nat) : Nat := reconnectBackoff.getD (min failures 5 - 1) 0

/-- What an event does to the wait for a peer. -/
def step (p : NodeId) (w : Option (Nat × Nat)) (e : Nat × PeerEvent) : Option (Nat × Nat) :=
  if e.2 = .markConnected p ∨ e.2 = .forget p then none
  else if e.2 = .markDisconnected p then
    let failures := satAdd (w.elim 0 (·.2)) 1
    some (e.1 + wait failures, failures)
  else w

variable {r : PeerRegistry} {p : NodeId} {now : Nat}

theorem waiting_put : waiting (r.put q entry) p = if q = p then entry.state.waiting else waiting r p := by
  by_cases h : q = p
  · subst h
    simp [waiting, put]
  · simp [waiting, put, h, AList.lookup_insert_ne (Ne.symm h)]

theorem waiting_seen (state : PeerState) : (state.seen now).waiting = state.waiting := by
  cases state <;> rfl

/-- A call that keeps the state of a peer, except for the time it was heard. -/
theorem waiting_heard {entry : PeerEntry} (h : r.peers.lookup q = some entry) :
    waiting (r.put q ⟨entry.state.seen now, slow⟩) p = waiting r p := by
  rw [waiting_put, waiting_seen]
  split
  · rename_i hq
    rw [waiting, ← hq, h, Option.bind_some]
  · rfl

theorem waiting_apply : waiting (r.apply e) p = step p (waiting r p) e := by
  obtain ⟨t, e⟩ := e
  cases e with
  | markConnected q =>
    simp [apply, markConnected, waiting_put, step, PeerState.waiting]
  | forget q => simp [apply, forget, waiting_put, step, PeerState.waiting]
  | markAlive q =>
    simp only [apply, markAlive, step, reduceCtorEq, or_self, if_false]
    split
    · rename_i entry h
      exact waiting_heard h
    · rfl
  | recordResponse q latency =>
    simp only [apply, recordResponse, step, reduceCtorEq, or_self, if_false]
    split
    · rename_i entry h
      exact waiting_heard h
    · rfl
  | markDisconnected q =>
    simp only [apply, markDisconnected, step, reduceCtorEq, or_self, if_false, waiting_put, PeerEvent.markDisconnected.injEq]
    split
    · rename_i hq
      subst hq
      unfold waiting
      cases r.peers.lookup q with
      | none => rfl
      | some entry =>
        obtain ⟨state, slow⟩ := entry
        cases state <;> rfl
    · rfl

theorem mem_due : p ∈ r.peersDueForReconnect now ↔ ∃ w ∈ waiting r p, w.1 ≤ now := by
  simp only [peersDueForReconnect, mem_filterMap, waiting, Option.mem_def, Option.bind_eq_some_iff]
  constructor
  · rintro ⟨⟨q, entry⟩, he, hdue⟩
    have hentry := AList.mem_lookup_iff.mpr he
    obtain ⟨state, slow⟩ := entry
    cases state with
    | backoff retryAt failures =>
      simp only [Option.ite_none_right_eq_some, Option.some.injEq] at hdue
      obtain ⟨hle, rfl⟩ := hdue
      exact ⟨(retryAt, failures), ⟨_, hentry, rfl⟩, hle⟩
    | connected lastSeen => cases hdue
    | forgotten => cases hdue
  · rintro ⟨w, ⟨⟨state, slow⟩, hentry, hwaiting⟩, hle⟩
    refine ⟨⟨p, state, slow⟩, AList.mem_lookup_iff.mp hentry, ?_⟩
    cases state with
    | backoff retryAt failures =>
      obtain rfl := Option.some.inj hwaiting
      exact if_pos hle
    | connected lastSeen => cases hwaiting
    | forgotten => cases hwaiting

theorem rtakeWhile_rtakeWhile (g : α → Bool) (l : List α) :
    (l.rtakeWhile f).rtakeWhile g = l.rtakeWhile fun x => f x && g x := by
  induction l using reverseRecOn with
  | nil => rfl
  | append_singleton l x ih =>
    rw [rtakeWhile_concat, rtakeWhile_concat]
    cases f x
    · rfl
    · simp [rtakeWhile_concat, ih]

theorem sinceForget_sinceConnect_snoc : sinceForget p (sinceConnect p (events ++ [e])) =
      if e.2 = .markConnected p ∨ e.2 = .forget p then [] else sinceForget p (sinceConnect p events) ++ [e] := by
  simp only [sinceForget, sinceConnect, rtakeWhile_rtakeWhile]
  rw [rtakeWhile_concat]
  by_cases h : e.2 = .markConnected p ∨ e.2 = .forget p
  · rw [if_pos h, if_neg]
    rcases h with h | h <;> simp [h]
  · rw [if_neg h, if_pos]
    simpa [not_or] using h

/-- The wait for a peer after a run: it is from the last disconnect since the peer was connected or forgotten. -/
theorem waiting_run : waiting ((new.withSlowResponseThreshold threshold).run events) p =
      (disconnects p (sinceForget p (sinceConnect p events))).getLast?.map fun t =>
        (t + wait (disconnects p (sinceForget p (sinceConnect p events))).length,
          min (disconnects p (sinceForget p (sinceConnect p events))).length u64Max) := by
  induction events using reverseRecOn with
  | nil => rfl
  | append_singleton events e ih =>
    rw [PeerRegistry.run, foldl_append, foldl_cons, foldl_nil, ← PeerRegistry.run, waiting_apply, ih, step,
      sinceForget_sinceConnect_snoc]
    generalize sinceForget p (sinceConnect p events) = since
    split
    · rfl
    · by_cases hdisconnect : e.2 = .markDisconnected p
      · have hlast : disconnects p (since ++ [e]) = disconnects p since ++ [e.1] := by simp [disconnects, hdisconnect]
        rw [if_pos hdisconnect, hlast, getLast?_concat, length_append, length_singleton]
        generalize disconnects p since = ds
        have hcount : (ds.getLast?.map fun t => (t + wait ds.length, min ds.length u64Max)).elim 0 (·.2) =
            min ds.length u64Max := by
          cases hempty : ds.getLast? with
          | none => simp [getLast?_eq_none_iff.mp hempty]
          | some t => rfl
        have hsat : satAdd (min ds.length u64Max) 1 = min (ds.length + 1) u64Max := by
          unfold satAdd
          omega
        have hwait : wait (min (ds.length + 1) u64Max) = wait (ds.length + 1) := by
          rw [wait, wait, min_assoc, min_eq_right (by decide : 5 ≤ u64Max)]
        rw [hcount, hsat]
        dsimp only
        rw [hwait]
        rfl
      · have hsame : disconnects p (since ++ [e]) = disconnects p since := by simp [disconnects, hdisconnect]
        rw [if_neg hdisconnect, hsame]

end ReconnectAux

open ReconnectAux in
/-- After every sequence of events, a peer is due at all later times exactly if the history of its connects, disconnects and
removals says so, on condition that the peer was not disconnected after it was last forgotten, unless it was connected
meanwhile. -/
theorem reconnect_schedule_iff (threshold : Nat) (events : List (Nat × PeerEvent)) (p : NodeId) :
    (∀ now, (∀ e ∈ events, e.1 ≤ now) → (p ∈ ((PeerRegistry.new.withSlowResponseThreshold threshold).run
        events).peersDueForReconnect now ↔ DueSince p events now)) ↔
      ((∃ e ∈ sinceConnect p events, e.2 = .forget p) → disconnects p (sinceForget p (sinceConnect p events)) = []) := by
  have hdue : ∀ now, p ∈ ((PeerRegistry.new.withSlowResponseThreshold threshold).run events).peersDueForReconnect now ↔ _ :=
    fun _ => mem_due
  simp only [waiting_run] at hdue
  by_cases hforgotten : ∃ e ∈ sinceConnect p events, e.2 = .forget p
  · have hnever : ∀ now, ¬ DueSince p events now := by
      rintro now ⟨hkept, -⟩
      obtain ⟨e, he, hforget⟩ := hforgotten
      exact hkept e he hforget
    simp only [hnever, iff_false, hdue, hforgotten, true_imp_iff]
    constructor
    · intro h
      by_contra hne
      -- the wait is over at some time after all events
      have hall : ∀ e ∈ events, e.1 ≤ (events.map (·.1)).sum := fun e he => le_sum_of_mem (mem_map_of_mem he)
      obtain ⟨t, ht⟩ := Option.isSome_iff_exists.mp (getLast?_isSome.mpr hne)
      exact h _ (fun e he => (hall e he).trans (Nat.le_add_right ..)) ⟨_, Option.map_eq_some_iff.mpr ⟨t, ht, rfl⟩,
        Nat.le_add_left ..⟩
    · intro hempty now _
      simp [hempty]
  · have hsame : sinceForget p (sinceConnect p events) = sinceConnect p events := by
      refine rtakeWhile_eq_self_iff.mpr fun e he => ?_
      simpa using fun hforget => hforgotten ⟨e, he, hforget⟩
    simp only [hforgotten, false_imp_iff, iff_true, hdue, hsame]
    intro now _
    rw [DueSince, and_iff_right fun e he hforget => hforgotten ⟨e, he, hforget⟩]
    constructor
    · rintro ⟨w, hw, hle⟩
      obtain ⟨t, ht, rfl⟩ := Option.map_eq_some_iff.mp hw
      exact ⟨t, ht, hle⟩
    · rintro ⟨t, ht, hle⟩
      exact ⟨_, Option.map_eq_some_iff.mpr ⟨t, ht, rfl⟩, hle⟩

/-- A peer that was forgotten and then disconnected is due after ten seconds, although it was never connected since. -/
theorem forgotten_peer_redialled :
    (∃ e ∈ sinceConnect [7] [(0, .markConnected [7]), (1, .forget [7]), (2, .markDisconnected [7])], e.2 = .forget [7]) ∧
      [7] ∈ (PeerRegistry.new.run [(0, .markConnected [7]), (1, .forget [7]),
        (2, .markDisconnected [7])]).peersDueForReconnect (2 + fromSecs 10) := by
  decide

end Paraloom.OffChain
