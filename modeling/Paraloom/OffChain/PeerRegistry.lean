import Paraloom.OffChain.VoteTally

/-!
# The peer registry

What a node knows about its peers: a connected one, one that is dialled again after a wait, which grows with the failures in a
row, or one that the operator has removed. Moments and durations are in nanoseconds, and the reading of the clock is an argument.
-/

namespace Paraloom.OffChain

def fromSecs (seconds : Nat) : Nat := seconds * 1000000000

def reconnectBackoff : List Nat := [fromSecs 10, fromSecs 30, fromSecs 60, fromSecs 120, fromSecs 300]

def defaultSlowResponseThreshold : Nat := fromSecs 2

inductive PeerState where
  | connected (lastSeen : Nat)
  | backoff (retryAt consecutiveFailures : Nat)
  /-- Removed by the operator. -/
  | forgotten

/-- A connected peer was heard from. -/
def PeerState.seen (now : Nat) : PeerState → PeerState
  | .connected _ => .connected now
  | state => state

structure PeerEntry where
  state : PeerState
  slowResponses : Nat

structure PeerRegistry where
  peers : Table NodeId PeerEntry
  slowResponseThreshold : Nat

namespace PeerRegistry

def new : PeerRegistry := ⟨∅, defaultSlowResponseThreshold⟩

def withSlowResponseThreshold (r : PeerRegistry) (threshold : Nat) : PeerRegistry :=
  { r with slowResponseThreshold := threshold }

def put (r : PeerRegistry) (nodeId : NodeId) (entry : PeerEntry) : PeerRegistry :=
  { r with peers := r.peers.insert nodeId entry }

def markConnected (r : PeerRegistry) (now : Nat) (nodeId : NodeId) : PeerRegistry := r.put nodeId ⟨.connected now, 0⟩

def markAlive (r : PeerRegistry) (now : Nat) (nodeId : NodeId) : PeerRegistry :=
  match r.peers.lookup nodeId with
  | some entry => r.put nodeId { entry with state := entry.state.seen now }
  | none => r

def recordResponse (r : PeerRegistry) (now : Nat) (nodeId : NodeId) (latency : Nat) : PeerRegistry :=
  match r.peers.lookup nodeId with
  | some entry => r.put nodeId ⟨entry.state.seen now,
      if r.slowResponseThreshold < latency then Checked.satAdd entry.slowResponses 1 else entry.slowResponses⟩
  | none => r

/-- The failures are counted on only while the peer is waited for. -/
def markDisconnected (r : PeerRegistry) (now : Nat) (nodeId : NodeId) : PeerRegistry :=
  let entry := (r.peers.lookup nodeId).getD ⟨.backoff now 0, 0⟩
  let nextFailureCount := match entry.state with
    | .backoff _ consecutiveFailures => Checked.satAdd consecutiveFailures 1
    | _ => 1
  let backoffIdx := min nextFailureCount reconnectBackoff.length - 1
  r.put nodeId { entry with state := .backoff (now + reconnectBackoff.getD backoffIdx 0) nextFailureCount }

def forget (r : PeerRegistry) (nodeId : NodeId) : PeerRegistry :=
  r.put nodeId { (r.peers.lookup nodeId).getD ⟨.forgotten, 0⟩ with state := .forgotten }

def peersDueForReconnect (r : PeerRegistry) (now : Nat) : List NodeId :=
  r.peers.entries.filterMap fun e => match e.2.state with
    | .backoff retryAt _ => if retryAt ≤ now then some e.1 else none
    | _ => none

end PeerRegistry

inductive PeerEvent where
  | markConnected (nodeId : NodeId)
  | markDisconnected (nodeId : NodeId)
  | markAlive (nodeId : NodeId)
  | recordResponse (nodeId : NodeId) (latency : Nat)
  | forget (nodeId : NodeId)
  deriving DecidableEq

/-- A call at the time that the clock shows. -/
def PeerRegistry.apply (r : PeerRegistry) (e : Nat × PeerEvent) : PeerRegistry :=
  match e.2 with
  | .markConnected nodeId => r.markConnected e.1 nodeId
  | .markDisconnected nodeId => r.markDisconnected e.1 nodeId
  | .markAlive nodeId => r.markAlive e.1 nodeId
  | .recordResponse nodeId latency => r.recordResponse e.1 nodeId latency
  | .forget nodeId => r.forget nodeId

def PeerRegistry.run (r : PeerRegistry) (events : List (Nat × PeerEvent)) : PeerRegistry := events.foldl apply r

/-!
## Reconciling connectivity

A bridge node looks at its connected peers once a tick. It remembers the peers it has seen, and for each that is away the number
of ticks in a row. A peer whose streak reaches the threshold is deactivated and forgotten until it connects again.
-/

/-- An order in which a set iterates over its members. -/
structure SetOrder (α : Type) where
  visit : Finset α → List α
  visit_nodup : ∀ s, (visit s).Nodup
  mem_visit : ∀ s x, x ∈ visit s ↔ x ∈ s

/-- The peers a node has seen and their consecutive absent ticks. -/
structure Tracking where
  known : Finset NodeId
  misses : Table NodeId Nat

namespace Tracking

def empty : Tracking := { known := ∅, misses := ∅ }

/-- The first loop of `reconcile_deactivations`: a peer that is present. -/
def markPresent (t : Tracking) (peer : NodeId) : Tracking :=
  { known := insert peer t.known, misses := t.misses.erase peer }

/-- The second loop of `reconcile_deactivations`: a known peer that is absent. A streak that leaves `u32` panics. -/
def markAbsent (threshold : UInt32) : Tracking × List NodeId → NodeId → Option (Tracking × List NodeId)
  | (t, deactivate), peer =>
    let streak := (t.misses.lookup peer).getD 0 + 1
    if streak < UInt32.size then
      let misses := t.misses.insert peer streak
      if threshold.toNat ≤ streak then
        some ({ known := t.known.erase peer, misses := misses.erase peer }, deactivate ++ [peer])
      else
        some ({ t with misses := misses }, deactivate)
    else none

end Tracking

/-- `reconcile_deactivations`; `ι` is the order of the connected set and `ι'` that of the known one. -/
def reconcileDeactivations (ι ι' : SetOrder NodeId) (t : Tracking) (connected : Finset NodeId) (threshold : UInt32) :
    Option (Tracking × List NodeId) :=
  let t := (ι.visit connected).foldl .markPresent t
  let absent := (ι'.visit t.known).filter (· ∉ connected)
  absent.foldlM (Tracking.markAbsent threshold) (t, [])

/-- The tracking state before tick `k`, where tick `k` sees the peers `connected k`. -/
def trackingBefore (ι ι' : Nat → SetOrder NodeId) (threshold : UInt32) (connected : Nat → Finset NodeId) : Nat → Option Tracking
  | 0 => some .empty
  | k + 1 => do
    let t ← trackingBefore ι ι' threshold connected k
    let (t, _) ← reconcileDeactivations (ι k) (ι' k) t (connected k) threshold
    return t

/-- The peers that tick `k` returns. -/
def deactivatedAt (ι ι' : Nat → SetOrder NodeId) (threshold : UInt32) (connected : Nat → Finset NodeId) (k : Nat) :
    Option (List NodeId) := do
  let t ← trackingBefore ι ι' threshold connected k
  let (_, deactivate) ← reconcileDeactivations (ι k) (ι' k) t (connected k) threshold
  return deactivate

end Paraloom.OffChain
