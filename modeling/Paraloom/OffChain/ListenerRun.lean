import Paraloom.Lib.Paging
import Paraloom.OffChain.Finalized
import Paraloom.OffChain.Listener

/-!
# The listener over time

The chain finalizes transactions of the program, one after the other. The listener polls them through an RPC that fails or
answers from the list as it is at the time of the call, and the process restarts, also in the middle of a poll.
-/

namespace Paraloom.OffChain

structure FinalizedEntry where
  signature : Signature
  transaction : FinalizedTransaction

namespace FinalizedEntry

/-- The entry that `getSignaturesForAddress` has for a transaction. -/
def status (entry : FinalizedEntry) : SignatureStatus := ⟨signatureName entry.signature, entry.transaction.error⟩

/-- The deposits of a transaction, as the listener reads them. -/
def events (poseidon : List Fr → Fr) (programId : Bytes32) (entry : FinalizedEntry) : List DepositEvent :=
  extractDepositEvents poseidon (signatureName entry.signature) entry.transaction.render programId

end FinalizedEntry

open FinalizedEntry

/-- The RPC during a poll: each call fails, with another error than the one for an unknown cursor, or answers from the list as it
has grown by then. While the poll is going, the arrivals become visible one after the other. -/
structure ListenerRpc.Truthful (rpc : ListenerRpc) (finalized arrivals : List FinalizedEntry) (visible : Nat → Nat) : Prop where
  grows : Monotone visible
  signatures : ∀ call before boundary limit,
    (∃ e, rpc.getSignatures call before boundary limit = .error e ∧ isStaleUntilCursor e = false) ∨
      rpc.getSignatures call before boundary limit = .ok ((Paging.page FinalizedEntry.signature before boundary limit
          (finalized ++ arrivals.take (visible call))).map FinalizedEntry.status)
  transactions : ∀ call, ∀ entry ∈ finalized ++ arrivals, (∃ e, rpc.getTransaction call entry.signature = .error e) ∨
      rpc.getTransaction call entry.signature = .ok entry.transaction.render

/-- The RPC that never fails, over a list that does not grow. -/
def ListenerRpc.ofList (finalized : List FinalizedEntry) : ListenerRpc where
  getSignatures _ before boundary limit :=
    .ok ((Paging.page FinalizedEntry.signature before boundary limit finalized).map FinalizedEntry.status)
  getTransaction _ signature :=
    match finalized.find? (·.signature = signature) with
    | some entry => .ok entry.transaction.render
    | none => .error (.solanaRpc "not found")

/-- The list of the chain, the listener and its pool, and for the record the deposits that were credited, each by its signature
and its position in the transaction. -/
structure ListenerSystem (π : Type) where
  finalized : List FinalizedEntry
  state : PollerState
  pool : π
  credited : Finset (String × Nat)

/-- One poll: what is finalized meanwhile and when it becomes visible, the answers of the RPC, what becomes of each deposit, and
whether the cursor is written. -/
structure Poll (π : Type) where
  arrivals : List FinalizedEntry
  visible : Nat → Nat
  rpc : ListenerRpc
  process : Nat → DepositEvent → π → Bool × π
  written : Bool

/-- A poll in which nothing fails and nothing arrives. -/
def Poll.ofList {π : Type} (finalized : List FinalizedEntry) : Poll π :=
  ⟨[], fun _ => 0, .ofList finalized, fun _ _ pool => (true, pool), true⟩

inductive ListenerEvent (π : Type) where
  | finalize (entries : List FinalizedEntry)
  | poll (p : Poll π)
  /-- A poll during which the process ends, after so many deposits, and is started again with this pool. -/
  | interrupted (p : Poll π) (deposits : Nat) (pool : π)
  | restart (pool : π)

/-- The deposits that were credited according to the outcomes. -/
def creditedBy (outcomes : List ((DepositEvent × Nat) × Bool)) : Finset (String × Nat) :=
  ((outcomes.filter (·.2)).map fun o => (o.1.1.signature, o.1.2)).toFinset

namespace ListenerSystem

variable {π : Type} (poseidon : List Fr → Fr) (config : ListenerConfig)

/-- What a poll returns. The file of the cursor is only removed for a cursor that the RPC does not know. -/
def polled (s : ListenerSystem π) (p : Poll π) : PollReturn π :=
  pollEvents p.process poseidon config p.rpc true p.written s.state s.pool

def afterPoll (s : ListenerSystem π) (p : Poll π) : ListenerSystem π :=
  let r := s.polled poseidon config p
  { finalized := s.finalized ++ p.arrivals, state := r.state, pool := r.pool, credited := s.credited ∪ creditedBy r.outcomes }

def afterInterrupted (s : ListenerSystem π) (p : Poll π) (deposits : Nat) (pool : π) : ListenerSystem π :=
  let outcomes := match (fetchEvents poseidon config p.rpc true s.state).1 with
    | .ok events => (processEvents p.process 0 (events.take deposits) s.pool).1
    | .error _ => []
  { finalized := s.finalized ++ p.arrivals, state := .start config s.state.cursorFile, pool
    credited := s.credited ∪ creditedBy outcomes }

/-- A step of the chain and the listener. No signature is finalized twice. -/
inductive Step (s : ListenerSystem π) : ListenerEvent π → ListenerSystem π → Prop where
  | finalize {entries : List FinalizedEntry} (fresh : ((s.finalized ++ entries).map FinalizedEntry.signature).Nodup) :
      Step s (.finalize entries) { s with finalized := s.finalized ++ entries }
  | poll {p : Poll π} (fresh : ((s.finalized ++ p.arrivals).map FinalizedEntry.signature).Nodup)
      (truthful : p.rpc.Truthful s.finalized p.arrivals p.visible) : Step s (.poll p) (s.afterPoll poseidon config p)
  | interrupted {p : Poll π} {deposits : Nat} {pool : π}
      (fresh : ((s.finalized ++ p.arrivals).map FinalizedEntry.signature).Nodup)
      (truthful : p.rpc.Truthful s.finalized p.arrivals p.visible) :
      Step s (.interrupted p deposits pool) (s.afterInterrupted poseidon config p deposits pool)
  | restart {pool : π} : Step s (.restart pool) { s with state := .start config s.state.cursorFile, pool }

/-- Every deposit of a transaction is credited. -/
def EntryCredited (s : ListenerSystem π) (entry : FinalizedEntry) : Prop :=
  ∀ i < (entry.events poseidon config.programId).length, (signatureName entry.signature, i) ∈ s.credited

def atFirstPage (s : ListenerSystem π) (p : Poll π) : List FinalizedEntry := s.finalized ++ p.arrivals.take (p.visible 0)

end ListenerSystem

end Paraloom.OffChain
