import Paraloom.Lemmas.ListenerRun
import Paraloom.Theorems.DepositLeaf

/-!
# The cursor of the listener

The listener asks for the transactions above its cursor and never for those below. It therefore moves the cursor, in memory and
in the file that a restart resumes from, only over transactions whose deposits it has credited.
-/

namespace Paraloom.OffChain

open List DepositSample

namespace ListenerCursorAux

open ListenerAux

variable {π : Type} {poseidon : List Fr → Fr} {config : ListenerConfig} {s s' : ListenerSystem π} {p : Poll π}

end ListenerCursorAux

open ListenerCursorAux

namespace ListenerSample

open ListenerAux
open DepositSample (poseidon)

def signature (n : Nat) : Signature := LittleEndian.vec 64 n

def deposit (n : Nat) : FinalizedEntry := ⟨signature n, transaction []⟩

def config (cursorPath : Bool) : ListenerConfig := ⟨CoSignSample.programId, 1, cursorPath⟩

def start (cursorPath : Bool) : ListenerSystem Unit where
  finalized := [deposit 1]
  state := ⟨some (signature 1), ∅, if cursorPath then some (signature 1) else none⟩
  pool := ()
  credited := {(signatureName (signature 1), 0)}

def restarted (cursorPath : Bool) : ListenerSystem Unit :=
  { start cursorPath with
    finalized := [deposit 1] ++ [deposit 2, deposit 3]
    state := .start (config cursorPath) (start cursorPath).state.cursorFile }

def poll : Poll Unit := .ofList [deposit 1, deposit 2, deposit 3]

theorem exists_event : ∃ event, (deposit n).events poseidon CoSignSample.programId = [event] ∧
    event.signature = signatureName (signature n) := by
  have hlen : (instruction []).data.length = 8 + depositPayloadLen := by decide +kernel
  have hdecoded := decodeCompiledDeposit_of_call poseidon depositCall_eq
  rw [if_pos hlen] at hdecoded
  have hlisted : (transaction []).listed = [instruction []] := rfl
  have hevent : ∃ event, (transaction []).eventOf poseidon (signatureName (signature n))
      CoSignSample.programId (instruction []) = some event := by
    rw [FinalizedTransaction.eventOf, hdecoded]
    exact ⟨_, rfl⟩
  obtain ⟨event, hevent⟩ := hevent
  have hevents : (deposit n).events poseidon CoSignSample.programId = [event] := by
    rw [FinalizedEntry.events, deposit, extractDepositEvents_render _ _ _ rfl, hlisted]
    exact filterMap_cons_some hevent
  exact ⟨event, hevents, signature_of_mem_events (hevents ▸ mem_singleton_self event)⟩

theorem events_length (n : Nat) : ((deposit n).events poseidon CoSignSample.programId).length = 1 := by
  obtain ⟨event, hevents, -⟩ := exists_event
  rw [hevents, length_singleton]

theorem fresh : ([deposit 1, deposit 2, deposit 3].map FinalizedEntry.signature).Nodup := by decide +kernel

theorem poll_step (cursorPath : Bool) : (restarted cursorPath).Step poseidon (config cursorPath) (.poll poll)
    ((restarted cursorPath).afterPoll poseidon (config cursorPath) poll) :=
  .poll fresh (truthful_ofList fresh)

end ListenerSample

open ListenerSample ListenerAux
open DepositSample (poseidon)

end Paraloom.OffChain
