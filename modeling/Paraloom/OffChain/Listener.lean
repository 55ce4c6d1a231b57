import Paraloom.OffChain.Decoder
import Paraloom.OffChain.SettleTransact

/-!
# The deposit listener

Polls the signatures of the program above a cursor, fetches the transactions, credits the deposits in them to the pool and moves
the cursor up behind what it has credited. The cursor is written to a file, from which a restart resumes.
-/

namespace Paraloom.OffChain

/-! ## Crediting a deposit -/

/-- `DepositTx`, without its random id and its timestamp. -/
structure DepositTx where
  fromPublic : Bytes
  amount : UInt64
  outputCommitment : Bytes32
  outputNote : Note
  fee : UInt64

/-- `DepositTx::new_asset`. The commitment of a note is the one of the earlier circuit. -/
def DepositTx.newAsset (noteCommitment : Note → Bytes32) (fromPublic : Bytes) (amount : UInt64)
    (recipient randomness : Bytes32) (fee : UInt64) (assetId : AssetId) : DepositTx :=
  let outputNote : Note := { recipient, amount := amount - fee, randomness, assetId, memo := none }
  { fromPublic, amount, outputCommitment := noteCommitment outputNote, outputNote, fee }

def DepositTx.verify (noteCommitment : Note → Bytes32) (tx : DepositTx) : Bool :=
  ¬tx.amount < tx.fee ∧ tx.outputCommitment = noteCommitment tx.outputNote ∧ tx.outputNote.amount = tx.amount - tx.fee

inductive DepositError where
  | invalidTransaction (text : String)
  | depositFailed (cause : StorageError)

/-- How `process_deposit` ends. -/
inductive DepositResult where
  | returned (result : Except DepositError Unit)
  | panicked

/-- The commitment that is credited for an event: the leaf that the program has appended. -/
def DepositEvent.commitment (poseidon : List Fr → Fr) (event : DepositEvent) : Bytes32 :=
  toBytesLe (v3Commit poseidon (event.amount.toNat : Fr) (fromLeBytesModOrder event.recipient)
    (fromLeBytesModOrder event.randomness) (fromLeBytesModOrder event.assetId))

/-- With the flags of the two writes of `credit_commitment`. -/
def processDeposit (noteCommitment : Note → Bytes32) (poseidon : List Fr → Fr) (leafAcknowledged supplyAcknowledged : Bool)
    (event : DepositEvent) (node : OpenPool) : Option (DepositResult × OpenPool) :=
  let tx := DepositTx.newAsset noteCommitment event.sender.toList event.amount event.recipient event.randomness event.fee
    event.assetId
  if tx.verify noteCommitment = false then
    some (.returned (.error (.invalidTransaction "Deposit verification failed")), node)
  else
    (node.pool.creditCommitment node.store leafAcknowledged supplyAcknowledged (event.commitment poseidon) tx.outputNote
      event.amount event.assetId).map fun r =>
        (match r.result with
          | .returned (.ok _) => .returned (.ok ())
          | .returned (.error e) => .returned (.error (.depositFailed e))
          | .panicked => .panicked, ⟨r.pool, r.store⟩)

/-! ## The cursor -/

abbrev Signature : Type := List.Vector UInt8 64

/-- The text of a signature. -/
def signatureName (signature : Signature) : String := Base58.encode signature.toList

/-- `parse::<Signature>`. -/
def parseSignature (text : String) : Option Signature := Base58.decode 64 text

/-- The length of a page in production. -/
def signatureBatchLimit : Nat := 1000

def maxSignaturePages : Nat := 50

def seenSignatureCap : Nat := 100000

/-- What the listener is configured with: the program, the length of a page, and whether there is a path for the cursor. -/
structure ListenerConfig where
  programId : Bytes32
  batchLimit : Nat
  cursorPath : Bool

/-- `PollerState`, with the signature that the file at the path holds. -/
structure PollerState where
  lastSignature : Option Signature
  seenSignatures : Finset Signature
  cursorFile : Option Signature
  deriving DecidableEq

def PollerState.start (config : ListenerConfig) (cursorFile : Option Signature) : PollerState where
  lastSignature := if config.cursorPath then cursorFile else none
  seenSignatures := ∅
  cursorFile

/-- The removal of the file may fail. -/
def PollerState.clearCursor (config : ListenerConfig) (removed : Bool) (st : PollerState) : PollerState :=
  { st with lastSignature := none, cursorFile := if config.cursorPath && removed then none else st.cursorFile }

/-- The end of `poll_events`: the cursor is moved and written, and a failed write leaves the file as it was. -/
def PollerState.advanceCursor (config : ListenerConfig) (written : Bool) (st : PollerState) (signature : Signature) :
    PollerState :=
  { st with
    lastSignature := some signature
    cursorFile := if config.cursorPath && written then some signature else st.cursorFile }

/-- One step of the loop of `contiguous_cursor`: the cursor, whether it is frozen, and the failed signatures. -/
def cursorStep (failedSigs : Finset Signature) (acc : Option Signature × Bool × List Signature)
    (outcome : Signature × Bool) : Option Signature × Bool × List Signature :=
  let frozen := acc.2.1 || decide (outcome.1 ∈ failedSigs)
  if frozen then (acc.1, true, if outcome.2 then acc.2.2 else acc.2.2 ++ [outcome.1])
  else (if outcome.2 then some outcome.1 else acc.1, false, acc.2.2)

/-- The last signature before the first one with a failure, and the signatures with a failure. -/
def contiguousCursor (outcomes : List (Signature × Bool)) : Option Signature × List Signature :=
  let failedSigs := ((outcomes.filter fun o => o.2 = false).map Prod.fst).toFinset
  let acc := outcomes.foldl (cursorStep failedSigs) (none, false, [])
  (acc.1, acc.2.2)

/-! ## Fetching -/

/-- An entry of `getSignaturesForAddress`. -/
structure SignatureStatus where
  signature : String
  err : Option String

/-- What the RPC answers during one poll. The calls of each kind are counted. -/
structure ListenerRpc where
  getSignatures : (call : Nat) → (before boundary : Option Signature) → (limit : Nat) →
    Except NodeError (List SignatureStatus)
  getTransaction : (call : Nat) → Signature → Except NodeError ConfirmedTransaction

def isStaleUntilCursor : NodeError → Bool
  | .solanaRpc text => "-32020".toList <:+: text.toList
  | _ => false

/-- The loop over the pages, newest first, with the number of pages that are left. An error comes with the number of calls. -/
def scanPages (rpc : ListenerRpc) (limit : Nat) (boundary : Option Signature) :
    (pagesLeft call : Nat) → (before : Option Signature) → Except (NodeError × Nat) (List SignatureStatus)
  | 0, _, _ => .ok []
  | pagesLeft + 1, call, before =>
    match rpc.getSignatures call before boundary limit with
    | .error e => .error (e, call + 1)
    | .ok batch =>
      -- a short page has reached the cursor, and without a cursor only the newest page is taken
      if batch.length < limit ∨ boundary = none then .ok batch
      else
        match batch.getLast?.bind fun s => parseSignature s.signature with
        | none => .ok batch
        | some oldest =>
          match scanPages rpc limit boundary pagesLeft (call + 1) (some oldest) with
          | .error e => .error e
          | .ok older => .ok (batch ++ older)

/-- The signatures above the cursor. A cursor that the RPC no longer knows is dropped, and the scan starts anew without it. -/
def scanSignatures (config : ListenerConfig) (rpc : ListenerRpc) (removed : Bool) (st : PollerState) :
    Except NodeError (List SignatureStatus) × PollerState :=
  match scanPages rpc config.batchLimit st.lastSignature maxSignaturePages 0 none with
  | .ok signatures => (.ok signatures, st)
  | .error (e, calls) =>
    if st.lastSignature.isSome && isStaleUntilCursor e then
      let st := st.clearCursor config removed
      match scanPages rpc config.batchLimit none maxSignaturePages calls none with
      | .ok signatures => (.ok signatures, st)
      | .error (e, _) => (.error e, st)
    else (.error e, st)

/-- The signatures whose transactions are fetched, oldest first. -/
def toFetch (seen : Finset Signature) (signatures : List SignatureStatus) : List Signature :=
  signatures.reverse.filterMap fun s =>
    (parseSignature s.signature).bind fun sig => if s.err.isSome || decide (sig ∈ seen) then none else some sig

/-- The loop over the transactions: one failure ends the poll. Each event comes with its position in its transaction, for the
record. -/
def fetchTransactions (poseidon : List Fr → Fr) (config : ListenerConfig) (rpc : ListenerRpc) :
    (call : Nat) → List Signature → Except NodeError (List (DepositEvent × Nat))
  | _, [] => .ok []
  | call, sig :: sigs =>
    match rpc.getTransaction call sig with
    | .error e => .error e
    | .ok confirmed =>
      match fetchTransactions poseidon config rpc (call + 1) sigs with
      | .error e => .error e
      | .ok events =>
        .ok ((extractDepositEvents poseidon (signatureName sig) confirmed config.programId).zipIdx ++ events)

/-- A signature is marked as seen; the full set is emptied before. -/
def markSeen (seen : Finset Signature) (sig : Signature) : Finset Signature :=
  insert sig (if seenSignatureCap ≤ seen.card then ∅ else seen)

def fetchEvents (poseidon : List Fr → Fr) (config : ListenerConfig) (rpc : ListenerRpc) (removed : Bool)
    (st : PollerState) : Except NodeError (List (DepositEvent × Nat)) × PollerState :=
  match scanSignatures config rpc removed st with
  | (.error e, st) => (.error e, st)
  | (.ok signatures, st) =>
    let sigs := toFetch st.seenSignatures signatures
    match fetchTransactions poseidon config rpc 0 sigs with
    | .error e => (.error e, st)
    | .ok events => (.ok events, { st with seenSignatures := sigs.foldl markSeen st.seenSignatures })

/-! ## A poll -/

section Poll

variable {π : Type} (process : Nat → DepositEvent → π → Bool × π)

/-- The loop over the events. Each call of `process_deposit` returns whether it succeeded. -/
def processEvents : (call : Nat) → List (DepositEvent × Nat) → π → List ((DepositEvent × Nat) × Bool) × π
  | _, [], pool => ([], pool)
  | call, event :: events, pool =>
    let processed := process call event.1 pool
    let rest := processEvents (call + 1) events processed.2
    ((event, processed.1) :: rest.1, rest.2)

/-- What a poll ends with: the number of events processed, and for the record which ones were and which were not. -/
structure PollReturn (π : Type) where
  result : Except NodeError Nat
  outcomes : List ((DepositEvent × Nat) × Bool)
  state : PollerState
  pool : π

/-- The flags are for the removal and the write of the file of the cursor. -/
def pollEvents (poseidon : List Fr → Fr) (config : ListenerConfig) (rpc : ListenerRpc) (removed written : Bool)
    (st : PollerState) (pool : π) : PollReturn π :=
  match fetchEvents poseidon config rpc removed st with
  | (.error e, st) => ⟨.error e, [], st, pool⟩
  | (.ok events, st) =>
    let processed := processEvents process 0 events pool
    let outcomes := processed.1.filterMap fun o => (parseSignature o.1.1.signature).map fun sig => (sig, o.2)
    let advance := contiguousCursor outcomes
    let st := { st with seenSignatures := st.seenSignatures \ advance.2.toFinset }
    let st := match advance.1 with
      | some sig => st.advanceCursor config written sig
      | none => st
    ⟨.ok (processed.1.countP (·.2)), processed.1, st, processed.2⟩

end Poll

end Paraloom.OffChain
