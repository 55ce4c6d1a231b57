import Paraloom.Lib.Interleaving
import Paraloom.OffChain.Coordinator

/-!
# The calls on a coordinator, lock by lock

Each method of the coordinator takes its locks one after another and drops most of them at once, so other calls proceed between
two of its critical sections. Three methods hold one lock while they take another.
-/

namespace Paraloom.OffChain

open Interleaving

/-! ## Calls on a standby -/

/-- Where a call of `apply_heartbeat` stands. -/
inductive HeartbeatPoint where
  | readRole
  /-- The coordinator is a primary: the sequence is read with the guard of the role. -/
  | refusedByPrimary
  /-- The heartbeat does not come from the primary that is mirrored. -/
  | refusedSource
  | writeSequence
  | writeValidators
  | writeActiveTasks
  | writeParentTasks
  | writeResults
  | writeRole
  | returned (response : HeartbeatResponse)
  deriving DecidableEq

/-- A call of `apply_heartbeat`, with the time it reads at its end. -/
structure HeartbeatCall where
  source : NodeId
  request : HeartbeatRequest
  now : Nat
  point : HeartbeatPoint

/-- A standby, with the heartbeats it has accepted on record, in the order in which it did. -/
structure Standby where
  coordinator : Coordinator
  accepted : List HeartbeatRequest

namespace HeartbeatCall

def asks (call : HeartbeatCall) : Option CoordinatorMutex :=
  match call.point with
  | .readRole | .writeRole => some .role
  | .refusedByPrimary | .refusedSource | .writeSequence => some .heartbeatSequence
  | .writeValidators => some .validators
  | .writeActiveTasks => some .activeTasks
  | .writeParentTasks => some .parentTasks
  | .writeResults => some .results
  | .returned _ => none

def holds (call : HeartbeatCall) : List CoordinatorMutex :=
  match call.point with
  | .refusedByPrimary => [.role]
  | _ => []

/-- One critical section of `apply_heartbeat`. -/
def proceed (call : HeartbeatCall) (s : Standby) : Standby × HeartbeatPoint :=
  let c := s.coordinator
  let snapshot := call.request.snapshot
  match call.point with
  | .readRole =>
    match c.role.mirrored with
    | none => (s, .refusedByPrimary)
    | some expected => (s, if call.source ≠ expected then .refusedSource else .writeSequence)
  | .refusedByPrimary | .refusedSource => (s, .returned ⟨false, c.heartbeatSequence⟩)
  | .writeSequence =>
    if call.request.sequence ≤ c.heartbeatSequence ∧ c.heartbeatSequence ≠ 0 then (s, .returned ⟨false, c.heartbeatSequence⟩)
    else (⟨{ c with heartbeatSequence := call.request.sequence }, s.accepted ++ [call.request]⟩, .writeValidators)
  | .writeValidators => ({ s with coordinator := { c with validators := snapshot.validators } }, .writeActiveTasks)
  | .writeActiveTasks => ({ s with coordinator := { c with activeTasks := snapshot.activeTasks } }, .writeParentTasks)
  | .writeParentTasks => ({ s with coordinator := { c with parentTasks := snapshot.parentTasks } }, .writeResults)
  | .writeResults => ({ s with coordinator := { c with results := snapshot.results } }, .writeRole)
  | .writeRole =>
    ({ s with coordinator := { c with role := c.role.recordHeartbeat call.now } }, .returned ⟨true, call.request.sequence⟩)
  | .returned response => (s, .returned response)

end HeartbeatCall

inductive StandbyCall where
  | applyHeartbeat (call : HeartbeatCall)
  /-- With what it returned, once it has. -/
  | tryPromoteIfStalled (now : Nat) (returned : Option (Option NodeId))

/-- One critical section. -/
def Coordinator.tryPromoteIfStalled (c : Coordinator) (now : Nat) : Coordinator × Option NodeId :=
  if c.role.isStalled now then ({ c with role := c.role.promote.1 }, c.role.promote.2) else (c, none)

def standbyProtocol : Protocol Standby StandbyCall CoordinatorMutex where
  asks
    | .applyHeartbeat call => call.asks
    | .tryPromoteIfStalled _ returned => if returned.isNone then some .role else none
  holds
    | .applyHeartbeat call => call.holds
    | .tryPromoteIfStalled _ _ => []
  proceed
    | .applyHeartbeat call, s => ((call.proceed s).1, .applyHeartbeat { call with point := (call.proceed s).2 })
    | .tryPromoteIfStalled now _, s =>
      ({ s with coordinator := (s.coordinator.tryPromoteIfStalled now).1 },
        .tryPromoteIfStalled now (some (s.coordinator.tryPromoteIfStalled now).2))

/-- The calls that may be made on a standby. -/
inductive StandbyArgs where
  | applyHeartbeat (source : NodeId) (request : HeartbeatRequest) (now : Nat)
  | tryPromoteIfStalled (now : Nat)

/-- A call before its first lock. -/
def StandbyArgs.start : StandbyArgs → StandbyCall
  | applyHeartbeat source request now => .applyHeartbeat ⟨source, request, now, .readRole⟩
  | tryPromoteIfStalled now => .tryPromoteIfStalled now none

/-- A fresh standby, on which the calls are about to be made. -/
def standbyStart (primary : NodeId) (stallThreshold now : Nat) (calls : Table Nat StandbyArgs) : Config Standby StandbyCall :=
  ⟨⟨.standbyOf primary stallThreshold now, []⟩, calls.mapValues StandbyArgs.start⟩

/-! ## Calls on a primary -/

/-- Where a call of `submit_task` stands. The number of a chunk and the chunks after it go along. -/
inductive SubmitPoint where
  | split
  | readValidators (chunks : List Task)
  | writeParentTasks (validators : List NodeId) (i : Nat) (chunk : Task) (rest : List Task)
  | writeActiveTasks (validators : List NodeId) (i : Nat) (chunk : Task) (rest : List Task)
  | returned (result : Except String TaskId)
  | panicked

/-- A call of `submit_task`, with the task it has made and the clock at each chunk. -/
structure SubmitCall where
  task : Task
  clock : Nat → UInt64
  point : SubmitPoint

namespace SubmitCall

def asks (call : SubmitCall) : Option CoordinatorMutex :=
  match call.point with
  | .split | .readValidators _ => some .validators
  | .writeParentTasks .. => some .parentTasks
  | .writeActiveTasks .. => some .activeTasks
  | .returned _ | .panicked => none

/-- The head of the loop over the chunks. -/
def nextChunk (call : SubmitCall) (validators : List NodeId) (i : Nat) : List Task → SubmitPoint
  | [] => .returned (.ok call.task.id)
  | chunk :: rest => .writeParentTasks validators i (chunk.assign (validators.getD (i % validators.length) [])) rest

/-- One critical section of `submit_task`. -/
def proceed (call : SubmitCall) (c : Coordinator) : Coordinator × SubmitPoint :=
  match call.point with
  | .split =>
    match splitTask c.validators call.task call.clock with
    | none => (c, .panicked)
    | some chunks => (c, .readValidators chunks)
  | .readValidators chunks =>
    (c, if c.validators.isEmpty then .returned (.error "No validators available") else call.nextChunk c.validators 0 chunks)
  | .writeParentTasks validators i chunk rest =>
    ({ c with parentTasks := c.parentTasks.insert chunk.id call.task.id }, .writeActiveTasks validators i chunk rest)
  | .writeActiveTasks validators i chunk rest =>
    ({ c with activeTasks := c.activeTasks.insert chunk.id chunk }, call.nextChunk validators (i + 1) rest)
  | .returned result => (c, .returned result)
  | .panicked => (c, .panicked)

end SubmitCall

/-- Where a call of `handle_task_result` stands. -/
inductive ResultPoint where
  | writeActiveTasks
  | writeResults
  /-- With the guard of the results. -/
  | readParentTasks
  /-- In `aggregate_results`. -/
  | readResults (parentId : TaskId)
  /-- In `aggregate_results`, with the guard of the results. -/
  | readAllParentTasks (parentId : TaskId)
  | returned (result : Except String Unit)
  | panicked

structure ResultCall where
  source : NodeId
  result : TaskResult
  point : ResultPoint

namespace ResultCall

def asks (call : ResultCall) : Option CoordinatorMutex :=
  match call.point with
  | .writeActiveTasks => some .activeTasks
  | .writeResults | .readResults _ => some .results
  | .readParentTasks | .readAllParentTasks _ => some .parentTasks
  | .returned _ | .panicked => none

def holds (call : ResultCall) : List CoordinatorMutex :=
  match call.point with
  | .readParentTasks | .readAllParentTasks _ => [.results]
  | _ => []

/-- One critical section of `handle_task_result`. -/
def proceed (call : ResultCall) (c : Coordinator) : Coordinator × ResultPoint :=
  match call.point with
  | .writeActiveTasks =>
    match completeTask c.activeTasks call.source call.result with
    | .error e => (c, .returned (.error e))
    | .ok activeTasks => ({ c with activeTasks }, .writeResults)
  | .writeResults => ({ c with results := c.results.insert call.result.taskId call.result }, .readParentTasks)
  | .readParentTasks =>
    match c.parentTasks.lookup call.result.taskId with
    | none => (c, .returned (.ok ()))
    | some parentId =>
      (c, if allChunksCompleted parentId c.results c.parentTasks then .readResults parentId else .returned (.ok ()))
  | .readResults parentId => (c, .readAllParentTasks parentId)
  | .readAllParentTasks parentId =>
    match aggregate (chunkResults parentId c.results c.parentTasks) with
    | none => (c, .panicked)
    | some _ => (c, .returned (.ok ()))
  | .returned result => (c, .returned result)
  | .panicked => (c, .panicked)

end ResultCall

/-- Where a call of `snapshot` stands, with the parts it has copied. -/
inductive SnapshotPoint where
  /-- In `next_heartbeat_request`. -/
  | writeSequence
  | readValidators
  | readActiveTasks (validators : List NodeId)
  | readParentTasks (validators : List NodeId) (activeTasks : Table TaskId Task)
  | readResults (validators : List NodeId) (activeTasks : Table TaskId Task) (parentTasks : Table TaskId TaskId)
  | returned (snapshot : CoordinatorSnapshot)

/-- A call of `snapshot`, or of `next_heartbeat_request` with the primary to name and the sequence it has stamped. -/
structure SnapshotCall where
  heartbeat : Option (NodeId × UInt64)
  point : SnapshotPoint

namespace SnapshotCall

def asks (call : SnapshotCall) : Option CoordinatorMutex :=
  match call.point with
  | .writeSequence => some .heartbeatSequence
  | .readValidators => some .validators
  | .readActiveTasks _ => some .activeTasks
  | .readParentTasks .. => some .parentTasks
  | .readResults .. => some .results
  | .returned _ => none

def holds (call : SnapshotCall) : List CoordinatorMutex :=
  match call.point with
  | .writeSequence | .returned _ => []
  | _ => if call.heartbeat.isSome then [.heartbeatSequence] else []

/-- One critical section of `snapshot` or `next_heartbeat_request`. -/
def proceed (call : SnapshotCall) (c : Coordinator) : Coordinator × SnapshotCall :=
  match call.point with
  | .writeSequence =>
    let sequence := UInt64.ofNat (Checked.satAdd c.heartbeatSequence.toNat 1)
    ({ c with heartbeatSequence := sequence }, ⟨call.heartbeat.map fun h => (h.1, sequence), .readValidators⟩)
  | .readValidators => (c, { call with point := .readActiveTasks c.validators })
  | .readActiveTasks validators => (c, { call with point := .readParentTasks validators c.activeTasks })
  | .readParentTasks validators activeTasks => (c, { call with point := .readResults validators activeTasks c.parentTasks })
  | .readResults validators activeTasks parentTasks =>
    (c, { call with point := .returned ⟨validators, activeTasks, parentTasks, c.results⟩ })
  | .returned _ => (c, call)

/-- What a call of `next_heartbeat_request` returns. -/
def request (call : SnapshotCall) : Option HeartbeatRequest :=
  match call.heartbeat, call.point with
  | some (primary, sequence), .returned snapshot => some ⟨primary, sequence, snapshot⟩
  | _, _ => none

end SnapshotCall

inductive PrimaryCall where
  | submitTask (call : SubmitCall)
  | handleTaskResult (call : ResultCall)
  | handleTaskError (taskId : TaskId) (error : String) (returned : Bool)
  | snapshot (call : SnapshotCall)

def primaryProtocol : Protocol Coordinator PrimaryCall CoordinatorMutex where
  asks
    | .submitTask call => call.asks
    | .handleTaskResult call => call.asks
    | .handleTaskError _ _ returned => if returned then none else some .activeTasks
    | .snapshot call => call.asks
  holds
    | .handleTaskResult call => call.holds
    | .snapshot call => call.holds
    | _ => []
  proceed
    | .submitTask call, c => ((call.proceed c).1, .submitTask { call with point := (call.proceed c).2 })
    | .handleTaskResult call, c => ((call.proceed c).1, .handleTaskResult { call with point := (call.proceed c).2 })
    | .handleTaskError taskId error _, c =>
      ({ c with activeTasks := failTask c.activeTasks taskId error }, .handleTaskError taskId error true)
    | .snapshot call, c => ((call.proceed c).1, .snapshot (call.proceed c).2)

/-- The calls that may be made on a primary. -/
inductive PrimaryArgs where
  /-- With the id and the time that are drawn for the task. -/
  | submitTask (taskType : TaskType) (id : TaskId) (createdAt : UInt64) (clock : Nat → UInt64)
  | handleTaskResult (source : NodeId) (result : TaskResult)
  | handleTaskError (taskId : TaskId) (error : String)
  | snapshot
  | nextHeartbeatRequest (primary : NodeId)

/-- A call before its first lock. -/
def PrimaryArgs.start : PrimaryArgs → PrimaryCall
  | submitTask taskType id createdAt clock => .submitTask ⟨.new id createdAt taskType, clock, .split⟩
  | handleTaskResult source result => .handleTaskResult ⟨source, result, .writeActiveTasks⟩
  | handleTaskError taskId error => .handleTaskError taskId error false
  | snapshot => .snapshot ⟨none, .readValidators⟩
  | nextHeartbeatRequest primary => .snapshot ⟨some (primary, 0), .writeSequence⟩

/-- A fresh primary with its validators, on which the calls are about to be made. -/
def primaryStart (validators : List NodeId) (calls : Table Nat PrimaryArgs) : Config Coordinator PrimaryCall :=
  ⟨{ Coordinator.new with validators }, calls.mapValues PrimaryArgs.start⟩

end Paraloom.OffChain
