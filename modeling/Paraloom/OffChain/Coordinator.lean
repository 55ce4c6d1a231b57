import Paraloom.OffChain.VoteTally

/-!
# The task coordinator

A coordinator splits a task into chunks, one for each validator, and collects their results. It is the primary, or a standby,
which mirrors the snapshots in the heartbeats of its primary and promotes itself when they stop. Arithmetic that does not fit
panics.
-/

namespace Paraloom.OffChain

open Checked

/-! ## Tasks -/

abbrev TaskId : Type := String

inductive TaskType where
  | hashCalculation (start stop : UInt64) (algorithm : String)

inductive TaskStatus where
  | pending
  | assigned
  | running
  | completed
  | failed (error : String)
  deriving DecidableEq

structure Task where
  id : TaskId
  taskType : TaskType
  status : TaskStatus
  createdAt : UInt64
  assignedTo : Option String

inductive ResultData where
  | hashes (hashes : List (UInt64 × String)) (count : Nat)

structure TaskResult where
  taskId : TaskId
  executionTimeMs : UInt64
  data : ResultData

def Task.new (id : TaskId) (createdAt : UInt64) (taskType : TaskType) : Task := ⟨id, taskType, .pending, createdAt, none⟩

/-- The `Debug` form of a peer, under which a chunk names the validator it is assigned to. -/
def debugNode (node : NodeId) : String :=
  "NodeId([" ++ String.intercalate ", " (node.map fun byte => toString byte.toNat) ++ "])"

/-! ## Roles -/

inductive CoordinatorRole where
  | primary
  | standby (primary : NodeId) (lastHeartbeatAt stallThreshold : Nat)

namespace CoordinatorRole

def standbyOf (primary : NodeId) (stallThreshold now : Nat) : CoordinatorRole := .standby primary now stallThreshold

def isPrimary : CoordinatorRole → Bool
  | primary => true
  | standby .. => false

/-- `primary`: the node that a standby mirrors. -/
def mirrored : CoordinatorRole → Option NodeId
  | primary => none
  | standby node .. => some node

def isStalled (now : Nat) : CoordinatorRole → Bool
  | primary => false
  | standby _ lastHeartbeatAt stallThreshold => stallThreshold < now - lastHeartbeatAt

def recordHeartbeat (now : Nat) : CoordinatorRole → CoordinatorRole
  | primary => primary
  | standby node _ stallThreshold => standby node now stallThreshold

def promote : CoordinatorRole → CoordinatorRole × Option NodeId
  | primary => (primary, none)
  | standby previous .. => (primary, some previous)

@[simp] theorem isPrimary_recordHeartbeat (role : CoordinatorRole) : (role.recordHeartbeat now).isPrimary = role.isPrimary := by
  cases role <;> rfl

@[simp] theorem isPrimary_promote (role : CoordinatorRole) : role.promote.1.isPrimary = true := by
  cases role <;> rfl

end CoordinatorRole

/-! ## Coordinators -/

/-- A copy of the state of a coordinator. -/
structure CoordinatorSnapshot where
  validators : List NodeId
  activeTasks : Table TaskId Task
  parentTasks : Table TaskId TaskId
  results : Table TaskId TaskResult

structure Coordinator where
  validators : List NodeId
  activeTasks : Table TaskId Task
  results : Table TaskId TaskResult
  /-- The task that a chunk is a part of. -/
  parentTasks : Table TaskId TaskId
  role : CoordinatorRole
  heartbeatSequence : UInt64

structure HeartbeatRequest where
  primary : NodeId
  sequence : UInt64
  snapshot : CoordinatorSnapshot

structure HeartbeatResponse where
  accepted : Bool
  lastAppliedSequence : UInt64
  deriving DecidableEq

/-- The locks of a coordinator. -/
inductive CoordinatorMutex where
  | validators
  | activeTasks
  | results
  | parentTasks
  | role
  | heartbeatSequence
  deriving DecidableEq

namespace Coordinator

def new : Coordinator := ⟨[], ∅, ∅, ∅, .primary, 0⟩

def standbyOf (primary : NodeId) (stallThreshold now : Nat) : Coordinator :=
  { new with role := .standbyOf primary stallThreshold now }

/-- The four parts of the state that a snapshot copies, at one moment. -/
def held (c : Coordinator) : CoordinatorSnapshot := ⟨c.validators, c.activeTasks, c.parentTasks, c.results⟩

end Coordinator

/-! ## Splitting a task -/

/-- The ranges of the chunks, with their numbers. A sum that does not fit panics. -/
def splitFrom (stop chunkSize : Nat) : (indices : List Nat) → (current : Nat) → Option (List (Nat × Nat × Nat))
  | [], _ => some []
  | i :: indices, current => do
    let chunkEnd := min (← (checkedAdd current chunkSize).bind (checkedSub · 1)) stop
    if current ≤ stop then
      let next ← checkedAdd chunkEnd 1
      return (i, current, chunkEnd) :: (← splitFrom stop chunkSize indices next)
    else splitFrom stop chunkSize indices current

/-- With the clock at each chunk. -/
def splitTask (validators : List NodeId) (task : Task) (clock : Nat → UInt64) : Option (List Task) :=
  match task.taskType with
  | .hashCalculation start stop algorithm => do
    let numValidators := max validators.length 1
    let total ← checkedAdd (← checkedSub stop.toNat start.toNat) 1
    let chunkSize := (total + numValidators - 1) / numValidators
    let ranges ← splitFrom stop.toNat chunkSize (List.range numValidators) start.toNat
    return ranges.map fun (i, current, chunkEnd) =>
      Task.new (task.id ++ "-chunk-" ++ toString i) (clock i) (.hashCalculation (.ofNat current) (.ofNat chunkEnd) algorithm)

/-- A chunk on its way to the validator whose turn it is. -/
def Task.assign (chunk : Task) (validator : NodeId) : Task :=
  { chunk with assignedTo := some (debugNode validator), status := .assigned }

/-! ## Recording a result -/

/-- The checks of `handle_task_result` on the active tasks, and the mark they end with. -/
def completeTask (active : Table TaskId Task) (source : NodeId) (result : TaskResult) : Except String (Table TaskId Task) :=
  match active.lookup result.taskId with
  | none => .error ("result for unknown or inactive task " ++ result.taskId)
  | some task =>
    if task.assignedTo ≠ some (debugNode source) then
      .error ("result for " ++ result.taskId ++ " from a peer it was not assigned to")
    else if task.status = .completed then .error ("result for " ++ result.taskId ++ " already recorded")
    else .ok (active.insert result.taskId { task with status := .completed })

/-- `handle_task_error`: the task is marked as failed if it is active. -/
def failTask (active : Table TaskId Task) (taskId : TaskId) (error : String) : Table TaskId Task :=
  match active.lookup taskId with
  | none => active
  | some task => active.insert taskId { task with status := .failed error }

def allChunksCompleted (parentId : TaskId) (results : Table TaskId TaskResult) (parentTasks : Table TaskId TaskId) : Bool :=
  (parentTasks.entries.filter (·.2 = parentId)).all fun e => (results.lookup e.1).isSome

/-- The results that `aggregate_results` collects, in the order of the map. -/
def chunkResults (parentId : TaskId) (results : Table TaskId TaskResult) (parentTasks : Table TaskId TaskId) : List TaskResult :=
  (results.entries.filter fun e => parentTasks.lookup e.1 = some parentId).map (·.2)

/-- The arithmetic of `aggregate_results`, whose numbers are logged only. -/
def aggregate (chunks : List TaskResult) : Option Unit := do
  let _ ← chunks.foldlM (fun total result => checkedAdd total result.executionTimeMs.toNat) 0
  let maxTime := (chunks.map (·.executionTimeMs.toNat)).foldl max 0
  let hashes := (chunks.map fun result => match result.data with | .hashes hashes _ => hashes.length).sum
  if chunks.isEmpty then return () else
    let _ ← checkedMul hashes (if 0 < maxTime then maxTime else 1)
    return ()

end Paraloom.OffChain
