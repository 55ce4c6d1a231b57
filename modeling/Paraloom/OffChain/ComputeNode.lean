import Paraloom.OffChain.ComputeConsensus
import Paraloom.OffChain.TransactConsensus

/-!
# The compute layer of a node

A coordinator assigns a job to a validator and sends it a request. A worker that accepts the request makes a job of its own
from it, with an id that it draws. The result waits under that id, for the reporter and for queries. The executor records under
which id each of its jobs was requested, and nothing reads the record.
-/

namespace Paraloom.OffChain

/-! ## Messages -/

/-- The messages of the compute layer. -/
inductive ComputeMessage where
  | request (jobId : JobId) (wasmCode inputData : Bytes) (limits : ResourceLimits)
  | response (jobId : JobId) (accepted : Bool) (message : String)
  | query (jobId : JobId)
  | result (jobId : JobId) (status : JobStatus) (outputData : Option Bytes)
      (executionTimeMs memoryUsedBytes instructionsExecuted : UInt64)

namespace ComputeMessage

def jobId : ComputeMessage → JobId
  | request jobId .. | response jobId .. | query jobId | result jobId .. => jobId

/-- A result as it is sent, without its error. -/
def ofResult (r : JobResult) : ComputeMessage :=
  .result r.jobId r.status r.outputData r.executionTimeMs r.memoryUsedBytes r.instructionsExecuted

/-- The result that the receiver makes of a message. -/
def toResult : ComputeMessage → Option JobResult
  | result jobId status outputData executionTimeMs memoryUsedBytes instructionsExecuted =>
    some ⟨jobId, status, outputData, none, executionTimeMs, memoryUsedBytes, instructionsExecuted⟩
  | _ => none

end ComputeMessage

/-! ## Authorization -/

inductive ComputeAuthError where
  | unauthorizedSubmitter (submitter : NodeId)
  | memoryTooHigh (requested max : UInt64)
  | instructionsTooHigh (requested max : UInt64)
  | timeoutTooHigh (requested max : UInt64)

def ComputeAuthError.text : ComputeAuthError → String
  | unauthorizedSubmitter submitter => "submitter " ++ hexEncode submitter ++ " is not authorized to submit compute jobs"
  | memoryTooHigh requested max =>
    "requested memory " ++ toString requested ++ " B exceeds the " ++ toString max ++ " B ceiling"
  | instructionsTooHigh requested max =>
    "requested instruction budget " ++ toString requested ++ " exceeds the " ++ toString max ++ " ceiling"
  | timeoutTooHigh requested max => "requested timeout " ++ toString requested ++ "s exceeds the " ++ toString max ++ "s ceiling"

/-- Who may submit jobs, if not everyone, and how large a job may be. -/
structure ComputeAuthPolicy where
  authorizedSubmitters : Option (Finset NodeId)
  maxLimits : ResourceLimits

namespace ComputeAuthPolicy

/-- `open`: anyone, up to the default ceiling. -/
def openToAll : ComputeAuthPolicy := ⟨none, ⟨512 * 1024 * 1024, 10000000000, 300⟩⟩

def authorize (p : ComputeAuthPolicy) (submitter : NodeId) (requested : ResourceLimits) : Except ComputeAuthError Unit := do
  if let some allowed := p.authorizedSubmitters then
    Checked.require (submitter ∈ allowed) (.unauthorizedSubmitter submitter)
  Checked.require (requested.maxMemoryBytes ≤ p.maxLimits.maxMemoryBytes)
    (.memoryTooHigh requested.maxMemoryBytes p.maxLimits.maxMemoryBytes)
  Checked.require (requested.maxInstructions ≤ p.maxLimits.maxInstructions)
    (.instructionsTooHigh requested.maxInstructions p.maxLimits.maxInstructions)
  Checked.require (requested.timeoutSecs ≤ p.maxLimits.timeoutSecs)
    (.timeoutTooHigh requested.timeoutSecs p.maxLimits.timeoutSecs)

end ComputeAuthPolicy

/-! ## The executor -/

structure JobExecution where
  requestId : JobId
  job : ComputeJob

/-- The result of an execution. -/
structure Outcome where
  requestId : JobId
  result : JobResult

def maxConcurrentJobs : Nat := 4

def maxPendingJobs : Nat := 64

def maxCompletedResults : Nat := 1024

structure JobExecutor where
  pendingJobs : List JobExecution
  activeJobs : Table JobId ComputeJob
  /-- The tasks that have been spawned and have not ended. -/
  running : List JobExecution
  /-- The channel between the tasks and the executor. -/
  channel : List Outcome
  completedResults : Table JobId Outcome

/-- How the engine ends: with what the module returned, with a failure it reports itself, or with an error. -/
inductive WasmRun where
  | returned (outputData : Bytes) (executionTimeMs memoryUsedBytes instructionsExecuted : UInt64)
  | failed (error : String) (executionTimeMs : UInt64)
  | error (e : String)

/-- With what the executor makes of its error. -/
def executeJob (job : ComputeJob) : WasmRun → JobResult
  | .returned outputData executionTimeMs memoryUsedBytes instructionsExecuted =>
    .success job.id outputData executionTimeMs memoryUsedBytes instructionsExecuted
  | .failed error executionTimeMs => .failure job.id error executionTimeMs
  | .error e => .failure job.id ("Execution error: " ++ e) 0

@[simp] theorem executeJob_jobId (job : ComputeJob) (run : WasmRun) : (executeJob job run).jobId = job.id := by
  cases run <;> rfl

namespace JobExecutor

def new : JobExecutor := ⟨[], ∅, [], [], ∅⟩

def hasPendingCapacity (x : JobExecutor) : Bool := x.pendingJobs.length < maxPendingJobs

def submitJob (x : JobExecutor) (e : JobExecution) : Except String JobExecutor :=
  if maxPendingJobs ≤ x.pendingJobs.length then .error ("pending job queue is full (" ++ toString maxPendingJobs ++ " jobs)")
  else .ok { x with pendingJobs := x.pendingJobs ++ [e] }

/-- A turn of the loop of `start`: the next job gets a task of its own, if there is one and there is room. -/
def startNext (x : JobExecutor) : JobExecutor :=
  if maxConcurrentJobs ≤ x.activeJobs.entries.length then x
  else match x.pendingJobs with
    | [] => x
    | e :: pendingJobs =>
      let job := e.job.markRunning
      { x with pendingJobs, activeJobs := x.activeJobs.insert job.id job, running := x.running ++ [{ e with job }] }

/-- The end of the task of an execution. -/
def finish (x : JobExecutor) (n : Nat) (run : WasmRun) : Option JobExecutor :=
  x.running[n]?.map fun e =>
    { x with running := x.running.eraseIdx n, activeJobs := x.activeJobs.erase e.job.id,
             channel := x.channel ++ [⟨e.requestId, executeJob e.job run⟩] }

/-- One turn of the loop of `process_results`. The result that makes room is an arbitrary one. -/
def processResult (x : JobExecutor) (victim : JobId) : Option JobExecutor :=
  match x.channel with
  | [] => none
  | outcome :: channel =>
    let completed := if outcome.result.jobId ∉ x.completedResults ∧ maxCompletedResults ≤ x.completedResults.entries.length
      then x.completedResults.erase victim else x.completedResults
    some { x with channel, completedResults := completed.insert outcome.result.jobId outcome }

def getJobResult (x : JobExecutor) (jobId : JobId) : Option Outcome := x.completedResults.lookup jobId

end JobExecutor

/-! ## The job manager and the job coordinator -/

structure ValidatorCapacity where
  validatorId : ValidatorId
  activeJobs : Nat
  maxConcurrentJobs : Nat
  lastHeartbeat : Nat

structure JobManager where
  validators : Table ValidatorId ValidatorCapacity
  pendingJobs : List ComputeJob
  /-- The validator of each assignment. -/
  assignments : Table JobId ValidatorId
  results : Table JobId JobResult

namespace JobManager

def new : JobManager := ⟨∅, [], ∅, ∅⟩

def registerValidator (m : JobManager) (capacity : ValidatorCapacity) : JobManager :=
  { m with validators := m.validators.insert capacity.validatorId capacity }

/-- The validators after one of the jobs of an assignment has ended. -/
def release (m : JobManager) (jobId : JobId) : Table ValidatorId ValidatorCapacity :=
  match m.assignments.lookup jobId with
  | none => m.validators
  | some validatorId =>
    match m.validators.lookup validatorId with
    | none => m.validators
    | some v => m.validators.insert validatorId { v with activeJobs := v.activeJobs - 1 }

def submitResult (m : JobManager) (result : JobResult) : JobManager :=
  { m with validators := m.release result.jobId, results := m.results.insert result.jobId result }

def getJobStatus (m : JobManager) (jobId : JobId) : Option JobStatus :=
  match m.results.lookup jobId with
  | some result => some result.status
  | none =>
    if jobId ∈ m.assignments then some .running
    else if m.pendingJobs.any (·.id = jobId) then some .pending
    else none

end JobManager

structure CapacityAnnouncement where
  validatorId : ValidatorId
  maxConcurrentJobs : Nat
  currentLoad : Nat

def CapacityAnnouncement.availableCapacity (a : CapacityAnnouncement) : Nat := a.maxConcurrentJobs - a.currentLoad

structure JobAssignment where
  jobId : JobId
  validatorId : ValidatorId
  assignedAt : Nat
  timeoutAt : Nat
  retryCount : Nat

/-- `JobAssignment::new`, with `DEFAULT_JOB_TIMEOUT_SECS`. -/
def JobAssignment.new (jobId : JobId) (validatorId : ValidatorId) (now : Nat) : JobAssignment :=
  ⟨jobId, validatorId, now, now + 300, 0⟩

/-- The choice among the validators with room, by their load factors and the order of the map. The factors are floating-point
numbers, so which one is chosen is left open. -/
structure LoadBalance where
  pick : List CapacityAnnouncement → Option CapacityAnnouncement
  pick_mem : ∀ candidates v, pick candidates = some v → v ∈ candidates
  pick_none : ∀ candidates, pick candidates = none → candidates = []

/-- The first of the candidates. -/
def LoadBalance.first : LoadBalance where
  pick := List.head?
  pick_mem _ _ h := List.mem_of_mem_head? h
  pick_none _ h := List.head?_eq_none_iff.mp h

structure JobCoordinator where
  validators : Table ValidatorId CapacityAnnouncement
  pendingAssignments : Table JobId JobAssignment
  activeAssignments : Table JobId JobAssignment

namespace JobCoordinator

def new : JobCoordinator := ⟨∅, ∅, ∅⟩

def updateValidatorCapacity (c : JobCoordinator) (announcement : CapacityAnnouncement) : JobCoordinator :=
  { c with validators := c.validators.insert announcement.validatorId announcement }

def assignJob (balance : LoadBalance) (c : JobCoordinator) (jobId : JobId) (now : Nat) : JobCoordinator × Option JobAssignment :=
  match balance.pick ((c.validators.entries.map (·.2)).filter (0 < ·.availableCapacity)) with
  | none => (c, none)
  | some v =>
    let assignment := JobAssignment.new jobId v.validatorId now
    ({ c with pendingAssignments := c.pendingAssignments.insert jobId assignment }, some assignment)

def assignment (c : JobCoordinator) (jobId : JobId) : Option JobAssignment :=
  (c.pendingAssignments.lookup jobId).or (c.activeAssignments.lookup jobId)

end JobCoordinator

/-! ## The store -/

/-- The writes of the compute store, each of which may fail; the node logs the failure and goes on. -/
inductive StoreOp where
  | addPending
  | removePending
  | putActive
  | removeActive
  | putResult

structure ComputeStorage where
  pendingJobs : Table JobId ComputeJob
  activeJobs : Table JobId ComputeJob
  completedResults : Table JobId JobResult

namespace ComputeStorage

variable (acknowledged : StoreOp → Bool)

def addPendingJob (s : ComputeStorage) (job : ComputeJob) : ComputeStorage :=
  if acknowledged .addPending then { s with pendingJobs := s.pendingJobs.insert job.id job } else s

def removePendingJob (s : ComputeStorage) (jobId : JobId) : ComputeStorage :=
  if acknowledged .removePending then { s with pendingJobs := s.pendingJobs.erase jobId } else s

def markJobActive (s : ComputeStorage) (job : ComputeJob) : ComputeStorage :=
  if acknowledged .putActive
  then ({ s with activeJobs := s.activeJobs.insert job.id job } : ComputeStorage).removePendingJob acknowledged job.id else s

def removeActiveJob (s : ComputeStorage) (jobId : JobId) : ComputeStorage :=
  if acknowledged .removeActive then { s with activeJobs := s.activeJobs.erase jobId } else s

def storeResult (s : ComputeStorage) (result : JobResult) : ComputeStorage :=
  if acknowledged .putResult
  then ({ s with completedResults := s.completedResults.insert result.jobId result } : ComputeStorage).removeActiveJob
    acknowledged result.jobId else s

end ComputeStorage

/-! ## The node -/

structure ComputeNode where
  executor : Option JobExecutor
  computeAuth : ComputeAuthPolicy
  manager : Option JobManager
  coordinator : Option JobCoordinator
  storage : Option ComputeStorage
  /-- Whom the result of each job is reported to. -/
  jobCoordinators : Table JobId NodeId

/-- Why `hex::decode` fails. -/
inductive HexError where
  | oddLength
  | invalidCharacter (c : UInt8) (index : Nat)

/-- The value of a hexadecimal digit. -/
def hexDigit (c : UInt8) : Option UInt8 :=
  if 48 ≤ c ∧ c ≤ 57 then some (c - 48)
  else if 97 ≤ c ∧ c ≤ 102 then some (c - 87)
  else if 65 ≤ c ∧ c ≤ 70 then some (c - 55)
  else none

def hexPairs : (index : Nat) → Bytes → Except HexError Bytes
  | index, high :: low :: rest => do
    let h ← Checked.okOr (hexDigit high) (.invalidCharacter high index)
    let l ← Checked.okOr (hexDigit low) (.invalidCharacter low (index + 1))
    let bytes ← hexPairs (index + 2) rest
    return (h * 16 + l) :: bytes
  | _, _ => .ok []

/-- `hex::decode`. -/
def hexDecode (text : String) : Except HexError Bytes :=
  if (utf8 text).length % 2 ≠ 0 then .error .oddLength else hexPairs 0 (utf8 text)

/-- Why a submission fails before the message is handed to the network. -/
inductive SubmitError where
  /-- "This node is not a coordinator". -/
  | notCoordinator
  /-- "No available validators for job assignment". -/
  | noValidators
  /-- "Invalid validator ID format: …". -/
  | invalidValidatorId (e : HexError)

namespace ComputeNode

def registerComputeValidator (node : ComputeNode) (capacity : ValidatorCapacity) : Except SubmitError ComputeNode :=
  match node.manager with
  | none => .error .notCoordinator
  | some manager => .ok { node with
      manager := some (manager.registerValidator capacity)
      coordinator := node.coordinator.map (·.updateValidatorCapacity ⟨capacity.validatorId, capacity.maxConcurrentJobs, 0⟩) }

/-- Up to the message and the node it goes to. -/
def submitComputeJobToNetwork (balance : LoadBalance) (node : ComputeNode) (job : ComputeJob) (now : Nat) :
    ComputeNode × Except SubmitError (NodeId × ComputeMessage) :=
  match node.coordinator with
  | none => (node, .error .notCoordinator)
  | some coordinator =>
    match coordinator.assignJob balance job.id now with
    | (_, none) => (node, .error .noValidators)
    | (coordinator, some assignment) =>
      ({ node with coordinator := some coordinator }, match hexDecode assignment.validatorId with
        | .error e => .error (.invalidValidatorId e)
        | .ok nodeId => .ok (nodeId, .request job.id job.wasmCode job.inputData
            ⟨job.maxMemoryBytes, job.maxInstructions, job.timeoutSecs⟩))

theorem submitComputeJobToNetwork_keeps (balance : LoadBalance) (node : ComputeNode) (job : ComputeJob) (now : Nat) :
    (node.submitComputeJobToNetwork balance job now).1.storage = node.storage ∧
      (node.submitComputeJobToNetwork balance job now).1.manager = node.manager := by
  unfold submitComputeJobToNetwork
  split
  · exact ⟨rfl, rfl⟩
  · split <;> exact ⟨rfl, rfl⟩

/-- What becomes of a request: it is answered at once, or it has become a job that is about to be submitted. -/
inductive Admission where
  | refused (response : ComputeMessage)
  | admitted (e : JobExecution)

def admitRequest (acknowledged : StoreOp → Bool) (node : ComputeNode) (source : NodeId) (jobId : JobId)
    (wasmCode inputData : Bytes) (limits : ResourceLimits) (drawnId : JobId) (createdAt : UInt64) : ComputeNode × Admission :=
  match node.executor with
  | none => (node, .refused (.response jobId false "This node is not configured for compute execution"))
  | some executor =>
    match node.computeAuth.authorize source limits with
    | .error deny => (node, .refused (.response jobId false ("Job rejected: " ++ deny.text)))
    | .ok _ =>
      if !executor.hasPendingCapacity then (node, .refused (.response jobId false "Job rejected: pending queue full"))
      else
        let job := ComputeJob.new drawnId createdAt wasmCode inputData limits
        ({ node with jobCoordinators := node.jobCoordinators.insert job.id source
                     storage := node.storage.map (·.addPendingJob acknowledged job) }, .admitted ⟨jobId, job⟩)

/-- The rest of the handler of a request, with the response. Another request may have taken the last place in the queue. -/
def submitAdmitted (acknowledged : StoreOp → Bool) (node : ComputeNode) (e : JobExecution) :
    Option (ComputeNode × ComputeMessage) :=
  node.executor.map fun executor =>
    match executor.submitJob e with
    | .ok executor =>
      ({ node with
          executor := some executor
          storage := node.storage.map fun s => (s.removePendingJob acknowledged e.job.id).markJobActive acknowledged e.job },
        .response e.job.id true "Job accepted for execution")
    | .error error =>
      ({ node with storage := node.storage.map (·.removePendingJob acknowledged e.job.id) },
        .response e.job.id false ("Job rejected: " ++ error))

def answerQuery (node : ComputeNode) (jobId : JobId) : Option Outcome := node.executor.bind (·.getJobResult jobId)

/-- The handler of a result. -/
def recordResult (acknowledged : StoreOp → Bool) (node : ComputeNode) (result : JobResult) : ComputeNode :=
  { node with
    storage := node.storage.map fun s => (s.removeActiveJob acknowledged result.jobId).storeResult acknowledged result
    manager := node.manager.map (·.submitResult result) }

end ComputeNode

/-- What reaches a coordinator: calls of the two methods, and messages with the peer that the transport has authenticated. -/
inductive CoordinatorEvent where
  | register (capacity : ValidatorCapacity)
  | submit (balance : LoadBalance) (job : ComputeJob) (now : Nat)
  | receive (source : NodeId) (message : ComputeMessage) (acknowledged : StoreOp → Bool)

namespace ComputeNode

/-- What a coordinator does with the validators it is told of, the jobs it is given and the results it receives. -/
def handle (node : ComputeNode) : CoordinatorEvent → ComputeNode
  | .register capacity =>
    match node.registerComputeValidator capacity with
    | .error _ => node
    | .ok node => node
  | .submit balance job now => (node.submitComputeJobToNetwork balance job now).1
  | .receive _ message acknowledged =>
    match message.toResult with
    | none => node
    | some result => node.recordResult acknowledged result

def storedResult (node : ComputeNode) (jobId : JobId) : Option JobResult :=
  node.storage.bind (·.completedResults.lookup jobId)

def managedResult (node : ComputeNode) (jobId : JobId) : Option JobResult := node.manager.bind (·.results.lookup jobId)

/-- The peer that a job is assigned to. -/
def assignee (node : ComputeNode) (jobId : JobId) : Option NodeId :=
  (node.coordinator.bind (·.assignment jobId)).bind fun assignment => (hexDecode assignment.validatorId).toOption

end ComputeNode

end Paraloom.OffChain
