import Paraloom.Lib.Checked
import Paraloom.Lib.Grouping

/-!
# Compute jobs and their results

What the compute layer is asked to run, and what it says about a job when it has run. A result is completed with output data or
has failed with an error.
-/

namespace Paraloom.OffChain

abbrev JobId : Type := String

abbrev ValidatorId : Type := String

inductive JobStatus where
  | pending
  | assigned
  | running
  | completed
  | failed (error : String)
  | timedOut
  deriving DecidableEq

structure JobResult where
  jobId : JobId
  status : JobStatus
  outputData : Option (List UInt8)
  error : Option String
  executionTimeMs : UInt64
  memoryUsedBytes : UInt64
  instructionsExecuted : UInt64

namespace JobResult

def success (jobId : JobId) (outputData : List UInt8) (executionTimeMs memoryUsedBytes instructionsExecuted : UInt64) :
    JobResult :=
  ⟨jobId, .completed, some outputData, none, executionTimeMs, memoryUsedBytes, instructionsExecuted⟩

def failure (jobId : JobId) (error : String) (executionTimeMs : UInt64) : JobResult :=
  ⟨jobId, .failed error, none, some error, executionTimeMs, 0, 0⟩

end JobResult

structure ResourceLimits where
  maxMemoryBytes : UInt64
  maxInstructions : UInt64
  timeoutSecs : UInt64

structure ComputeJob where
  id : JobId
  wasmCode : List UInt8
  inputData : List UInt8
  maxMemoryBytes : UInt64
  maxInstructions : UInt64
  timeoutSecs : UInt64
  status : JobStatus
  createdAt : UInt64
  completedAt : Option UInt64
  assignedTo : Option String

/-- `ComputeJob::new`, with the id and the time that it draws. -/
def ComputeJob.new (id : JobId) (createdAt : UInt64) (wasmCode inputData : List UInt8) (limits : ResourceLimits) : ComputeJob :=
  ⟨id, wasmCode, inputData, limits.maxMemoryBytes, limits.maxInstructions, limits.timeoutSecs, .pending, createdAt, none, none⟩

def ComputeJob.markRunning (job : ComputeJob) : ComputeJob := { job with status := .running }

/-!
## Agreement on the result of a compute job

A job is given to several validators, and their results are compared by their output, where a result without output counts as
one with the empty output. The largest group decides, and where two are largest, the one that the map of the groups iterates
over last.
-/

open Grouping

def verificationValidatorCount : Nat := 3

def consensusThreshold : Nat := 2

structure VerificationRequest where
  jobId : JobId
  validators : List ValidatorId
  createdAt : UInt64

structure ValidatorResult where
  validatorId : ValidatorId
  result : JobResult
  submittedAt : UInt64

inductive ConsensusResult where
  | agreed (result : JobResult)
  | disagreed (results : List ValidatorResult)
  | insufficient (received required : Nat)

def ValidatorResult.key (r : ValidatorResult) : List UInt8 := r.result.outputData.getD []

structure VerificationCoordinator where
  requests : Table JobId VerificationRequest
  results : Table JobId (List ValidatorResult)

namespace VerificationCoordinator

def new : VerificationCoordinator := ⟨∅, ∅⟩

def getResults (c : VerificationCoordinator) (jobId : JobId) : List ValidatorResult := (c.results.lookup jobId).getD []

def createVerificationRequest (c : VerificationCoordinator) (now : UInt64) (jobId : JobId) (validators : List ValidatorId) :
    Except String (VerificationRequest × VerificationCoordinator) :=
  if validators.length < verificationValidatorCount then
    .error s!"Insufficient validators: need {verificationValidatorCount}, got {validators.length}"
  else
    let request : VerificationRequest := ⟨jobId, validators, now⟩
    .ok (request, { c with requests := c.requests.insert jobId request })

def submitResult (c : VerificationCoordinator) (now : UInt64) (jobId : JobId) (validatorId : ValidatorId) (result : JobResult) :
    Except String VerificationCoordinator :=
  match c.requests.lookup jobId with
  | none => .error s!"No verification request for job {jobId}; result from {validatorId} rejected"
  | some request =>
    if validatorId ∉ request.validators then
      .error s!"Validator {validatorId} was not assigned to job {jobId}; result rejected"
    else
      let jobResults := c.getResults jobId
      -- a validator that has submitted is not heard again
      if jobResults.any (·.validatorId = validatorId) then .ok c
      else .ok { c with results := c.results.insert jobId (jobResults ++ [⟨validatorId, result, now⟩]) }

/-- With the order in which the map of the groups iterates. -/
def checkConsensus (c : VerificationCoordinator) (order : Table.Order (List UInt8) (List ValidatorResult)) (jobId : JobId) :
    Except String ConsensusResult :=
  match c.results.lookup jobId with
  | none => .ok (.insufficient 0 consensusThreshold)
  | some jobResults =>
    if jobResults.length < consensusThreshold then .ok (.insufficient jobResults.length consensusThreshold)
    else
      match maxByKey (·.2.length) (order.visit (groupBy ValidatorResult.key jobResults)) with
      | none => .error "No results to compare"
      | some ⟨_, []⟩ => .ok (.disagreed jobResults)
      | some ⟨_, first :: others⟩ =>
        if consensusThreshold ≤ others.length + 1 then .ok (.agreed first.result) else .ok (.disagreed jobResults)

end VerificationCoordinator

/-- A call of the coordinator. -/
inductive VerificationCall where
  | createVerificationRequest (jobId : JobId) (validators : List ValidatorId)
  | submitResult (jobId : JobId) (validatorId : ValidatorId) (result : JobResult)
  | checkConsensus (jobId : JobId)

namespace VerificationCoordinator

def after (c : VerificationCoordinator) (now : UInt64) : VerificationCall → VerificationCoordinator
  | .createVerificationRequest jobId validators =>
    match c.createVerificationRequest now jobId validators with
    | .ok (_, c') => c'
    | .error _ => c
  | .submitResult jobId validatorId result =>
    match c.submitResult now jobId validatorId result with
    | .ok c' => c'
    | .error _ => c
  | .checkConsensus _ => c

/-- One call, at some time. -/
def Step (c : VerificationCoordinator) (call : VerificationCall) (c' : VerificationCoordinator) : Prop :=
  ∃ now, c' = c.after now call

end VerificationCoordinator

end Paraloom.OffChain
