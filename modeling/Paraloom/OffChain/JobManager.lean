import Paraloom.OffChain.ComputeNode

/-!
# The job manager

The queue of the manager and the loads of its validators. `assign_jobs` takes the whole queue out, goes through it while some
validator is available, and puts one job back when none is.
-/

namespace Paraloom.OffChain

def ValidatorCapacity.canAcceptJob (v : ValidatorCapacity) : Bool := v.activeJobs < v.maxConcurrentJobs

/-- The first of the available validators when they are sorted by their load factors. The factors are floating-point numbers, so
which one is first is left open. -/
structure LeastLoaded where
  first : List ValidatorCapacity → Option ValidatorCapacity
  first_mem : ∀ available v, first available = some v → v ∈ available
  first_none : ∀ available, first available = none → available = []

namespace JobManager

def updateHeartbeat (m : JobManager) (validatorId : ValidatorId) (now : Nat) : JobManager :=
  match m.validators.lookup validatorId with
  | some v => { m with validators := m.validators.insert validatorId { v with lastHeartbeat := now } }
  | none => m

def submitJob (m : JobManager) (job : ComputeJob) : JobManager := { m with pendingJobs := m.pendingJobs ++ [job] }

/-- No heartbeat is ahead of the clock. The age of one that is underflows, which panics. -/
def heartbeatsPast (m : JobManager) (now : Nat) : Bool := m.validators.entries.all (·.2.lastHeartbeat ≤ now)

/-- The validators that are alive and can accept a job, at a reading of the clock. -/
def availableValidators (m : JobManager) (now : Nat) : Option (List ValidatorCapacity) :=
  if m.heartbeatsPast now then
    some ((m.validators.entries.map (·.2)).filter fun v => now - v.lastHeartbeat < 30000 && v.canAcceptJob)
  else none

def assign (m : JobManager) (jobId : JobId) (validatorId : ValidatorId) : JobManager :=
  { m with
    validators := match m.validators.lookup validatorId with
      | some v => m.validators.insert validatorId { v with activeJobs := v.activeJobs + 1 }
      | none => m.validators
    assignments := m.assignments.insert jobId validatorId }

/-- The loop over the jobs that were taken out of the queue, with the clock at each turn. Returns the assignments that were made and
the jobs that are left when the loop ends. -/
def assignLoop (least : LeastLoaded) (clock : Nat → Nat) : Nat → List ComputeJob → JobManager × List (JobId × ValidatorId) →
    Option ((JobManager × List (JobId × ValidatorId)) × List ComputeJob)
  | turn, [], s => (s.1.availableValidators (clock turn)).map fun _ => (s, [])
  | turn, job :: jobs, (m, made) => (m.availableValidators (clock turn)).bind fun available =>
    match least.first available with
    | some v => assignLoop least clock (turn + 1) jobs (m.assign job.id v.validatorId, made ++ [(job.id, v.validatorId)])
    | none => some ((m, made), job :: jobs)

def assignAll (least : LeastLoaded) (clock : Nat → Nat) (m : JobManager) :
    Option ((JobManager × List (JobId × ValidatorId)) × List ComputeJob) :=
  assignLoop least clock 0 m.pendingJobs ({ m with pendingJobs := [] }, [])

/-- The job that found no validator is put back, and those behind it are dropped. -/
def assignJobs (least : LeastLoaded) (clock : Nat → Nat) (m : JobManager) : Option (JobManager × List (JobId × ValidatorId)) :=
  if m.pendingJobs.isEmpty then some (m, [])
  else (assignAll least clock m).map fun (s, left) => ({ s.1 with pendingJobs := s.1.pendingJobs ++ left.take 1 }, s.2)

/-- Returns the number of validators that were removed. -/
def cleanupStaleValidators (m : JobManager) (now : Nat) : Option (JobManager × Nat) :=
  if m.heartbeatsPast now then
    let stale := (m.validators.entries.filter fun e => 60000 < now - e.2.lastHeartbeat).map (·.1)
    some ({ m with validators := stale.foldl (fun t k => t.erase k) m.validators }, stale.length)
  else none

end JobManager

inductive ManagerCall where
  | registerValidator (capacity : ValidatorCapacity)
  | updateHeartbeat (validatorId : ValidatorId) (now : Nat)
  | submitJob (job : ComputeJob)
  | assignJobs (least : LeastLoaded) (clock : Nat → Nat)
  | submitResult (result : JobResult)
  | cleanupStaleValidators (now : Nat)

/-- The manager after a call that does not panic. -/
def JobManager.call (m : JobManager) : ManagerCall → Option JobManager
  | .registerValidator capacity => some (m.registerValidator capacity)
  | .updateHeartbeat validatorId now => some (m.updateHeartbeat validatorId now)
  | .submitJob job => some (m.submitJob job)
  | .assignJobs least clock => (m.assignJobs least clock).map (·.1)
  | .submitResult result => some (m.submitResult result)
  | .cleanupStaleValidators now => (m.cleanupStaleValidators now).map (·.1)

end Paraloom.OffChain
