import Paraloom.OffChain.ComputeNode

/-!
# Job distribution

What the job coordinator does with its assignments: a validator fetches its job, a result removes it, and a job whose
assignment times out or whose validator fails is assigned again, up to three times. The load of a validator is counted in three
ways: as announced, by the pending assignments, and by all of them.
-/

namespace Paraloom.OffChain

def maxJobRetries : Nat := 3

namespace JobAssignment

/-- With the clock. -/
def isTimedOut (a : JobAssignment) (now : Nat) : Bool := a.timeoutAt ≤ now

/-- With the clock. -/
def retry (a : JobAssignment) (newValidatorId : ValidatorId) (now : Nat) : JobAssignment :=
  { JobAssignment.new a.jobId newValidatorId now with retryCount := a.retryCount + 1 }

end JobAssignment

inductive AssignmentMap where
  | pending
  | active

/-- The orders in which the coordinator goes through its jobs and its validators. -/
abbrev JobOrder := Table.Order JobId JobAssignment

abbrev ValidatorOrder := Table.Order ValidatorId CapacityAnnouncement

namespace JobCoordinator

def assignments (c : JobCoordinator) : AssignmentMap → Table JobId JobAssignment
  | .pending => c.pendingAssignments
  | .active => c.activeAssignments

def assignedIn (assignments : Table JobId JobAssignment) (validatorId : ValidatorId) : Nat :=
  (assignments.entries.filter fun e => e.2.validatorId = validatorId).length

def getValidatorLoad (c : JobCoordinator) (validatorId : ValidatorId) : Nat :=
  assignedIn c.pendingAssignments validatorId + assignedIn c.activeAssignments validatorId

def hasAvailableCapacity (c : JobCoordinator) (announcement : CapacityAnnouncement) : Bool :=
  c.getValidatorLoad announcement.validatorId < announcement.maxConcurrentJobs

def removeValidator (c : JobCoordinator) (validatorId : ValidatorId) : JobCoordinator :=
  { c with validators := c.validators.erase validatorId }

def markJobFetched (c : JobCoordinator) (jobId : JobId) : JobCoordinator :=
  match c.pendingAssignments.lookup jobId with
  | none => c
  | some assignment => { c with
      pendingAssignments := c.pendingAssignments.erase jobId
      activeAssignments := c.activeAssignments.insert jobId assignment }

def removeAssignment (c : JobCoordinator) (jobId : JobId) : JobCoordinator :=
  { c with
    pendingAssignments := c.pendingAssignments.erase jobId
    activeAssignments := c.activeAssignments.erase jobId }

/-! ## Reassignment

The two callers of it, and the two maps in each, share one loop. -/

def withdraw (c : JobCoordinator) (jobId : JobId) : AssignmentMap → JobCoordinator
  | .pending => { c with pendingAssignments := c.pendingAssignments.erase jobId }
  | .active => { c with activeAssignments := c.activeAssignments.erase jobId }

def countedLoad (c : JobCoordinator) (map : AssignmentMap) (validatorId : ValidatorId) : Nat :=
  match map with
  | .pending => assignedIn c.pendingAssignments validatorId
  | .active => c.getValidatorLoad validatorId

/-- The validator with room and the smallest load, the first one if there are several. -/
def bestValidator (load : ValidatorId → Nat) (validators : List CapacityAnnouncement) : Option CapacityAnnouncement :=
  (validators.foldl (fun best v =>
    let currentLoad := load v.validatorId
    if currentLoad < v.maxConcurrentJobs ∧ currentLoad < best.2 then (some v, currentLoad) else best)
    ((none : Option CapacityAnnouncement), Checked.u64Max)).1

/-- One turn of the loop: the assignment is taken away, and the job is assigned again if it has a retry left and some validator has
room. Returns the jobs that were assigned again. -/
def reassignJob (map : AssignmentMap) (ν : ValidatorOrder) (now : Nat) :
    JobCoordinator × List JobId → JobId → JobCoordinator × List JobId
  | (c, reassigned), jobId =>
    match (c.assignments map).lookup jobId with
    | none => (c, reassigned)
    | some oldAssignment =>
      let c := c.withdraw jobId map
      if oldAssignment.retryCount < maxJobRetries then
        match bestValidator (c.countedLoad map) ((ν.visit c.validators).map (·.2)) with
        | some validator =>
          ({ c with pendingAssignments := c.pendingAssignments.insert jobId (oldAssignment.retry validator.validatorId now) },
            reassigned ++ [jobId])
        | none => (c, reassigned)
      else (c, reassigned)

def selectJobs (map : AssignmentMap) (ι : JobOrder) (selected : JobAssignment → Bool) (c : JobCoordinator) : List JobId :=
  ((ι.visit (c.assignments map)).filter fun e => selected e.2).map (·.1)

def reassignJobs (map : AssignmentMap) (ι : JobOrder) (ν : ValidatorOrder) (now : Nat) (selected : JobAssignment → Bool)
    (s : JobCoordinator × List JobId) : JobCoordinator × List JobId :=
  (selectJobs map ι selected s.1).foldl (reassignJob map ν now) s

/-- With the orders of the maps and the clock: first the pending assignments, then the active ones. -/
def handleTimeouts (ι ι' : JobOrder) (ν : ValidatorOrder) (now : Nat) (c : JobCoordinator) : JobCoordinator × List JobId :=
  reassignJobs .active ι' ν now (·.isTimedOut now) (reassignJobs .pending ι ν now (·.isTimedOut now) (c, []))

/-- Returns the number of jobs that were assigned again. -/
def handleValidatorFailure (ι ι' : JobOrder) (ν : ValidatorOrder)
    (now : Nat) (c : JobCoordinator) (validatorId : ValidatorId) : JobCoordinator × Nat :=
  let (c, reassigned) := reassignJobs .active ι' ν now (·.validatorId = validatorId)
    (reassignJobs .pending ι ν now (·.validatorId = validatorId) (c.removeValidator validatorId, []))
  (c, reassigned.length)

end JobCoordinator

/-! ## Calls -/

/-- A call of the coordinator, with what it reads from the clock and the orders of the maps it iterates over. -/
inductive DistributionCall where
  | updateValidatorCapacity (announcement : CapacityAnnouncement)
  | removeValidator (validatorId : ValidatorId)
  | assignJob (balance : LoadBalance) (jobId : JobId) (now : Nat)
  | markJobFetched (jobId : JobId)
  | removeAssignment (jobId : JobId)
  | handleTimeouts (ι ι' : JobOrder) (ν : ValidatorOrder) (now : Nat)
  | handleValidatorFailure (ι ι' : JobOrder) (ν : ValidatorOrder)
      (now : Nat) (validatorId : ValidatorId)

def JobCoordinator.call (c : JobCoordinator) : DistributionCall → JobCoordinator
  | .updateValidatorCapacity announcement => c.updateValidatorCapacity announcement
  | .removeValidator validatorId => c.removeValidator validatorId
  | .assignJob balance jobId now => (c.assignJob balance jobId now).1
  | .markJobFetched jobId => c.markJobFetched jobId
  | .removeAssignment jobId => c.removeAssignment jobId
  | .handleTimeouts ι ι' ν now => (c.handleTimeouts ι ι' ν now).1
  | .handleValidatorFailure ι ι' ν now validatorId => (c.handleValidatorFailure ι ι' ν now validatorId).1

end Paraloom.OffChain
