import Paraloom.OffChain.ComputeNode

/-!
# A coordinator and a worker

The coordinator submits jobs to the network, and the worker takes requests, runs jobs, reports results and answers queries. The
network may lose and reorder messages. Each event is one thing that one of them does.
-/

namespace Paraloom.OffChain

structure WorkerMessage where
  requestId : JobId
  message : ComputeMessage

structure ComputeSystem where
  coordinatorId : NodeId
  workerId : NodeId
  coordinator : ComputeNode
  worker : ComputeNode
  /-- The messages on their way to the worker. -/
  toWorker : List ComputeMessage
  toCoordinator : List WorkerMessage
  /-- The requests between the two parts of their handler. -/
  admitted : List JobExecution
  reportedJobs : Finset JobId
  /-- On record: the messages that the worker has handed to the network. -/
  sent : List WorkerMessage
  /-- On record: the jobs whose result the reporter has sent, in order. -/
  reports : List JobId

/-- What may happen next. The flag `sent` says whether the network takes the message of the event. -/
inductive SystemEvent where
  | submit (balance : LoadBalance) (job : ComputeJob) (now : Nat) (sent : Bool)
  /-- The coordinator asks for the result of a job. -/
  | query (jobId : JobId)
  /-- The worker gets one of the messages on their way, and draws an id and a time if it makes a job of it. -/
  | deliverToWorker (n : Nat) (drawnId : JobId) (createdAt : UInt64) (acknowledged : StoreOp → Bool) (sent : Bool)
  | submitAdmitted (n : Nat) (acknowledged : StoreOp → Bool) (sent : Bool)
  | startNext
  | finish (n : Nat) (run : WasmRun)
  | processResult (victim : JobId)
  /-- The reporter comes to the entry of a job. -/
  | report (jobId : JobId) (sent : Bool)
  /-- The reporter is through with its pass. -/
  | cleanUp
  | deliverToCoordinator (n : Nat) (acknowledged : StoreOp → Bool)
  | loseToWorker (n : Nat)
  | loseToCoordinator (n : Nat)

namespace ComputeSystem

/-- A fresh coordinator and a fresh worker, with the stores they may have. -/
def start (coordinatorId workerId : NodeId) (policy : ComputeAuthPolicy) (coordinatorStore workerStore : Option ComputeStorage)
    (validators : Table ValidatorId CapacityAnnouncement) : ComputeSystem where
  coordinatorId
  workerId
  coordinator := ⟨none, policy, some .new, some ⟨validators, ∅, ∅⟩, coordinatorStore, ∅⟩
  worker := ⟨some .new, policy, none, none, workerStore, ∅⟩
  toWorker := []
  toCoordinator := []
  admitted := []
  reportedJobs := ∅
  sent := []
  reports := []

/-- The worker hands a message to the network. -/
def send (s : ComputeSystem) (m : WorkerMessage) (taken : Bool) : ComputeSystem :=
  { s with sent := s.sent ++ [m], toCoordinator := if taken then s.toCoordinator ++ [m] else s.toCoordinator }

/-- Something happens in the executor of the worker. -/
def onExecutor (s : ComputeSystem) (f : JobExecutor → Option JobExecutor) : Option ComputeSystem :=
  (s.worker.executor.bind f).map fun x => { s with worker := { s.worker with executor := some x } }

def resultMessage (o : Outcome) : WorkerMessage := ⟨o.requestId, .ofResult o.result⟩

def handleAtWorker (s : ComputeSystem) (message : ComputeMessage) (drawnId : JobId) (createdAt : UInt64)
    (acknowledged : StoreOp → Bool) (sent : Bool) : ComputeSystem :=
  match message with
  | .request jobId wasmCode inputData limits =>
    match s.worker.admitRequest acknowledged s.coordinatorId jobId wasmCode inputData limits drawnId createdAt with
    | (_, .refused response) => s.send ⟨jobId, response⟩ sent
    | (worker, .admitted e) => { s with worker, admitted := s.admitted ++ [e] }
  | .query jobId =>
    match s.worker.answerQuery jobId with
    | none => s
    | some outcome => s.send (resultMessage outcome) sent
  | _ => s

def reportJob (s : ComputeSystem) (jobId : JobId) (sent : Bool) : Option ComputeSystem :=
  (s.worker.jobCoordinators.lookup jobId).bind fun coordinatorId =>
    if jobId ∈ s.reportedJobs then none
    else (s.worker.answerQuery jobId).map fun outcome =>
      let s' := s.send (resultMessage outcome) (sent && coordinatorId = s.coordinatorId)
      if sent then { s' with reportedJobs := insert jobId s'.reportedJobs, reports := s'.reports ++ [jobId] } else s'

/-- The job coordinator's message goes to the validator it has picked, which may be the worker. -/
def submitJob (s : ComputeSystem) (balance : LoadBalance) (job : ComputeJob) (now : Nat) (sent : Bool) : ComputeSystem :=
  let submission := s.coordinator.submitComputeJobToNetwork balance job now
  { s with
    coordinator := submission.1
    toWorker := match submission.2 with
      | .ok (nodeId, message) => if nodeId = s.workerId ∧ sent then s.toWorker ++ [message] else s.toWorker
      | .error _ => s.toWorker }

/-- The coordinator handles a message. A response is only logged. -/
def handleAtCoordinator (s : ComputeSystem) (acknowledged : StoreOp → Bool) (m : WorkerMessage) : ComputeSystem :=
  match m.message.toResult with
  | none => s
  | some result => { s with coordinator := s.coordinator.recordResult acknowledged result }

def advance (s : ComputeSystem) : SystemEvent → Option ComputeSystem
  | .submit balance job now sent => some (s.submitJob balance job now sent)
  | .query jobId => some { s with toWorker := s.toWorker ++ [.query jobId] }
  | .deliverToWorker n drawnId createdAt acknowledged sent =>
    s.toWorker[n]?.map fun message =>
      { s with toWorker := s.toWorker.eraseIdx n }.handleAtWorker message drawnId createdAt acknowledged sent
  | .submitAdmitted n acknowledged sent =>
    s.admitted[n]?.bind fun e => (s.worker.submitAdmitted acknowledged e).map fun (worker, response) =>
      { s with worker, admitted := s.admitted.eraseIdx n }.send ⟨e.requestId, response⟩ sent
  | .startNext => s.onExecutor fun x => some x.startNext
  | .finish n run => s.onExecutor (·.finish n run)
  | .processResult victim => s.onExecutor (·.processResult victim)
  | .report jobId sent => s.reportJob jobId sent
  | .cleanUp => some (if 1000 < s.reportedJobs.card then { s with reportedJobs := ∅ } else s)
  | .deliverToCoordinator n acknowledged =>
    s.toCoordinator[n]?.map fun m => { s with toCoordinator := s.toCoordinator.eraseIdx n }.handleAtCoordinator acknowledged m
  | .loseToWorker n => some { s with toWorker := s.toWorker.eraseIdx n }
  | .loseToCoordinator n => some { s with toCoordinator := s.toCoordinator.eraseIdx n }

def Step (s : ComputeSystem) (event : SystemEvent) (s' : ComputeSystem) : Prop := s.advance event = some s'

/-- What the coordinator says about a job. -/
def status (s : ComputeSystem) (jobId : JobId) : Option JobStatus := s.coordinator.manager.bind (·.getJobStatus jobId)

end ComputeSystem

end Paraloom.OffChain
