import Paraloom.Lib.Run
import Paraloom.OffChain.ComputeSystem

/-!
# One id for a job

The worker makes a job of its own from a request and draws an id for it, and everything it says about the job carries that id.
Only where this is the id it was asked for does the coordinator learn what became of its job.
-/

namespace Paraloom.OffChain

open List Option

def ComputeMessage.requestedId : ComputeMessage → Option JobId
  | request jobId .. => some jobId
  | _ => none

/-- The worker draws the id that it was asked for, and the reporter has not reported so many jobs that it forgets them. -/
def SystemEvent.Faithful (s : ComputeSystem) : SystemEvent → Prop
  | deliverToWorker n drawnId .. => ∀ jobId ∈ s.toWorker[n]?.bind ComputeMessage.requestedId, drawnId = jobId
  | cleanUp => s.reportedJobs.card ≤ 1000
  | _ => True

instance (s : ComputeSystem) : DecidablePred (SystemEvent.Faithful s)
  | .deliverToWorker n _ .. => inferInstanceAs (Decidable (∀ jobId ∈ s.toWorker[n]?.bind ComputeMessage.requestedId, _))
  | .cleanUp => inferInstanceAs (Decidable (_ ≤ _))
  | .submit .. | .query _ | .submitAdmitted .. | .startNext | .finish .. | .processResult _ | .report .. |
    .deliverToCoordinator .. | .loseToWorker _ | .loseToCoordinator _ => inferInstanceAs (Decidable True)

/-- A step in which the worker keeps to the id of the request and the reporter forgets nothing. -/
def FaithfulStep (s : ComputeSystem) (event : SystemEvent) (s' : ComputeSystem) : Prop := s.Step event s' ∧ event.Faithful s

/-- The message says that its job is completed. -/
def WorkerMessage.SaysCompleted (m : WorkerMessage) : Prop := ∃ result, m.message.toResult = some result ∧ result.status = .completed

namespace IdentityAux

/-- The jobs of an executor and their results go under the ids they were requested under. -/
structure Tagged (x : JobExecutor) : Prop where
  pendingJobs : ∀ e ∈ x.pendingJobs, e.job.id = e.requestId
  running : ∀ e ∈ x.running, e.job.id = e.requestId
  channel : ∀ o ∈ x.channel, o.result.jobId = o.requestId
  completedResults : ∀ jobId o, x.completedResults.lookup jobId = some o → o.result.jobId = o.requestId

variable {x x' : JobExecutor} {e : JobExecution}

theorem tagged_new : Tagged .new := ⟨by simp [JobExecutor.new], by simp [JobExecutor.new], by simp [JobExecutor.new], nofun⟩

theorem Tagged.submitJob (h : Tagged x) (he : e.job.id = e.requestId) (hx : x.submitJob e = .ok x') : Tagged x' := by
  unfold JobExecutor.submitJob at hx
  split at hx
  · cases hx
  · obtain rfl := Except.ok.inj hx
    exact ⟨forall_mem_append.mpr ⟨h.pendingJobs, forall_mem_singleton.mpr he⟩, h.running, h.channel, h.completedResults⟩

theorem Tagged.startNext (h : Tagged x) : Tagged x.startNext := by
  unfold JobExecutor.startNext
  split
  · exact h
  · split
    · exact h
    · rename_i e pendingJobs hpending
      have hhead : ∀ e' ∈ e :: pendingJobs, e'.job.id = e'.requestId := hpending ▸ h.pendingJobs
      obtain ⟨he, hrest⟩ := forall_mem_cons.mp hhead
      exact ⟨hrest, forall_mem_append.mpr ⟨h.running, forall_mem_singleton.mpr he⟩, h.channel, h.completedResults⟩

theorem Tagged.finish (h : Tagged x) (hx : x.finish n run = some x') : Tagged x' := by
  obtain ⟨e, he, rfl⟩ := map_eq_some_iff.mp hx
  have hresult : (executeJob e.job run).jobId = e.requestId :=
    (executeJob_jobId e.job run).trans (h.running e (mem_of_getElem? he))
  exact ⟨h.pendingJobs, fun e' he' => h.running e' (mem_of_mem_eraseIdx he'),
    forall_mem_append.mpr ⟨h.channel, forall_mem_singleton.mpr hresult⟩, h.completedResults⟩

theorem Tagged.processResult (h : Tagged x) (hx : x.processResult victim = some x') : Tagged x' := by
  unfold JobExecutor.processResult at hx
  split at hx
  · cases hx
  · rename_i outcome channel hchannel
    obtain rfl := some.inj hx
    have hall : ∀ o ∈ outcome :: channel, o.result.jobId = o.requestId := hchannel ▸ h.channel
    obtain ⟨houtcome, hrest⟩ := forall_mem_cons.mp hall
    refine ⟨h.pendingJobs, h.running, hrest, ?_⟩
    intro jobId o ho
    rcases Table.lookup_insert_eq_some.mp ho with ⟨-, rfl⟩ | ⟨-, ho⟩
    · exact houtcome
    · -- what was there before is still there, or has made room
      split at ho
      · rw [Table.lookup_erase_if] at ho
        split at ho
        · cases ho
        · exact h.completedResults jobId o ho
      · exact h.completedResults jobId o ho

/-- What holds in every state of a faithful run. -/
structure Kept (s : ComputeSystem) : Prop where
  executor : ∀ x, s.worker.executor = some x → Tagged x
  admitted : ∀ e ∈ s.admitted, e.job.id = e.requestId
  sent : ∀ m ∈ s.sent, m.message.jobId = m.requestId
  toCoordinator : ∀ m ∈ s.toCoordinator, m.message.jobId = m.requestId
  reports : s.reports.Nodup
  reported : ∀ jobId ∈ s.reports, jobId ∈ s.reportedJobs
  manager : s.coordinator.manager.isSome = true

variable {s s' : ComputeSystem} {m : WorkerMessage}

theorem kept_start (coordinatorId workerId : NodeId) (policy : ComputeAuthPolicy)
    (coordinatorStore workerStore : Option ComputeStorage) (validators : Table ValidatorId CapacityAnnouncement) :
    Kept (.start coordinatorId workerId policy coordinatorStore workerStore validators) where
  executor x hx := some.inj hx ▸ tagged_new
  admitted := by simp [ComputeSystem.start]
  sent := by simp [ComputeSystem.start]
  toCoordinator := by simp [ComputeSystem.start]
  reports := nodup_nil
  reported := by simp [ComputeSystem.start]
  manager := rfl

theorem Kept.send (h : Kept s) (hm : m.message.jobId = m.requestId) (taken : Bool) : Kept (s.send m taken) := by
  refine { h with sent := forall_mem_append.mpr ⟨h.sent, forall_mem_singleton.mpr hm⟩, toCoordinator := ?_ }
  cases taken with
  | false => exact h.toCoordinator
  | true => exact forall_mem_append.mpr ⟨h.toCoordinator, forall_mem_singleton.mpr hm⟩

theorem Kept.onExecutor (h : Kept s) (hf : ∀ x x', Tagged x → f x = some x' → Tagged x') (hs : s.onExecutor f = some s') :
    Kept s' := by
  obtain ⟨x', hx', rfl⟩ := map_eq_some_iff.mp hs
  obtain ⟨x, hx, hfx⟩ := bind_eq_some_iff.mp hx'
  refine { h with executor := ?_ }
  intro y hy
  obtain rfl := some.inj hy
  exact hf x x' (h.executor x hx) hfx

theorem Kept.answer (h : Kept s) (ho : s.worker.answerQuery jobId = some o) :
    (ComputeSystem.resultMessage o).message.jobId = (ComputeSystem.resultMessage o).requestId := by
  obtain ⟨x, hx, hresult⟩ := bind_eq_some_iff.mp ho
  exact (h.executor x hx).completedResults jobId o hresult

/-- A request is answered under its own id, or becomes a job with the id that is drawn; the executor is not involved. -/
theorem admitRequest_cases (acknowledged : StoreOp → Bool) (node : ComputeNode) (source : NodeId) (jobId : JobId)
    (wasmCode inputData : Bytes) (limits : ResourceLimits) (drawnId : JobId) (createdAt : UInt64) :
    (∃ response, response.jobId = jobId ∧
      node.admitRequest acknowledged source jobId wasmCode inputData limits drawnId createdAt = (node, .refused response)) ∨
    ∃ node' job, node'.executor = node.executor ∧ job.id = drawnId ∧
      node.admitRequest acknowledged source jobId wasmCode inputData limits drawnId createdAt =
        (node', .admitted ⟨jobId, job⟩) := by
  unfold ComputeNode.admitRequest
  split
  · exact .inl ⟨_, rfl, rfl⟩
  · split
    · exact .inl ⟨_, rfl, rfl⟩
    · split
      · exact .inl ⟨_, rfl, rfl⟩
      · let job := ComputeJob.new drawnId createdAt wasmCode inputData limits
        refine .inr ⟨{ node with jobCoordinators := node.jobCoordinators.insert job.id source
                                 storage := node.storage.map (·.addPendingJob acknowledged job) }, job, rfl, rfl, rfl⟩

theorem Kept.handleAtWorker (h : Kept s) (hdrawn : ∀ jobId ∈ message.requestedId, drawnId = jobId) (createdAt : UInt64)
    (acknowledged : StoreOp → Bool) (sent : Bool) : Kept (s.handleAtWorker message drawnId createdAt acknowledged sent) := by
  unfold ComputeSystem.handleAtWorker
  cases message with
  | request jobId wasmCode inputData limits =>
    rcases admitRequest_cases acknowledged s.worker s.coordinatorId jobId wasmCode inputData limits drawnId createdAt with
      ⟨response, hresponse, hresult⟩ | ⟨node', job, hexecutor, hid, hresult⟩
    · simp only [hresult]
      exact h.send hresponse sent
    · simp only [hresult]
      have hjob : job.id = jobId := hid.trans (hdrawn jobId rfl)
      refine { h with executor := ?_, admitted := forall_mem_append.mpr ⟨h.admitted, forall_mem_singleton.mpr hjob⟩ }
      intro x hx
      exact h.executor x (hexecutor.symm.trans hx)
  | query jobId =>
    cases hanswer : s.worker.answerQuery jobId with
    | none => simpa only [hanswer] using h
    | some outcome =>
      simp only [hanswer]
      exact h.send (h.answer hanswer) sent
  | response => exact h
  | result => exact h

theorem Kept.submitAdmitted (h : Kept s) (he : e.job.id = e.requestId)
    (hsubmit : s.worker.submitAdmitted acknowledged e = some (worker, response)) :
    (∀ x, worker.executor = some x → Tagged x) ∧ response.jobId = e.requestId := by
  obtain ⟨x, hx, hmatch⟩ := map_eq_some_iff.mp hsubmit
  split at hmatch
  · rename_i x' hx'
    obtain ⟨rfl, rfl⟩ := Prod.mk.inj hmatch
    refine ⟨?_, he⟩
    intro y hy
    obtain rfl := some.inj hy
    exact (h.executor x hx).submitJob he hx'
  · obtain ⟨rfl, rfl⟩ := Prod.mk.inj hmatch
    exact ⟨h.executor, he⟩

theorem Kept.reportJob {sent : Bool} (h : Kept s) (hs : s.reportJob jobId sent = some s') : Kept s' := by
  obtain ⟨coordinatorId, -, hs⟩ := bind_eq_some_iff.mp hs
  split at hs
  · cases hs
  · rename_i hnew
    obtain ⟨outcome, hanswer, rfl⟩ := map_eq_some_iff.mp hs
    have hsend := h.send (h.answer hanswer) (sent && decide (coordinatorId = s.coordinatorId))
    dsimp only
    split
    · refine { hsend with reports := ?_, reported := ?_ }
      · -- the reporter remembers every job it has reported, so this one is new
        refine nodup_append.mpr ⟨h.reports, nodup_singleton _, ?_⟩
        rintro a ha b hb rfl
        obtain rfl := mem_singleton.mp hb
        exact hnew (h.reported _ ha)
      · refine forall_mem_append.mpr ⟨?_, ?_⟩
        · intro id hid
          exact Finset.mem_insert_of_mem (h.reported id hid)
        · exact forall_mem_singleton.mpr (Finset.mem_insert_self _ _)
    · exact hsend

theorem Kept.step (h : Kept s) (hstep : FaithfulStep s event s') : Kept s' := by
  obtain ⟨hstep, hfaithful⟩ := hstep
  cases event with
  | submit balance job now sent =>
    obtain rfl := some.inj hstep
    refine { h with manager := ?_ }
    exact (congrArg isSome (s.coordinator.submitComputeJobToNetwork_keeps balance job now).2).trans h.manager
  | query jobId | loseToWorker n =>
    obtain rfl := some.inj hstep
    exact { h with }
  | deliverToWorker n drawnId createdAt acknowledged sent =>
    obtain ⟨message, hmessage, rfl⟩ := map_eq_some_iff.mp hstep
    have hrest : Kept { s with toWorker := s.toWorker.eraseIdx n } := { h with }
    refine hrest.handleAtWorker ?_ createdAt acknowledged sent
    intro jobId hjobId
    exact hfaithful jobId (by rwa [hmessage])
  | submitAdmitted n acknowledged sent =>
    obtain ⟨e, he, hstep⟩ := bind_eq_some_iff.mp hstep
    obtain ⟨⟨worker, response⟩, hsubmit, rfl⟩ := map_eq_some_iff.mp hstep
    obtain ⟨hexecutor, hresponse⟩ := h.submitAdmitted (h.admitted e (mem_of_getElem? he)) hsubmit
    have hrest : Kept { s with worker, admitted := s.admitted.eraseIdx n } :=
      { h with executor := hexecutor, admitted := fun e' he' => h.admitted e' (mem_of_mem_eraseIdx he') }
    exact hrest.send (m := ⟨e.requestId, response⟩) hresponse sent
  | startNext =>
    refine h.onExecutor ?_ hstep
    intro x x' hx hx'
    exact some.inj hx' ▸ hx.startNext
  | finish n run => exact h.onExecutor (fun _ _ hx => hx.finish) hstep
  | processResult victim => exact h.onExecutor (fun _ _ hx => hx.processResult) hstep
  | report jobId sent => exact h.reportJob hstep
  | cleanUp =>
    obtain rfl := some.inj hstep
    rw [if_neg (Nat.not_lt.mpr hfaithful)]
    exact h
  | deliverToCoordinator n acknowledged =>
    obtain ⟨m, hm, rfl⟩ := map_eq_some_iff.mp hstep
    have hrest : Kept { s with toCoordinator := s.toCoordinator.eraseIdx n } :=
      { h with toCoordinator := fun m hm => h.toCoordinator m (mem_of_mem_eraseIdx hm) }
    unfold ComputeSystem.handleAtCoordinator
    split
    · exact hrest
    · refine { hrest with manager := ?_ }
      simpa [ComputeNode.recordResult] using h.manager
  | loseToCoordinator n =>
    obtain rfl := some.inj hstep
    exact { h with toCoordinator := fun m hm => h.toCoordinator m (mem_of_mem_eraseIdx hm) }

/-! ## The status of a job -/

theorem jobId_of_toResult {message : ComputeMessage} (h : message.toResult = some result) : result.jobId = message.jobId := by
  cases message with
  | result => exact some.inj h ▸ rfl
  | _ => cases h

theorem status_submitResult (m : JobManager) (result : JobResult) :
    (m.submitResult result).getJobStatus jobId = if jobId = result.jobId then some result.status else m.getJobStatus jobId := by
  unfold JobManager.getJobStatus JobManager.submitResult
  dsimp only
  rw [Table.lookup_insert_if]
  by_cases hid : jobId = result.jobId
  · simp only [if_pos hid]
  · simp only [if_neg hid]

theorem status_of_advance (hstep : s.Step event s') (hother : ∀ n acknowledged, event ≠ .deliverToCoordinator n acknowledged) :
    s'.status jobId = s.status jobId := by
  have hmanager : s'.coordinator.manager = s.coordinator.manager := by
    cases event with
    | submit balance job now sent =>
      obtain rfl := some.inj hstep
      exact (s.coordinator.submitComputeJobToNetwork_keeps balance job now).2
    | query jobId | loseToWorker n | loseToCoordinator n =>
      obtain rfl := some.inj hstep
      rfl
    | deliverToWorker n drawnId createdAt acknowledged sent =>
      obtain ⟨message, -, rfl⟩ := map_eq_some_iff.mp hstep
      unfold ComputeSystem.handleAtWorker
      split
      · split <;> rfl
      · split <;> rfl
      · rfl
    | submitAdmitted n acknowledged sent =>
      obtain ⟨e, -, hstep⟩ := bind_eq_some_iff.mp hstep
      obtain ⟨⟨worker, response⟩, -, rfl⟩ := map_eq_some_iff.mp hstep
      rfl
    | startNext | finish n run | processResult victim =>
      obtain ⟨x, -, rfl⟩ := map_eq_some_iff.mp hstep
      rfl
    | report jobId sent =>
      obtain ⟨coordinatorId, -, hstep⟩ := bind_eq_some_iff.mp hstep
      split at hstep
      · cases hstep
      · obtain ⟨outcome, -, rfl⟩ := map_eq_some_iff.mp hstep
        dsimp only
        split <;> rfl
    | cleanUp =>
      obtain rfl := some.inj hstep
      split <;> rfl
    | deliverToCoordinator n acknowledged => exact absurd rfl (hother n acknowledged)
  rw [ComputeSystem.status, hmanager, ComputeSystem.status]

theorem status_handleAtCoordinator (hmanager : s.coordinator.manager.isSome = true) (acknowledged : StoreOp → Bool)
    (m : WorkerMessage) (jobId : JobId) :
    (s.handleAtCoordinator acknowledged m).status jobId = match m.message.toResult with
      | none => s.status jobId
      | some result => if jobId = result.jobId then some result.status else s.status jobId := by
  obtain ⟨manager, hmanager⟩ := isSome_iff_exists.mp hmanager
  unfold ComputeSystem.handleAtCoordinator
  cases m.message.toResult with
  | none => rfl
  | some result =>
    simp only [ComputeSystem.status, ComputeNode.recordResult, hmanager, map_some, bind_some, status_submitResult]

end IdentityAux

open IdentityAux in
/-- In every run of a coordinator and a worker that draws the ids it is asked for, with a reporter that forgets nothing: every
message of the worker carries the id under which its job was requested, no job is reported successfully twice, and a job
becomes completed for the coordinator exactly when it handles a message of the worker that says so. -/
theorem job_identity {coordinatorId workerId : NodeId} {policy : ComputeAuthPolicy}
    {coordinatorStore workerStore : Option ComputeStorage} {validators : Table ValidatorId CapacityAnnouncement}
    {events : List SystemEvent} {s : ComputeSystem}
    (hrun : Run FaithfulStep (.start coordinatorId workerId policy coordinatorStore workerStore validators) events s) :
    (∀ m ∈ s.sent, m.message.jobId = m.requestId) ∧ s.reports.Nodup ∧
      ∀ event s', FaithfulStep s event s' → ∀ jobId, s.status jobId ≠ some .completed →
        (s'.status jobId = some .completed ↔
          ∃ n acknowledged m, event = .deliverToCoordinator n acknowledged ∧ s.toCoordinator[n]? = some m ∧
            m.requestId = jobId ∧ m.SaysCompleted) := by
  have hkept : Kept s :=
    hrun.invariant (kept_start coordinatorId workerId policy coordinatorStore workerStore validators)
      fun _ _ _ h hstep => h.step hstep
  refine ⟨hkept.sent, hkept.reports, ?_⟩
  intro event s' hstep jobId hopen
  by_cases hdeliver : ∃ n acknowledged, event = .deliverToCoordinator n acknowledged
  · obtain ⟨n, acknowledged, rfl⟩ := hdeliver
    obtain ⟨m, hm, rfl⟩ := map_eq_some_iff.mp hstep.1
    have hid : m.message.jobId = m.requestId := hkept.toCoordinator m (mem_of_getElem? hm)
    have hstatus := status_handleAtCoordinator (s := { s with toCoordinator := s.toCoordinator.eraseIdx n }) hkept.manager
      acknowledged m jobId
    rw [hstatus]
    constructor
    · intro hcompleted
      refine ⟨n, acknowledged, m, rfl, hm, ?_⟩
      split at hcompleted
      · exact absurd hcompleted hopen
      · rename_i result hresult
        split at hcompleted
        · rename_i hjob
          refine ⟨?_, result, hresult, some.inj hcompleted⟩
          rw [← hid, ← jobId_of_toResult hresult, hjob]
        · exact absurd hcompleted hopen
    · rintro ⟨n', acknowledged', m', hevent, hm', rfl, result, hresult, hcompleted⟩
      obtain ⟨rfl, rfl⟩ := SystemEvent.deliverToCoordinator.inj hevent
      obtain rfl := some.inj (hm.symm.trans hm')
      have hjob : m.requestId = result.jobId := by rw [jobId_of_toResult hresult, hid]
      simp only [hresult, if_pos hjob, hcompleted]
  · have hother : ∀ n acknowledged, event ≠ .deliverToCoordinator n acknowledged := by
      intro n acknowledged hevent
      exact hdeliver ⟨n, acknowledged, hevent⟩
    rw [status_of_advance hstep.1 hother]
    constructor
    · intro hcompleted
      exact absurd hcompleted hopen
    · rintro ⟨n, acknowledged, -, hevent, -⟩
      exact absurd hevent (hother n acknowledged)

namespace IdentitySample

/-- A coordinator `[1]` that knows the worker `[2]` by its bytes in hexadecimal. -/
def start : ComputeSystem :=
  .start [1] [2] .openToAll (some ⟨∅, ∅, ∅⟩) (some ⟨∅, ∅, ∅⟩) (AList.insert "02" ⟨"02", 4, 0⟩ ∅)

def job : ComputeJob := .new "job" 0 [] [] ⟨1, 1, 1⟩

/-- A job goes to the worker, which draws the id `drawnId` for it, runs it and reports its result; the coordinator handles the
response and the result. -/
def events (drawnId : JobId) : List SystemEvent :=
  [.submit .first job 0 true, .deliverToWorker 0 drawnId 0 (fun _ => true) true,
    .submitAdmitted 0 (fun _ => true) true, .startNext, .finish 0 (.returned [5] 1 1 1), .processResult "", .report drawnId true,
    .cleanUp, .deliverToCoordinator 0 fun _ => true]

def delivery : SystemEvent := .deliverToCoordinator 0 fun _ => true

end IdentitySample

open IdentitySample in
/-- A worker that draws the id it was asked for: the coordinator knows nothing of the job until the report, and that it is
completed after it. -/
theorem job_identity_same_id :
    ∃ s s', Run FaithfulStep start (events "job") s ∧ FaithfulStep s delivery s' ∧ s.status "job" = none ∧
      s'.status "job" = some .completed ∧ (∀ m ∈ s.sent, m.message.jobId = m.requestId) ∧ s.reports = ["job"] ∧
      s.reports.Nodup := by
  have hrun : (((events "job").foldlM (Run.guarded (fun s event => event.Faithful s) ComputeSystem.advance) start).any fun s =>
      decide (delivery.Faithful s ∧ s.status "job" = none ∧ s.reports = ["job"] ∧
        (s.advance delivery).map (·.status "job") = some (some .completed))) = true := by
    decide +kernel
  obtain ⟨s, hfaithful, hdelivery, hbefore, hreports, hafter⟩ :
      ∃ s, Run FaithfulStep start (events "job") s ∧ delivery.Faithful s ∧ s.status "job" = none ∧ s.reports = ["job"] ∧
        (s.advance delivery).map (·.status "job") = some (some .completed) :=
    Run.exists_of_foldlM Run.of_guarded hrun
  obtain ⟨s', hs', hcompleted⟩ := map_eq_some_iff.mp hafter
  obtain ⟨hsent, hnodup, -⟩ := job_identity hfaithful
  exact ⟨s, s', hfaithful, ⟨hs', hdelivery⟩, hbefore, hcompleted, hsent, hreports, hnodup⟩

open IdentitySample in
/-- A worker that draws an id of its own: its response and its result carry that id, and when the coordinator has handled both it
has a completed job that it never submitted, and knows nothing of the one it did. -/
theorem job_identity_lost : ∃ s, Run ComputeSystem.Step start (events "uuid" ++ [delivery]) s ∧
      s.sent.map (fun m => (m.requestId, m.message.jobId)) = [("job", "uuid"), ("job", "uuid")] ∧
      s.status "job" = none ∧ s.status "uuid" = some .completed := by
  have hrun : (((events "uuid" ++ [delivery]).foldlM ComputeSystem.advance start).any fun s =>
      decide (s.sent.map (fun m => (m.requestId, m.message.jobId)) = [("job", "uuid"), ("job", "uuid")] ∧
        s.status "job" = none ∧ s.status "uuid" = some .completed)) = true := by
    decide +kernel
  exact Run.exists_of_foldlM (fun _ _ _ h => h) hrun

end Paraloom.OffChain
