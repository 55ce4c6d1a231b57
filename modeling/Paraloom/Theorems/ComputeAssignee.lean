import Paraloom.Lib.Run
import Paraloom.OffChain.ComputeNode

/-!
# Who may say what a job returned

The coordinator knows which peer a job is assigned to and which peer a message comes from, but the handler of a result compares
neither the two nor the result with the one it has. The stored results are those of the assignees only as long as nobody else
sends one.
-/

namespace Paraloom.OffChain

namespace ComputeNode

/-- The result is stored for the job, in the compute store or in the job manager. -/
def Stored (node : ComputeNode) (jobId : JobId) (result : JobResult) : Prop :=
  node.storedResult jobId = some result ∨ node.managedResult jobId = some result

end ComputeNode

open ComputeNode

/-- A result comes from the peer that its job is assigned to then, and is the only one of the job. -/
def CoordinatorEvent.Rightful (node : ComputeNode) : CoordinatorEvent → Prop
  | receive source message _ => ∀ result, message.toResult = some result →
      node.assignee result.jobId = some source ∧ ∀ stored, node.Stored result.jobId stored → stored = result
  | _ => True

def CoordinatorStep (node : ComputeNode) (event : CoordinatorEvent) (node' : ComputeNode) : Prop := node' = node.handle event

/-- An event in which a result is rightful. -/
def RightfulStep (node : ComputeNode) (event : CoordinatorEvent) (node' : ComputeNode) : Prop :=
  CoordinatorStep node event node' ∧ event.Rightful node

namespace AssigneeAux

variable {node node' : ComputeNode} {event : CoordinatorEvent} {jobId : JobId} {result : JobResult}

/-- A write of a result, for one of the two places that keep results: it is there under its job, or nothing has changed. -/
theorem storeResult_lookup (s : ComputeStorage) (jobId : JobId) :
    ((s.removeActiveJob acknowledged result.jobId).storeResult acknowledged result).completedResults.lookup jobId =
        s.completedResults.lookup jobId ∨
      jobId = result.jobId ∧
        ((s.removeActiveJob acknowledged result.jobId).storeResult acknowledged result).completedResults.lookup jobId =
          some result := by
  have hactive : ∀ (t : ComputeStorage) (id : JobId), (t.removeActiveJob acknowledged id).completedResults = t.completedResults := by
    intro t id
    unfold ComputeStorage.removeActiveJob
    split <;> rfl
  unfold ComputeStorage.storeResult
  split
  · rw [hactive, hactive, Table.lookup_insert_if]
    split
    · rename_i hid
      exact .inr ⟨hid, rfl⟩
    · exact .inl rfl
  · rw [hactive]
    exact .inl rfl

theorem storedResult_recordResult (acknowledged : StoreOp → Bool) (node : ComputeNode) (result : JobResult) (jobId : JobId) :
    (node.recordResult acknowledged result).storedResult jobId = node.storedResult jobId ∨
      jobId = result.jobId ∧ (node.recordResult acknowledged result).storedResult jobId = some result := by
  unfold storedResult recordResult
  cases node.storage with
  | none => exact .inl rfl
  | some s => exact storeResult_lookup s jobId

theorem managedResult_recordResult (acknowledged : StoreOp → Bool) (node : ComputeNode) (result : JobResult) (jobId : JobId) :
    (node.recordResult acknowledged result).managedResult jobId = node.managedResult jobId ∨
      jobId = result.jobId ∧ (node.recordResult acknowledged result).managedResult jobId = some result := by
  unfold managedResult recordResult
  cases node.manager with
  | none => exact .inl rfl
  | some m =>
    simp only [Option.map_some, Option.bind_some, JobManager.submitResult, Table.lookup_insert_if]
    split
    · rename_i hid
      exact .inr ⟨hid, rfl⟩
    · exact .inl rfl

/-- What an event changes in the stored results: nothing, or the result of a message is written under its job. -/
theorem handle_results (node : ComputeNode) (event : CoordinatorEvent) (jobId : JobId) :
    ((node.handle event).storedResult jobId = node.storedResult jobId ∧
      (node.handle event).managedResult jobId = node.managedResult jobId) ∨
    ∃ source message acknowledged result, event = .receive source message acknowledged ∧ message.toResult = some result ∧
      result.jobId = jobId ∧
      ((node.handle event).storedResult jobId = node.storedResult jobId ∨
        (node.handle event).storedResult jobId = some result) ∧
      ((node.handle event).managedResult jobId = node.managedResult jobId ∨
        (node.handle event).managedResult jobId = some result) := by
  cases event with
  | register capacity =>
    refine .inl ?_
    cases hmanager : node.manager with
    | none => simp [handle, registerComputeValidator, hmanager]
    | some manager =>
      simp [handle, registerComputeValidator, hmanager, storedResult, managedResult, JobManager.registerValidator]
  | submit balance job now =>
    obtain ⟨hstorage, hmanager⟩ := node.submitComputeJobToNetwork_keeps balance job now
    refine .inl ⟨?_, ?_⟩
    · rw [handle, storedResult, hstorage, storedResult]
    · rw [handle, managedResult, hmanager, managedResult]
  | receive source message acknowledged =>
    cases hresult : message.toResult with
    | none => simp [handle, hresult]
    | some result =>
      have hhandle : node.handle (.receive source message acknowledged) = node.recordResult acknowledged result := by
        simp [handle, hresult]
      rw [hhandle]
      have hstored := storedResult_recordResult acknowledged node result jobId
      have hmanaged := managedResult_recordResult acknowledged node result jobId
      by_cases hid : result.jobId = jobId
      · refine .inr ⟨source, message, acknowledged, result, rfl, hresult, hid, ?_, ?_⟩
        · exact hstored.imp_right And.right
        · exact hmanaged.imp_right And.right
      · refine .inl ⟨?_, ?_⟩
        · exact hstored.resolve_right fun h => hid h.1.symm
        · exact hmanaged.resolve_right fun h => hid h.1.symm

/-- The events in which the result of a job was sent by the peer that the job was assigned to then. -/
def Sent (start : ComputeNode) (events : List CoordinatorEvent) (jobId : JobId) (result : JobResult) : Prop :=
  ∃ before source message acknowledged after node, events = before ++ .receive source message acknowledged :: after ∧
    Run RightfulStep start before node ∧ message.toResult = some result ∧ node.assignee jobId = some source

theorem Sent.snoc {start : ComputeNode} {events : List CoordinatorEvent} (h : Sent start events jobId result)
    (event : CoordinatorEvent) : Sent start (events ++ [event]) jobId result := by
  obtain ⟨before, source, message, acknowledged, after, node, rfl, hsent⟩ := h
  exact ⟨before, source, message, acknowledged, after ++ [event], node, by simp, hsent⟩

theorem stored_stays (hstep : RightfulStep node event node') :
    (node.storedResult jobId = some result → node'.storedResult jobId = some result) ∧
      (node.managedResult jobId = some result → node'.managedResult jobId = some result) := by
  obtain ⟨rfl, hrightful⟩ := hstep
  rcases handle_results node event jobId with ⟨hstored, hmanaged⟩ |
    ⟨source, message, acknowledged, new, rfl, hnew, rfl, hstored, hmanaged⟩
  · exact ⟨hstored.trans, hmanaged.trans⟩
  · -- the message may write over the result of its job, with the same result
    have hsame := (hrightful new hnew).2
    refine ⟨?_, ?_⟩
    · intro hresult
      rcases hstored with hkept | hwritten
      · exact hkept.trans hresult
      · rwa [hsame result (.inl hresult)]
    · intro hresult
      rcases hmanaged with hkept | hwritten
      · exact hkept.trans hresult
      · rwa [hsame result (.inr hresult)]

theorem stored_before (h : (node.handle event).Stored jobId result) : node.Stored jobId result ∨
      ∃ source message acknowledged, event = .receive source message acknowledged ∧ message.toResult = some result ∧
        result.jobId = jobId := by
  rcases handle_results node event jobId with ⟨hstored, hmanaged⟩ |
    ⟨source, message, acknowledged, new, rfl, hnew, hid, hstored, hmanaged⟩
  · exact .inl (h.imp hstored.symm.trans hmanaged.symm.trans)
  · have hcases : node.Stored jobId result ∨ new = result := by
      rcases h with h | h
      · rcases hstored with hkept | hwritten
        · exact .inl (.inl (hkept.symm.trans h))
        · exact .inr (Option.some.inj (hwritten.symm.trans h))
      · rcases hmanaged with hkept | hwritten
        · exact .inl (.inr (hkept.symm.trans h))
        · exact .inr (Option.some.inj (hwritten.symm.trans h))
    rcases hcases with hbefore | rfl
    · exact .inl hbefore
    · exact .inr ⟨source, message, acknowledged, rfl, hnew, hid⟩

end AssigneeAux

open AssigneeAux in
/-- In every run of a coordinator in which every result comes from the peer that its job is assigned to then and is the only
one of the job: a stored result was sent by the peer that its job was assigned to at that time, and no later message replaces
it. -/
theorem compute_results_from_assignee {start node : ComputeNode} {events : List CoordinatorEvent}
    (hstart : ∀ jobId result, ¬ start.Stored jobId result) (hrun : Run RightfulStep start events node) :
    (∀ jobId result, node.Stored jobId result →
      ∃ before source message acknowledged after earlier, events = before ++ .receive source message acknowledged :: after ∧
        Run RightfulStep start before earlier ∧ message.toResult = some result ∧ earlier.assignee jobId = some source) ∧
    ∀ jobId result later node', Run RightfulStep node later node' →
      (node.storedResult jobId = some result → node'.storedResult jobId = some result) ∧
      (node.managedResult jobId = some result → node'.managedResult jobId = some result) := by
  refine ⟨?_, ?_⟩
  · refine hrun.induction (P := fun events node => ∀ jobId result, node.Stored jobId result → Sent start events jobId result)
      (fun jobId result hstored => absurd hstored (hstart jobId result)) ?_
    intro events node event node' hbefore hsent hstep jobId result hstored
    obtain ⟨rfl, hrightful⟩ := hstep
    rcases stored_before hstored with hstored | ⟨source, message, acknowledged, rfl, hresult, rfl⟩
    · exact (hsent jobId result hstored).snoc event
    · exact ⟨events, source, message, acknowledged, [], node, rfl, hbefore, hresult, (hrightful result hresult).1⟩
  · intro jobId result later node' hlater
    refine hlater.invariant (P := fun node' => (node.storedResult jobId = some result → node'.storedResult jobId = some result) ∧
      (node.managedResult jobId = some result → node'.managedResult jobId = some result)) ⟨id, id⟩ ?_
    rintro t event u ⟨hstored, hmanaged⟩ hstep
    obtain ⟨hstays, hstays'⟩ := stored_stays hstep
    exact ⟨fun h => hstays (hstored h), fun h => hstays' (hmanaged h)⟩

namespace AssigneeSample

/-- A coordinator with the validator `[2]`, which names itself by its bytes in hexadecimal. -/
def start : ComputeNode where
  executor := none
  computeAuth := .openToAll
  manager := some .new
  coordinator := some (JobCoordinator.new.updateValidatorCapacity ⟨"02", 4, 0⟩)
  storage := some ⟨∅, ∅, ∅⟩
  jobCoordinators := ∅

def job : ComputeJob := .new "job" 0 [] [] ⟨1, 1, 1⟩

def answer (output : UInt8) : ComputeMessage := .result "job" .completed (some [output]) 1 1 1

def submit : CoordinatorEvent := .submit .first job 0

def receive (source : NodeId) (output : UInt8) : CoordinatorEvent := .receive source (answer output) fun _ => true

def outputs (node : ComputeNode) : Option (Option Bytes) × Option (Option Bytes) :=
  ((node.storedResult "job").map (·.outputData), (node.managedResult "job").map (·.outputData))

theorem start_empty (jobId : JobId) (result : JobResult) : ¬ start.Stored jobId result := by
  rintro (h | h) <;> cases h

theorem run_handle (h : Run CoordinatorStep start events node) :
    Run CoordinatorStep start (events ++ [event]) (node.handle event) :=
  h.snoc rfl

end AssigneeSample

open AssigneeSample in
/-- The validator that the job is assigned to sends the only result, which stays. -/
theorem compute_results_from_assignee_once : ∃ node : ComputeNode, Run RightfulStep start [submit, receive [2] 5] node ∧
      outputs node = (some (some [5]), some (some [5])) ∧
      ∀ later node', Run RightfulStep node later node' → node'.storedResult "job" = node.storedResult "job" := by
  let assigned := start.handle submit
  have hassignee : assigned.assignee "job" = some [2] := by decide +kernel
  have hnew : ∀ result, ¬ assigned.Stored "job" result := by
    rintro result (h | h) <;> cases h
  have hrun : Run RightfulStep start [submit, receive [2] 5] (assigned.handle (receive [2] 5)) := by
    refine (Run.nil.snoc ⟨rfl, trivial⟩).snoc ⟨rfl, ?_⟩
    intro result hresult
    obtain rfl := Option.some.inj hresult
    exact ⟨hassignee, fun stored hstored => absurd hstored (hnew stored)⟩
  refine ⟨_, hrun, by decide +kernel, ?_⟩
  intro later node' hlater
  obtain ⟨result, hresult⟩ : ∃ result, (assigned.handle (receive [2] 5)).storedResult "job" = some result := ⟨_, rfl⟩
  rw [hresult]
  exact ((compute_results_from_assignee start_empty hrun).2 "job" result later node' hlater).1 hresult

open AssigneeSample in
/-- A peer that the job is not assigned to sends a result, which is stored in both places; and after the assignee has sent its
result, that peer replaces it. -/
theorem compute_results_from_anyone :
    (∃ node, Run CoordinatorStep start [submit, receive [9] 6] node ∧ node.assignee "job" = some [2] ∧
      outputs node = (some (some [6]), some (some [6]))) ∧
    ∃ node, Run CoordinatorStep start [submit, receive [2] 5, receive [9] 6] node ∧
      outputs node = (some (some [6]), some (some [6])) := by
  have hforged : (start.handle submit |>.handle (receive [9] 6)).assignee "job" = some [2] ∧
      outputs (start.handle submit |>.handle (receive [9] 6)) = (some (some [6]), some (some [6])) := by
    decide +kernel
  have hreplaced : outputs (start.handle submit |>.handle (receive [2] 5) |>.handle (receive [9] 6)) =
      (some (some [6]), some (some [6])) := by
    decide +kernel
  exact ⟨⟨_, run_handle (run_handle .nil), hforged⟩,
    ⟨_, run_handle (run_handle (run_handle .nil)), hreplaced⟩⟩

end Paraloom.OffChain
