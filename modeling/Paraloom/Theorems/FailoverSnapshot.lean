import Paraloom.OffChain.CoordinatorCalls

/-!
# What a failover inherits

A snapshot copies the four parts of the state one at a time, in the order in which they are written, so every chunk of a
snapshot has its parent there. It may however copy the mark of a completed chunk and miss the result, which is stored after the
mark, and a standby that is promoted from such a snapshot refuses that result.
-/

namespace Paraloom.OffChain

open Interleaving Option AList

namespace CoordinatorSnapshot

/-- Every chunk has its parent. -/
def KeepsParents (s : CoordinatorSnapshot) : Prop := ∀ id ∈ s.activeTasks, id ∈ s.parentTasks

/-- Every chunk that is marked as completed has its result. -/
def KeepsResults (s : CoordinatorSnapshot) : Prop :=
  ∀ id task, s.activeTasks.lookup id = some task → task.status = .completed → id ∈ s.results

/-- A coordinator that holds the snapshot accepts the result of every chunk it has none for, from the validator that the chunk is
assigned to. -/
def Resumes (s : CoordinatorSnapshot) : Prop :=
  ∀ (c : Coordinator) (source : NodeId) (result : TaskResult) (task : Task), c.held = s →
    s.activeTasks.lookup result.taskId = some task → task.assignedTo = some (debugNode source) → result.taskId ∉ s.results →
    (completeTask c.activeTasks source result).isOk = true

theorem KeepsResults.resumes {s : CoordinatorSnapshot} (h : s.KeepsResults) : s.Resumes := by
  rintro c source result task rfl htask hassigned hmissing
  have hopen : task.status ≠ .completed := fun hcompleted => hmissing (h _ _ htask hcompleted)
  change c.activeTasks.lookup result.taskId = some task at htask
  simp [completeTask, htask, hassigned, hopen, Except.isOk, Except.toBool]

end CoordinatorSnapshot

/-- The chunk is marked and its result is not stored. -/
def ResultPoint.storing : ResultPoint → Bool
  | writeResults => true
  | _ => false

/-- A handler that has marked the chunk and has yet to store its result. -/
def PrimaryCall.Stores (id : TaskId) : PrimaryCall → Prop
  | handleTaskResult call => call.point.storing = true ∧ call.result.taskId = id
  | _ => False

instance (id : TaskId) : DecidablePred (PrimaryCall.Stores id)
  | .handleTaskResult _ => inferInstanceAs (Decidable (_ ∧ _))
  | .submitTask _ | .handleTaskError .. | .snapshot _ => inferInstanceAs (Decidable False)

def SnapshotPoint.copied : SnapshotPoint → Table TaskId Task
  | readResults _ activeTasks _ => activeTasks
  | _ => ∅

/-- A snapshot reads the results only when no handler has yet to store the result of a chunk that it has copied as completed. -/
def PrimaryCall.Settled (c : Config Coordinator PrimaryCall) : PrimaryCall → Prop
  | snapshot call => ∀ e ∈ call.point.copied.entries, e.2.status = .completed → c.All (¬ Stores e.1 ·)
  | _ => True

instance (c : Config Coordinator PrimaryCall) : DecidablePred (PrimaryCall.Settled c)
  | .snapshot call => inferInstanceAs (Decidable (∀ e ∈ call.point.copied.entries, _))
  | .submitTask _ | .handleTaskResult _ | .handleTaskError .. => inferInstanceAs (Decidable True)

/-- A grant to a call that is settled. -/
def SettledStep (c : Config Coordinator PrimaryCall) (k : Nat) (c' : Config Coordinator PrimaryCall) : Prop :=
  c.Step primaryProtocol k c' ∧ ∀ call, c.calls.lookup k = some call → call.Settled c

instance (c : Config Coordinator PrimaryCall) (k : Nat) : Decidable (∀ call, c.calls.lookup k = some call → call.Settled c) :=
  inferInstanceAs (Decidable (∀ call ∈ c.calls.lookup k, call.Settled c))

/-- The call has returned the snapshot, alone or in a heartbeat. -/
def PrimaryCall.Returned (s : CoordinatorSnapshot) : PrimaryCall → Prop
  | snapshot call => call.point = .returned s
  | _ => False

namespace FailoverAux

/-- The result of the chunk is stored, or a handler is about to store it. -/
def Recorded (c : Config Coordinator PrimaryCall) (id : TaskId) : Prop := id ∈ c.state.results ∨ c.Some (PrimaryCall.Stores id)

/-- Every chunk that is marked as completed in the table has its result recorded. -/
def AllRecorded (c : Config Coordinator PrimaryCall) (activeTasks : Table TaskId Task) : Prop :=
  ∀ id task, activeTasks.lookup id = some task → task.status = .completed → Recorded c id

/-- What a call knows about the state from the sections behind it. -/
def Knows (c : Config Coordinator PrimaryCall) : PrimaryCall → Prop
  | .submitTask call =>
    match call.point with
    | .writeParentTasks _ _ chunk _ => chunk.status ≠ .completed
    | .writeActiveTasks _ _ chunk _ => chunk.status ≠ .completed ∧ chunk.id ∈ c.state.parentTasks
    | _ => True
  | .snapshot call =>
    match call.point with
    | .readParentTasks _ activeTasks => (∀ id ∈ activeTasks, id ∈ c.state.parentTasks) ∧ AllRecorded c activeTasks
    | .readResults _ activeTasks parentTasks => (∀ id ∈ activeTasks, id ∈ parentTasks) ∧ AllRecorded c activeTasks
    | .returned s => s.KeepsParents
    | _ => True
  | _ => True

/-- What holds in every state of every run. -/
structure Tracked (c : Config Coordinator PrimaryCall) : Prop where
  parents : ∀ id ∈ c.state.activeTasks, id ∈ c.state.parentTasks
  recorded : AllRecorded c c.state.activeTasks
  calls : c.All (Knows c)

/-- Parents and recorded results stay. -/
structure Grows (c c' : Config Coordinator PrimaryCall) : Prop where
  parents : ∀ id ∈ c.state.parentTasks, id ∈ c'.state.parentTasks
  recorded : ∀ id, Recorded c id → Recorded c' id

variable {c c' : Config Coordinator PrimaryCall} {k : Nat} {call next : PrimaryCall} {s : Coordinator}

theorem Grows.allRecorded (h : Grows c c') (hall : AllRecorded c activeTasks) : AllRecorded c' activeTasks :=
  fun id task htask hcompleted => h.recorded id (hall id task htask hcompleted)

theorem Grows.knows (h : Grows c c') (hknows : Knows c call) : Knows c' call := by
  cases call with
  | submitTask call =>
    obtain ⟨task, clock, point⟩ := call
    cases point with
    | writeActiveTasks validators i chunk rest => exact ⟨hknows.1, h.parents _ hknows.2⟩
    | _ => exact hknows
  | handleTaskResult => trivial
  | handleTaskError => trivial
  | snapshot call =>
    obtain ⟨heartbeat, point⟩ := call
    cases point with
    | readParentTasks validators activeTasks =>
      exact ⟨fun id hid => h.parents id (hknows.1 id hid), h.allRecorded hknows.2⟩
    | readResults validators activeTasks parentTasks => exact ⟨hknows.1, h.allRecorded hknows.2⟩
    | _ => exact hknows

theorem grows_insert (hcall : c.calls.lookup k = some call) (hparents : ∀ id ∈ c.state.parentTasks, id ∈ s.parentTasks)
    (hresults : ∀ id ∈ c.state.results, id ∈ s.results) (hstores : ∀ id, call.Stores id → id ∈ s.results) :
    Grows c ⟨s, c.calls.insert k next⟩ := by
  refine ⟨hparents, ?_⟩
  rintro id (hid | hsome)
  · exact .inl (hresults id hid)
  · rcases hsome.insert hcall with hmoved | hsome
    · exact .inl (hstores id hmoved)
    · exact .inr hsome

/-- A section that keeps what is tracked, given what it does to the active tasks and what its call knows after it. -/
theorem Tracked.move (h : Tracked c) (hgrows : Grows c ⟨s, c.calls.insert k next⟩)
    (hparents : ∀ id ∈ s.activeTasks, id ∈ s.parentTasks) (hrecorded : AllRecorded ⟨s, c.calls.insert k next⟩ s.activeTasks)
    (hnext : Knows ⟨s, c.calls.insert k next⟩ next) : Tracked ⟨s, c.calls.insert k next⟩ :=
  ⟨hparents, hrecorded, (h.calls.mono fun _ => hgrows.knows).insert hnext⟩

theorem Tracked.quiet (h : Tracked c) (hgrows : Grows c ⟨s, c.calls.insert k next⟩) (hactive : s.activeTasks = c.state.activeTasks)
    (hnext : Knows ⟨s, c.calls.insert k next⟩ next) : Tracked ⟨s, c.calls.insert k next⟩ := by
  refine h.move hgrows ?_ ?_ hnext
  · intro id hid
    exact hgrows.parents id (h.parents id (hactive ▸ hid))
  · rw [hactive]
    exact hgrows.allRecorded h.recorded

/-- A section of a call that is not about to store a result, and that leaves the state as it is. -/
theorem Tracked.read (h : Tracked c) (hcall : c.calls.lookup k = some call) (hstores : ∀ id, ¬ call.Stores id)
    (hnext : Knows ⟨c.state, c.calls.insert k next⟩ next) : Tracked ⟨c.state, c.calls.insert k next⟩ :=
  h.quiet (grows_insert hcall (fun _ => id) (fun _ => id) fun id hid => absurd hid (hstores id)) rfl hnext

/-- A section that writes one active task, whose chunk has its parent and, if the mark says completed, its result. -/
theorem Tracked.activate {id : TaskId} (h : Tracked c) (hcall : c.calls.lookup k = some call) (hstores : ∀ id, ¬ call.Stores id)
    (hparent : id ∈ c.state.parentTasks) (hrecorded : task.status = .completed → next.Stores id) (hnext : ∀ c', Knows c' next) :
    Tracked ⟨{ c.state with activeTasks := c.state.activeTasks.insert id task }, c.calls.insert k next⟩ := by
  have hgrows : Grows c ⟨{ c.state with activeTasks := c.state.activeTasks.insert id task }, c.calls.insert k next⟩ :=
    grows_insert hcall (fun _ h => h) (fun _ h => h) fun id hid => absurd hid (hstores id)
  refine h.move hgrows ?_ ?_ (hnext _)
  · intro id' hid'
    rcases (mem_insert _).mp hid' with rfl | hid'
    · exact hparent
    · exact h.parents id' hid'
  · intro id' task' htask' hcompleted
    change (c.state.activeTasks.insert id task).lookup id' = some task' at htask'
    rcases Table.lookup_insert_eq_some.mp htask' with ⟨rfl, rfl⟩ | ⟨-, htask'⟩
    · exact .inr (Config.some_insert (hrecorded hcompleted))
    · exact hgrows.recorded id' (h.recorded id' task' htask' hcompleted)

/-! ## The sections -/

theorem knows_nextChunk (call : SubmitCall) (validators : List NodeId) (i : Nat) :
    Knows c (.submitTask { call with point := call.nextChunk validators i chunks }) := by
  cases chunks with
  | nil => trivial
  | cons chunk rest =>
    intro hcompleted
    cases hcompleted

theorem mem_of_lookup {t : Table TaskId V} {id : TaskId} (h : t.lookup id = some v) : id ∈ t :=
  lookup_isSome.mp (h ▸ rfl)

theorem Tracked.submit {call : SubmitCall} (h : Tracked c) (hcall : c.calls.lookup k = some (.submitTask call)) :
    Tracked ⟨(call.proceed c.state).1, c.calls.insert k (.submitTask { call with point := (call.proceed c.state).2 })⟩ := by
  have hstores : ∀ id, ¬ (PrimaryCall.submitTask call).Stores id := fun _ => not_false
  have hknows := h.calls k _ hcall
  obtain ⟨task, clock, point⟩ := call
  cases point with
  | split =>
    unfold SubmitCall.proceed
    dsimp only
    split <;> exact h.read hcall hstores trivial
  | readValidators chunks =>
    unfold SubmitCall.proceed
    dsimp only
    split
    · exact h.read hcall hstores trivial
    · exact h.read hcall hstores (knows_nextChunk ⟨task, clock, .readValidators chunks⟩ c.state.validators 0)
  | writeParentTasks validators i chunk rest =>
    refine h.quiet (grows_insert hcall ?_ (fun _ => id) fun id hid => absurd hid (hstores id)) rfl ⟨hknows, ?_⟩
    · intro id hid
      exact (mem_insert _).mpr (.inr hid)
    · exact (mem_insert _).mpr (.inl rfl)
  | writeActiveTasks validators i chunk rest =>
    refine h.activate hcall hstores hknows.2 (fun hcompleted => absurd hcompleted hknows.1) ?_
    intro c'
    exact knows_nextChunk ⟨task, clock, .writeActiveTasks validators i chunk rest⟩ validators (i + 1)
  | returned result | panicked => exact h.read hcall hstores trivial

theorem completeTask_ok (h : completeTask active source result = .ok active') :
    ∃ task, active.lookup result.taskId = some task ∧ active' = active.insert result.taskId { task with status := .completed } := by
  unfold completeTask at h
  split at h
  · cases h
  · rename_i task htask
    split at h
    · cases h
    · split at h
      · cases h
      · exact ⟨task, htask, (Except.ok.inj h).symm⟩

theorem Tracked.result {call : ResultCall} (h : Tracked c) (hcall : c.calls.lookup k = some (.handleTaskResult call)) :
    Tracked ⟨(call.proceed c.state).1, c.calls.insert k (.handleTaskResult { call with point := (call.proceed c.state).2 })⟩ := by
  have hstores : call.point.storing = false → ∀ id, ¬ (PrimaryCall.handleTaskResult call).Stores id := by
    rintro hpoint id ⟨hstoring, -⟩
    rw [hpoint] at hstoring
    cases hstoring
  obtain ⟨source, result, point⟩ := call
  cases point with
  | writeActiveTasks =>
    unfold ResultCall.proceed
    dsimp only
    split
    · exact h.read hcall (hstores rfl) trivial
    · rename_i active' hmark
      obtain ⟨task, htask, rfl⟩ := completeTask_ok hmark
      -- the handler itself is now about to store the result of the chunk it has marked
      exact h.activate hcall (hstores rfl) (h.parents _ (mem_of_lookup htask)) (fun _ => ⟨rfl, rfl⟩) fun _ => trivial
  | writeResults =>
    refine h.quiet (grows_insert hcall (fun _ => id) ?_ ?_) rfl trivial
    · intro id hid
      exact (mem_insert _).mpr (.inr hid)
    · rintro id ⟨-, rfl⟩
      exact (mem_insert _).mpr (.inl rfl)
  | readParentTasks | readAllParentTasks parentId =>
    unfold ResultCall.proceed
    dsimp only
    split <;> exact h.read hcall (hstores rfl) trivial
  | readResults parentId | returned result | panicked => exact h.read hcall (hstores rfl) trivial

theorem Tracked.error (h : Tracked c) {id : TaskId} {error : String} {returned : Bool}
    (hcall : c.calls.lookup k = some (.handleTaskError id error returned)) :
    Tracked ⟨{ c.state with activeTasks := failTask c.state.activeTasks id error },
      c.calls.insert k (.handleTaskError id error true)⟩ := by
  unfold failTask
  split
  · exact h.read hcall (fun _ => not_false) trivial
  · rename_i task htask
    exact h.activate hcall (fun _ => not_false) (h.parents id (mem_of_lookup htask)) (fun hcompleted => nomatch hcompleted)
      fun _ => trivial

theorem Tracked.snapshot {call : SnapshotCall} (h : Tracked c) (hcall : c.calls.lookup k = some (.snapshot call)) :
    Tracked ⟨(call.proceed c.state).1, c.calls.insert k (.snapshot (call.proceed c.state).2)⟩ := by
  have hstores : ∀ id, ¬ (PrimaryCall.snapshot call).Stores id := fun _ => not_false
  have hknows := h.calls k _ hcall
  have hgrows : ∀ next, Grows c ⟨c.state, c.calls.insert k next⟩ := fun next =>
    grows_insert hcall (fun _ => id) (fun _ => id) fun id hid => absurd hid (hstores id)
  obtain ⟨heartbeat, point⟩ := call
  cases point with
  | writeSequence => exact h.quiet (grows_insert hcall (fun _ => id) (fun _ => id) fun id hid => absurd hid (hstores id)) rfl trivial
  | readValidators => exact h.read hcall hstores trivial
  | readActiveTasks validators => exact h.read hcall hstores ⟨h.parents, (hgrows _).allRecorded h.recorded⟩
  | readParentTasks validators activeTasks => exact h.read hcall hstores ⟨hknows.1, (hgrows _).allRecorded hknows.2⟩
  | readResults validators activeTasks parentTasks => exact h.read hcall hstores hknows.1
  | returned s => exact h.read hcall hstores hknows

theorem Tracked.step (h : Tracked c) (hstep : c.Step primaryProtocol k c') : Tracked c' := by
  obtain ⟨call, -, hcall, -, rfl⟩ := Config.step_cases hstep
  cases call with
  | submitTask call => exact h.submit hcall
  | handleTaskResult call => exact h.result hcall
  | handleTaskError id error returned => exact h.error hcall
  | snapshot call => exact h.snapshot hcall

theorem tracked_start : Tracked (primaryStart validators calls) := by
  refine ⟨fun id hid => absurd hid (notMem_empty id), ?_, ?_⟩
  · intro id task htask
    cases htask
  · intro k call hcall
    rw [primaryStart, Table.lookup_mapValues, map_eq_some_iff] at hcall
    obtain ⟨args, -, rfl⟩ := hcall
    cases args <;> trivial

/-- Every snapshot that has been returned holds the result of every chunk it holds as completed. -/
def AllKeepResults (c : Config Coordinator PrimaryCall) : Prop :=
  c.All fun call => ∀ s, call.Returned s → s.KeepsResults

theorem allKeepResults_step (h : Tracked c) (hkept : AllKeepResults c) (hstep : SettledStep c k c') : AllKeepResults c' := by
  obtain ⟨hstep, hsettled⟩ := hstep
  obtain ⟨call, -, hcall, -, rfl⟩ := Config.step_cases hstep
  refine Config.All.insert hkept ?_
  cases call with
  | submitTask call | handleTaskResult call | handleTaskError id error returned => exact fun _ => False.elim
  | snapshot call =>
    have hknows := h.calls k _ hcall
    have hsettled := hsettled _ hcall
    have hbefore := hkept k _ hcall
    obtain ⟨heartbeat, point⟩ := call
    cases point with
    | readResults validators activeTasks parentTasks =>
      rintro s hreturned id task htask hcompleted
      obtain rfl := SnapshotPoint.returned.inj hreturned
      rcases hknows.2 id task htask hcompleted with hstored | hpending
      · exact hstored
      · obtain ⟨k', call', hcall', hstores⟩ := hpending
        exact absurd hstores (hsettled ⟨id, task⟩ (mem_lookup_iff.mp htask) hcompleted k' call' hcall')
    | returned s => exact hbefore
    | _ =>
      intro s hreturned
      cases hreturned

end FailoverAux

open FailoverAux in
/-- In every interleaving of submissions, results, errors and snapshots on a primary in which a snapshot reads the results only
when no handler has yet to store the result of a chunk it has copied as completed: every chunk of every snapshot has its
parent, every completed one its result, and a promoted standby accepts the result of every chunk it has none for, from its
assignee. -/
theorem failover_loses_no_chunk {validators : List NodeId} {calls : Table Nat PrimaryArgs} {grants : List Nat}
    {c : Config Coordinator PrimaryCall} (hrun : Run SettledStep (primaryStart validators calls) grants c) :
    ∀ k call s, c.calls.lookup k = some call → call.Returned s → s.KeepsParents ∧ s.KeepsResults ∧ s.Resumes := by
  have hinvariant : Tracked c ∧ AllKeepResults c := by
    refine hrun.invariant (P := fun c => Tracked c ∧ AllKeepResults c) ⟨tracked_start, ?_⟩ ?_
    · intro k call hcall s hreturned
      rw [primaryStart, Table.lookup_mapValues, map_eq_some_iff] at hcall
      obtain ⟨args, -, rfl⟩ := hcall
      cases args <;> cases hreturned
    · rintro c k c' ⟨htracked, hkept⟩ hstep
      exact ⟨htracked.step hstep.1, allKeepResults_step htracked hkept hstep⟩
  intro k call s hcall hreturned
  have hresults : s.KeepsResults := hinvariant.2 k call hcall s hreturned
  refine ⟨?_, hresults, hresults.resumes⟩
  cases call with
  | snapshot call =>
    obtain ⟨heartbeat, point⟩ := call
    obtain rfl : point = .returned s := hreturned
    exact hinvariant.1.calls k _ hcall
  | _ => cases hreturned

namespace FailoverSample

def validator : NodeId := [7]

def result : TaskResult := ⟨"job-chunk-0", 1, .hashes [(1, "aa")] 1⟩

def calls : Table Nat PrimaryArgs :=
  ((insert 0 (.submitTask (.hashCalculation 1 1 "sha256") "job" 0 fun _ => 0) ∅).insert 1
    (.handleTaskResult validator result)).insert 2 (.nextHeartbeatRequest [1])

def start : Config Coordinator PrimaryCall := primaryStart [validator] calls

/-- The chunk is active, its result is marked and stored, and then the snapshot is taken. -/
def inTurn : List Nat := [0, 0, 0, 0, 1, 1, 1, 2, 2, 2, 2, 2]

/-- The snapshot is taken between the mark of the result and its store. -/
def between : List Nat := [0, 0, 0, 0, 1, 2, 2, 2, 2, 2, 1]

def returned (c : Config Coordinator PrimaryCall) : Option CoordinatorSnapshot :=
  match c.calls.lookup 2 with
  | some (.snapshot ⟨_, .returned s⟩) => some s
  | _ => none

def settledAdvance : Config Coordinator PrimaryCall → Nat → Option (Config Coordinator PrimaryCall) :=
  Run.guarded (fun c k => ∀ call, c.calls.lookup k = some call → call.Settled c) (Config.advance primaryProtocol)

theorem returned_some (h : returned c = some s) : ∃ call, c.calls.lookup 2 = some call ∧ call.Returned s := by
  unfold returned at h
  split at h
  · rename_i heartbeat s' hcall
    obtain rfl := some.inj h
    exact ⟨_, hcall, rfl⟩
  · cases h

end FailoverSample

open FailoverSample in
/-- A snapshot taken after the result has been stored has the chunk, marked as completed, with its parent and its result. -/
theorem failover_loses_no_chunk_in_turn : ∃ c s, Run SettledStep start inTurn c ∧ returned c = some s ∧
      (s.activeTasks.lookup "job-chunk-0").map (·.status) = some .completed ∧ s.KeepsParents ∧ s.KeepsResults ∧ s.Resumes := by
  have hrun : ((inTurn.foldlM settledAdvance start).any fun c => (returned c).any fun s =>
      decide ((s.activeTasks.lookup "job-chunk-0").map (·.status) = some .completed)) = true := by
    decide +kernel
  obtain ⟨c, hc, hreturned⟩ := (any_eq_true _ _).mp hrun
  obtain ⟨s, hs, hfacts⟩ := (any_eq_true _ _).mp hreturned
  have hsettled : Run SettledStep start inTurn c := Run.of_foldlM Run.of_guarded hc
  obtain ⟨call, hcall, hcallReturned⟩ := returned_some hs
  exact ⟨c, s, hsettled, hs, of_decide_eq_true hfacts, failover_loses_no_chunk hsettled 2 call s hcall hcallReturned⟩

open FailoverSample in
/-- A snapshot taken between the mark of a result and its store has the chunk as completed and not the result; a standby that is
promoted from it refuses the result of the assignee as already recorded. -/
theorem failover_loses_chunk :
    ∃ c s, Run (Config.Step primaryProtocol) start between c ∧ returned c = some s ∧ "job-chunk-0" ∉ s.results ∧
      (s.activeTasks.lookup "job-chunk-0").map (·.status) = some .completed ∧
      (s.activeTasks.lookup "job-chunk-0").bind (·.assignedTo) = some (debugNode validator) ∧
      ∀ standby : Coordinator, standby.held = s →
        completeTask standby.activeTasks validator result = .error "result for job-chunk-0 already recorded" := by
  have hrun : ((between.foldlM (Config.advance primaryProtocol) start).any fun c => (returned c).any fun s =>
      decide ((s.results.lookup "job-chunk-0").isNone ∧
        (s.activeTasks.lookup "job-chunk-0").map (·.status) = some .completed ∧
        (s.activeTasks.lookup "job-chunk-0").bind (·.assignedTo) = some (debugNode validator))) = true := by
    decide +kernel
  obtain ⟨c, hc, hreturned⟩ := (any_eq_true _ _).mp hrun
  obtain ⟨s, hs, hfacts⟩ := (any_eq_true _ _).mp hreturned
  obtain ⟨hmissing, hmarked, hassigned⟩ := of_decide_eq_true hfacts
  refine ⟨c, s, Run.of_foldlM (fun _ _ _ h => h) hc, hs, ?_, hmarked, hassigned, ?_⟩
  · exact lookup_eq_none.mp (isNone_iff_eq_none.mp hmissing)
  · rintro standby rfl
    obtain ⟨task, htask, hstatus⟩ := map_eq_some_iff.mp hmarked
    rw [htask, bind_some] at hassigned
    change standby.activeTasks.lookup result.taskId = some task at htask
    simp only [completeTask, htask, hassigned, ne_eq, not_true_eq_false, if_false, hstatus, if_true]
    rfl

end Paraloom.OffChain
