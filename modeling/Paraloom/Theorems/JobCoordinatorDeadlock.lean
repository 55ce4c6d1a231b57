import Paraloom.OffChain.CoordinatorLocks

/-!
# When the job coordinator deadlocks

`assign_job` takes the pending assignments under the validators, and the other calls the active ones under the pending ones.
The two calls that retry assignments take them the other way round, so calls can wait for each other in a circle. They never do
when no such calls come together.
-/

namespace Paraloom.OffChain

open LockOrder LockOrder.Program List

namespace JobCall

variable {call : JobCall}

/-- It takes the validators under the pending assignments. -/
def RetriesPending : JobCall → Prop
  | .handleTimeouts pending _ | .handleValidatorFailure pending _ => ∃ outcome ∈ pending, outcome ≠ .givenUp
  | _ => False

/-- It takes the validators, and under them the pending assignments, under the active assignments. -/
def RetriesActive : JobCall → Prop
  | .handleTimeouts _ active | .handleValidatorFailure _ active => ∃ outcome ∈ active, outcome ≠ .givenUp
  | _ => False

/-- It writes the pending assignments under the active ones. -/
def ReassignsActive : JobCall → Prop
  | .handleTimeouts _ active | .handleValidatorFailure _ active => .reassigned ∈ active
  | _ => False

/-- It writes the pending assignments under the validators. -/
def AssignsJob : JobCall → Prop
  | .assignJob validatorFound => validatorFound = true
  | _ => False

/-- It writes the active assignments under the pending ones. -/
def WritesBoth : JobCall → Prop
  | .markJobFetched wasPending => wasPending = true
  | .removeAssignment => True
  | _ => False

/-- It reads the active assignments under the pending ones. -/
def ReadsBoth : JobCall → Prop
  | .getValidatorLoad => True
  | _ => False

def WritesPending : JobCall → Prop
  | .assignJob validatorFound => validatorFound = true
  | .getValidatorLoad | .updateValidatorCapacity => False
  | _ => True

def WritesValidators : JobCall → Prop
  | .updateValidatorCapacity | .handleValidatorFailure _ _ => True
  | _ => False

theorem ReassignsActive.retriesActive (h : call.ReassignsActive) : call.RetriesActive := by
  cases call with
  | handleTimeouts pending active | handleValidatorFailure pending active => exact ⟨_, h, nofun⟩
  | _ => exact h

theorem RetriesActive.writesPending (h : call.RetriesActive) : call.WritesPending := by
  cases call <;> first | exact trivial | exact h.elim

theorem RetriesPending.writesPending (h : call.RetriesPending) : call.WritesPending := by
  cases call <;> first | exact trivial | exact h.elim

theorem AssignsJob.writesPending (h : call.AssignsJob) : call.WritesPending := by
  cases call <;> first | exact h | exact h.elim

end JobCall

/-- Calls that can come to wait for each other in a circle. -/
inductive Conflict {ι : Type} (calls : ι → JobCall) : Prop where
  /-- One retries an active assignment, and another writes the active assignments under the pending ones. -/
  | write {i j : ι} (hi : (calls i).RetriesActive) (hj : (calls j).WritesBoth)
  /-- One reassigns an active assignment, and another reads the active assignments under the pending ones. -/
  | read {i j : ι} (hi : (calls i).ReassignsActive) (hj : (calls j).ReadsBoth)
  /-- One retries an active assignment, another reads the active assignments under the pending ones, and a third writes the
  pending ones. -/
  | readBehindWriter {i j k : ι} (hne : i ≠ k) (hi : (calls i).RetriesActive) (hj : (calls j).ReadsBoth)
      (hk : (calls k).WritesPending)
  /-- One takes the pending assignments under the validators, another the validators under the pending assignments, and a third
  writes the validators. -/
  | validators {i j k : ι} (hij : i ≠ j) (hik : i ≠ k) (hjk : j ≠ k) (hi : (calls i).AssignsJob ∨ (calls i).RetriesActive)
      (hj : (calls j).RetriesPending) (hk : (calls k).WritesValidators)

/-! ## Where the calls ask -/

/-- The guards that a call holds where it asks for another. -/
inductive JobCall.Asks (call : JobCall) : List (JobLock × Access) → Access → JobLock → Prop where
  | first {access : Access} {lock : JobLock} (hpending : access = .write → lock = .pendingAssignments → call.WritesPending)
      (hvalidators : access = .write → lock = .validators → call.WritesValidators) : Asks call [] access lock
  | assignJob (h : call.AssignsJob) : Asks call [(.validators, .read)] .write .pendingAssignments
  | writeBoth (h : call.WritesBoth) : Asks call [(.pendingAssignments, .write)] .write .activeAssignments
  | readBoth (h : call.ReadsBoth) : Asks call [(.pendingAssignments, .read)] .read .activeAssignments
  | retryPending (h : call.RetriesPending) : Asks call [(.pendingAssignments, .write)] .read .validators
  | retryActive (h : call.RetriesActive) : Asks call [(.activeAssignments, .write)] .read .validators
  | countPending (h : call.RetriesActive) :
      Asks call [(.validators, .read), (.activeAssignments, .write)] .read .pendingAssignments
  | reassign (h : call.ReassignsActive) :
      Asks call [(.validators, .read), (.activeAssignments, .write)] .write .pendingAssignments

namespace JobLockProgram

variable {call : JobCall}

theorem asks_forEach (h : ∀ outcome ∈ outcomes, (retry outcome).Asks P held) : (forEach retry outcomes).Asks P held := by
  induction outcomes with
  | nil => exact trivial
  | cons outcome outcomes ih =>
    rw [forEach, asks_append]
    exact ⟨h outcome mem_cons_self, ih fun other hother => h other (mem_cons_of_mem _ hother)⟩

theorem asks_retryPending (h : ∀ outcome ∈ outcomes, outcome ≠ .givenUp → call.RetriesPending) :
    (forEach retryPending outcomes).Asks call.Asks [(.pendingAssignments, .write)] := by
  refine asks_forEach fun outcome houtcome => ?_
  cases outcome with
  | givenUp => exact trivial
  | noValidator | reassigned => exact ⟨.retryPending (h _ houtcome nofun), trivial, trivial⟩

theorem asks_retryActive (h : ∀ outcome ∈ outcomes, outcome ≠ .givenUp → call.RetriesActive)
    (hreassigned : .reassigned ∈ outcomes → call.ReassignsActive) :
    (forEach retryActive outcomes).Asks call.Asks [(.activeAssignments, .write)] := by
  refine asks_forEach fun outcome houtcome => ?_
  cases outcome with
  | givenUp => exact trivial
  | noValidator =>
    have hretries := h _ houtcome nofun
    exact ⟨.retryActive hretries, ⟨.countPending hretries, trivial, trivial⟩, trivial⟩
  | reassigned =>
    have hretries := h _ houtcome nofun
    rw [retryActive, asks_reading, asks_append, asks_reading, asks_writing]
    exact ⟨.retryActive hretries, ⟨.countPending hretries, trivial⟩, .reassign (hreassigned houtcome), trivial⟩

theorem asks_handleTimeouts : (handleTimeouts pending active).Asks (JobCall.handleTimeouts pending active).Asks [] := by
  rw [handleTimeouts, retryAssignments, asks_append, asks_writing, asks_writing]
  refine ⟨⟨.first (fun _ _ => trivial) nofun, asks_retryPending ?_⟩, .first nofun nofun, asks_retryActive ?_ id⟩
  · exact fun outcome houtcome hne => ⟨outcome, houtcome, hne⟩
  · exact fun outcome houtcome hne => ⟨outcome, houtcome, hne⟩

theorem asks_handleValidatorFailure :
    (handleValidatorFailure pending active).Asks (JobCall.handleValidatorFailure pending active).Asks [] := by
  rw [handleValidatorFailure, removeValidator, retryAssignments, asks_append, asks_append, asks_writing, asks_writing,
    asks_writing]
  refine ⟨⟨.first nofun fun _ _ => trivial, trivial⟩, ⟨.first (fun _ _ => trivial) nofun, asks_retryPending ?_⟩,
    .first nofun nofun, asks_retryActive ?_ id⟩
  · exact fun outcome houtcome hne => ⟨outcome, houtcome, hne⟩
  · exact fun outcome houtcome hne => ⟨outcome, houtcome, hne⟩

end JobLockProgram

open JobLockProgram in
theorem JobCall.asks_program (call : JobCall) : call.program.Asks call.Asks [] := by
  cases call with
  | assignJob validatorFound =>
    cases validatorFound with
    | false => exact ⟨.first nofun nofun, trivial, trivial⟩
    | true => exact ⟨.first nofun nofun, ⟨.assignJob rfl, trivial, trivial⟩, trivial⟩
  | markJobFetched wasPending =>
    cases wasPending with
    | false => exact ⟨.first (fun _ _ => trivial) nofun, trivial, trivial⟩
    | true => exact ⟨.first (fun _ _ => trivial) nofun, ⟨.writeBoth rfl, trivial, trivial⟩, trivial⟩
  | removeAssignment => exact ⟨.first (fun _ _ => trivial) nofun, ⟨.writeBoth trivial, trivial, trivial⟩, trivial⟩
  | getValidatorLoad => exact ⟨.first nofun nofun, ⟨.readBoth trivial, trivial, trivial⟩, trivial⟩
  | updateValidatorCapacity => exact ⟨.first nofun fun _ _ => trivial, trivial, trivial⟩
  | handleTimeouts pending active => exact asks_handleTimeouts
  | handleValidatorFailure pending active => exact asks_handleValidatorFailure

/-! ## When no call can step -/

namespace JobDeadlock

variable {ι : Type} {calls : ι → JobCall} {c : Config ι JobLock} {guard : JobLock × Access}

variable (hplaced : Placed (fun i => (calls i).Asks) c)

section Waiting

include hplaced

theorem asks_of_waiting (hwaiting : waiting ∈ c.queue lock) :
    (calls waiting.1).Asks (c.tasks waiting.1).held waiting.2 lock := by
  obtain ⟨rest, hops⟩ := hplaced.waits lock waiting hwaiting
  exact hplaced.allowed hops

theorem writesPending_of_waiting (hwaiting : (i, .write) ∈ c.queue .pendingAssignments) : (calls i).WritesPending := by
  have hasks := asks_of_waiting hplaced hwaiting
  dsimp only at hasks
  generalize (c.tasks i).held = held at hasks
  cases hasks with
  | first hpending _ => exact hpending rfl rfl
  | assignJob h => exact h.writesPending
  | reassign h => exact h.retriesActive.writesPending

theorem writesValidators_of_waiting (hwaiting : (i, .write) ∈ c.queue .validators) :
    (calls i).WritesValidators ∧ (c.tasks i).held = [] := by
  have hasks := asks_of_waiting hplaced hwaiting
  dsimp only at hasks
  generalize (c.tasks i).held = held at hasks ⊢
  cases hasks with
  | first _ hvalidators => exact ⟨hvalidators rfl rfl, rfl⟩

end Waiting

variable [DecidableEq ι] (hstuck : ∀ i c', ¬ c.Step i c')
include hplaced hstuck

section Held

variable {i : ι} (hguard : guard ∈ (c.tasks i).held)
include hguard

theorem waits_of_held : ∃ access lock, (calls i).Asks (c.tasks i).held access lock ∧ (i, access) ∈ c.queue lock := by
  obtain ⟨access, lock, rest, hops, hqueued⟩ := hplaced.stuck (hplaced.unfinished hguard) (hstuck i)
  exact ⟨access, lock, hplaced.allowed hops, hqueued⟩

theorem validators_held (hlock : guard.1 = .validators) : guard.2 = .read ∧ ((calls i).AssignsJob ∨ (calls i).RetriesActive) ∧
      (∃ rest, (c.tasks i).held = (.validators, .read) :: rest) ∧ ∃ access, (i, access) ∈ c.queue .pendingAssignments := by
  obtain ⟨access, lock, hasks, hqueued⟩ := waits_of_held hplaced hstuck hguard
  generalize (c.tasks i).held = held at hasks hguard ⊢
  cases hasks with
  | assignJob h =>
    obtain rfl := mem_singleton.mp hguard
    exact ⟨rfl, .inl h, ⟨_, rfl⟩, _, hqueued⟩
  | countPending h =>
    rcases mem_pair.mp hguard with rfl | rfl
    · exact ⟨rfl, .inr h, ⟨_, rfl⟩, _, hqueued⟩
    · cases hlock
  | reassign h =>
    rcases mem_pair.mp hguard with rfl | rfl
    · exact ⟨rfl, .inr h.retriesActive, ⟨_, rfl⟩, _, hqueued⟩
    · cases hlock
  | first => cases hguard
  | writeBoth | readBoth | retryPending | retryActive =>
    obtain rfl := mem_singleton.mp hguard
    cases hlock

theorem pending_held (hlock : guard.1 = .pendingAssignments) : (c.tasks i).held = [guard] ∧
      ((guard.2 = .write ∧ (calls i).WritesBoth ∧ (i, .write) ∈ c.queue .activeAssignments) ∨
        (guard.2 = .write ∧ (calls i).RetriesPending ∧ (i, .read) ∈ c.queue .validators) ∨
        (guard.2 = .read ∧ (calls i).ReadsBoth ∧ (i, .read) ∈ c.queue .activeAssignments)) := by
  obtain ⟨access, lock, hasks, hqueued⟩ := waits_of_held hplaced hstuck hguard
  generalize (c.tasks i).held = held at hasks hguard ⊢
  cases hasks with
  | writeBoth h =>
    obtain rfl := mem_singleton.mp hguard
    exact ⟨rfl, .inl ⟨rfl, h, hqueued⟩⟩
  | retryPending h =>
    obtain rfl := mem_singleton.mp hguard
    exact ⟨rfl, .inr (.inl ⟨rfl, h, hqueued⟩)⟩
  | readBoth h =>
    obtain rfl := mem_singleton.mp hguard
    exact ⟨rfl, .inr (.inr ⟨rfl, h, hqueued⟩)⟩
  | first => cases hguard
  | assignJob | retryActive =>
    obtain rfl := mem_singleton.mp hguard
    cases hlock
  | countPending | reassign =>
    rcases mem_pair.mp hguard with rfl | rfl <;> cases hlock

theorem active_held (hlock : guard.1 = .activeAssignments) : (calls i).RetriesActive ∧
      (((c.tasks i).held = [(.activeAssignments, .write)] ∧ (i, .read) ∈ c.queue .validators) ∨
        ((c.tasks i).held = [(.validators, .read), (.activeAssignments, .write)] ∧
          ((i, .read) ∈ c.queue .pendingAssignments ∨ (calls i).ReassignsActive))) := by
  obtain ⟨access, lock, hasks, hqueued⟩ := waits_of_held hplaced hstuck hguard
  generalize (c.tasks i).held = held at hasks hguard ⊢
  cases hasks with
  | retryActive h => exact ⟨h, .inl ⟨rfl, hqueued⟩⟩
  | countPending h => exact ⟨h, .inr ⟨rfl, .inl hqueued⟩⟩
  | reassign h => exact ⟨h.retriesActive, .inr ⟨rfl, .inr h⟩⟩
  | first => cases hguard
  | assignJob | writeBoth | readBoth | retryPending =>
    obtain rfl := mem_singleton.mp hguard
    cases hlock

end Held

theorem conflict_of_reader (hreads : (calls i).ReadsBoth) (hqueued : (i, .read) ∈ c.queue .activeAssignments) :
    Conflict calls := by
  obtain ⟨_, _, j, guard, hguard, hlock, -⟩ := hplaced.exists_holder hstuck hqueued
  obtain ⟨hretries, ⟨hheld, hj⟩ | ⟨hheld, hj | hj⟩⟩ := active_held hplaced hstuck hguard hlock
  · -- the validators are held by a call that waits to write the pending assignments
    obtain ⟨_, _, k, guard', hguard', hlock', -⟩ := hplaced.exists_holder hstuck hj
    obtain ⟨-, hk, ⟨rest, hrest⟩, -⟩ := validators_held hplaced hstuck hguard' hlock'
    have hne : j ≠ k := by
      rintro rfl
      rw [hheld] at hrest
      cases hrest
    refine .readBehindWriter hne hretries hreads ?_
    rcases hk with hassigns | hk
    · exact hassigns.writesPending
    · exact hk.writesPending
  · rcases hplaced.exists_excluding hj (hstuck j) with ⟨k, guard', hguard', hlock', hexcludes⟩ | ⟨⟨k, access⟩, hk, hne, hexcludes⟩
    · -- the pending assignments are held by a writer
      obtain ⟨hheld', ⟨-, hwrites, -⟩ | ⟨-, hretries', -⟩ | ⟨hread, -⟩⟩ := pending_held hplaced hstuck hguard' hlock'
      · exact .write hretries hwrites
      · have hne : j ≠ k := by
          rintro rfl
          rw [hheld] at hheld'
          cases hheld'
        exact .readBehindWriter hne hretries hreads hretries'.writesPending
      · rw [hread] at hexcludes
        exact absurd hexcludes Access.not_excludes_read
    · -- a writer has waited longer
      cases access with
      | read => exact absurd hexcludes Access.not_excludes_read
      | write => exact .readBehindWriter hne.symm hretries hreads (writesPending_of_waiting hplaced hk)
  · exact .read hj hreads

theorem conflict_of_retrier (hretries : (calls i).RetriesPending) (hheld : (c.tasks i).held = [guard])
    (hlock : guard.1 = .pendingAssignments) (hqueued : (i, .read) ∈ c.queue .validators) : Conflict calls := by
  obtain ⟨⟨k, access⟩, hk, j, guard', hguard', hlock', hexcludes⟩ := hplaced.exists_holder hstuck hqueued
  obtain ⟨hread, hj, ⟨rest, hrest⟩, -⟩ := validators_held hplaced hstuck hguard' hlock'
  -- the guard is shared, so the call that has waited longest is a writer
  rw [hread] at hexcludes
  cases access with
  | read => exact absurd hexcludes Access.not_excludes_read
  | write =>
    obtain ⟨hwrites, hnone⟩ := writesValidators_of_waiting hplaced hk
    refine .validators (i := j) (j := i) (k := k) ?_ ?_ ?_ hj hretries hwrites
    · rintro rfl
      rw [hheld] at hrest
      cases hrest
      cases hlock
    · rintro rfl
      rw [hnone] at hrest
      cases hrest
    · rintro rfl
      rw [hnone] at hheld
      cases hheld

theorem conflict_of_pending_held (hguard : guard ∈ (c.tasks i).held) (hlock : guard.1 = .pendingAssignments) :
    Conflict calls := by
  obtain ⟨hheld, ⟨-, hwrites, hqueued⟩ | ⟨-, hretries, hqueued⟩ | ⟨-, hreads, hqueued⟩⟩ :=
    pending_held hplaced hstuck hguard hlock
  · obtain ⟨_, _, j, guard', hguard', hlock', -⟩ := hplaced.exists_holder hstuck hqueued
    exact .write (active_held hplaced hstuck hguard' hlock').1 hwrites
  · exact conflict_of_retrier hplaced hstuck hretries hheld hlock hqueued
  · exact conflict_of_reader hplaced hstuck hreads hqueued

theorem conflict_of_pending_waiting (hwaiting : waiting ∈ c.queue .pendingAssignments) : Conflict calls := by
  obtain ⟨_, _, j, guard, hguard, hlock, -⟩ := hplaced.exists_holder hstuck hwaiting
  exact conflict_of_pending_held hplaced hstuck hguard hlock

theorem conflict_of_validators_waiting (hwaiting : waiting ∈ c.queue .validators) : Conflict calls := by
  obtain ⟨_, _, j, guard, hguard, hlock, -⟩ := hplaced.exists_holder hstuck hwaiting
  obtain ⟨-, -, -, access, hqueued⟩ := validators_held hplaced hstuck hguard hlock
  exact conflict_of_pending_waiting hplaced hstuck hqueued

theorem conflict_of_active_waiting (hwaiting : waiting ∈ c.queue .activeAssignments) : Conflict calls := by
  obtain ⟨_, _, j, guard, hguard, hlock, -⟩ := hplaced.exists_holder hstuck hwaiting
  obtain ⟨-, ⟨-, hqueued⟩ | ⟨hheld, -⟩⟩ := active_held hplaced hstuck hguard hlock
  · exact conflict_of_validators_waiting hplaced hstuck hqueued
  · have hvalidators : (JobLock.validators, Access.read) ∈ (c.tasks j).held := hheld ▸ mem_cons_self
    obtain ⟨-, -, -, access, hqueued⟩ := validators_held hplaced hstuck hvalidators rfl
    exact conflict_of_pending_waiting hplaced hstuck hqueued

/-- Unfinished calls of which none can step are in conflict. -/
theorem conflict_of_stuck (hunfinished : c.Unfinished i) : Conflict calls := by
  obtain ⟨access, lock, rest, -, hqueued⟩ := hplaced.stuck hunfinished (hstuck i)
  cases lock with
  | validators => exact conflict_of_validators_waiting hplaced hstuck hqueued
  | pendingAssignments => exact conflict_of_pending_waiting hplaced hstuck hqueued
  | activeAssignments => exact conflict_of_active_waiting hplaced hstuck hqueued

end JobDeadlock

/-- For every finite set of calls on one job coordinator that are not in conflict, in every configuration that they reach and in
which some call is unfinished, some call can take a step. -/
theorem job_coordinator_progress {ι : Type} [Finite ι] [DecidableEq ι] (calls : ι → JobCall) (hcalls : ¬ Conflict calls)
    {order : List ι} {c : Config ι JobLock} (hrun : Run Config.Step (.start fun i => (calls i).program) order c)
    (hunfinished : ∃ i, c.Unfinished i) : ∃ i c', c.Step i c' := by
  have hstart : Placed (fun i => (calls i).Asks) (Config.start fun i => (calls i).program) :=
    placed_start fun i => (calls i).asks_program
  have hplaced : Placed (fun i => (calls i).Asks) c := hrun.invariant hstart fun _ _ _ hplaced hstep => hplaced.step hstep
  obtain ⟨i, hi⟩ := hunfinished
  by_contra hnone
  exact hcalls (JobDeadlock.conflict_of_stuck hplaced (fun j c' hstep => hnone ⟨j, c', hstep⟩) hi)

namespace JobLockSample

def calls : Fin 2 → JobCall
  | 0 => .assignJob true
  | 1 => .handleTimeouts [.reassigned] [.noValidator]

def circle : Fin 2 → JobCall
  | 0 => .markJobFetched true
  | 1 => .handleTimeouts [] [.reassigned]

end JobLockSample

open JobLockSample in
/-- `assign_job` waits for the pending assignments that `handle_timeouts` holds, and `handle_timeouts` goes on. -/
theorem job_coordinator_progress_assign : ∃ c : Config (Fin 2) JobLock,
    Run Config.Step (.start fun i => (calls i).program) [0, 0, 1, 1, 0] c ∧ c.queue .pendingAssignments = [(0, .write)] ∧
      ∃ i c', c.Step i c' := by
  have hasks : Run Config.Step (.start fun i => (calls i).program) [0] _ := Run.nil.snoc (.ask rfl (by decide))
  have hreads : Run Config.Step (.start fun i => (calls i).program) [0, 0] _ :=
    hasks.snoc (.enter rfl (nil_append _).symm (by decide) (by decide))
  have hwrites : Run Config.Step (.start fun i => (calls i).program) [0, 0, 1, 1] _ :=
    (hreads.snoc (.ask rfl (by decide))).snoc (.enter rfl (nil_append _).symm (by decide) (by decide))
  have hwaits : Run Config.Step (.start fun i => (calls i).program) [0, 0, 1, 1, 0] _ := hwrites.snoc (.ask rfl (by decide))
  have hnone : ∀ j, ¬ (calls j).WritesBoth ∧ ¬ (calls j).ReadsBoth ∧ ¬ (calls j).WritesValidators
    | 0 => ⟨id, id, id⟩
    | 1 => ⟨id, id, id⟩
  have hcalls : ¬ Conflict calls := by
    intro hconflict
    cases hconflict with
    | write _ hj => exact (hnone _).1 hj
    | read _ hj | readBehindWriter _ _ hj _ => exact (hnone _).2.1 hj
    | validators _ _ _ _ _ hk => exact (hnone _).2.2 hk
  refine ⟨_, hwaits, by decide, job_coordinator_progress calls hcalls hwaits ⟨0, ?_⟩⟩
  decide

open JobLockSample in
/-- `handle_timeouts` holds the active assignments and waits for the pending ones, `mark_job_fetched` holds the pending ones and
waits for the active ones. -/
theorem job_coordinator_deadlocks : ∃ (order : List (Fin 2)) (c : Config (Fin 2) JobLock),
    Run Config.Step (.start fun i => (circle i).program) order c ∧ (∃ i, c.Unfinished i) ∧ ¬ ∃ i c', c.Step i c' := by
  have hpending : Run Config.Step (.start fun i => (circle i).program) [1] _ := Run.nil.snoc (.ask rfl (by decide))
  have hdropped : Run Config.Step (.start fun i => (circle i).program) [1, 1, 1] _ :=
    (hpending.snoc (.enter rfl (nil_append _).symm (by decide) (by decide))).snoc (.leave rfl rfl)
  have hactive : Run Config.Step (.start fun i => (circle i).program) [1, 1, 1, 1, 1] _ :=
    (hdropped.snoc (.ask rfl (by decide))).snoc (.enter rfl (nil_append _).symm (by decide) (by decide))
  have hvalidators : Run Config.Step (.start fun i => (circle i).program) [1, 1, 1, 1, 1, 1, 1] _ :=
    (hactive.snoc (.ask rfl (by decide))).snoc (.enter rfl (nil_append _).symm (by decide) (by decide))
  have hfetch : Run Config.Step (.start fun i => (circle i).program) [1, 1, 1, 1, 1, 1, 1, 0, 0] _ :=
    (hvalidators.snoc (.ask rfl (by decide))).snoc (.enter rfl (nil_append _).symm (by decide) (by decide))
  have hcircle : Run Config.Step (.start fun i => (circle i).program) [1, 1, 1, 1, 1, 1, 1, 0, 0, 0, 1] _ :=
    (hfetch.snoc (.ask rfl (by decide))).snoc (.ask rfl (by decide))
  refine ⟨_, _, hcircle, ⟨0, by decide⟩, ?_⟩
  rintro ⟨i, c', hstep⟩
  match i with
  | 0 => exact Config.not_step (j := 1) rfl (by decide) (mem_cons_of_mem _ mem_cons_self) (.inl rfl) hstep
  | 1 => exact Config.not_step (j := 0) rfl (by decide) mem_cons_self (.inl rfl) hstep

end Paraloom.OffChain
