import Paraloom.Theorems.JobCapacity

/-!
# Retries of jobs

A job that was assigned stays with the coordinator, pending or active, until its last retry ends, as long as some validator has room
each time the job has to be assigned again. Where none has, the coordinator drops the job with its retries unused.
-/

namespace Paraloom.OffChain

open Option AList

/-! ## Runs -/

structure RetryHistory where
  coordinator : JobCoordinator
  assigned : List JobId

namespace RetryHistory

def start : RetryHistory := ⟨.new, []⟩

/-- A call, with the job that it assigns for the first time put on record. -/
def step (h : RetryHistory) (call : DistributionCall) : RetryHistory where
  coordinator := h.coordinator.call call
  assigned := match call with
    | .assignJob balance jobId now => match (h.coordinator.assignJob balance jobId now).2 with
      | some _ => h.assigned ++ [jobId]
      | none => h.assigned
    | _ => h.assigned

/-- Jobs are assigned under fresh ids. -/
def Fresh (h : RetryHistory) : DistributionCall → Prop
  | .assignJob _ jobId _ => jobId ∉ h.assigned
  | _ => True

instance (h : RetryHistory) : (call : DistributionCall) → Decidable (h.Fresh call)
  | .assignJob _ jobId _ => inferInstanceAs (Decidable (jobId ∉ h.assigned))
  | .updateValidatorCapacity .. | .removeValidator .. | .markJobFetched .. | .removeAssignment .. | .handleTimeouts ..
  | .handleValidatorFailure .. => .isTrue trivial

end RetryHistory

namespace JobCoordinator

instance (c : JobCoordinator) (map : AssignmentMap) (v : CapacityAnnouncement) : Decidable (c.HasRoom map v) :=
  decidable_of_iff (c.countedLoad map v.validatorId < v.maxConcurrentJobs ∧ c.countedLoad map v.validatorId < Checked.u64Max)
    ⟨fun h => ⟨h.1, h.2⟩, fun h => ⟨h.belowMax, h.fits⟩⟩

/-- If the job has a retry left, some registered validator has room for it. -/
def RetryHasRoom (map : AssignmentMap) (c : JobCoordinator) (jobId : JobId) : Prop :=
  ∀ old ∈ (c.assignments map).lookup jobId, old.retryCount < maxJobRetries →
    ∃ e ∈ c.validators.entries, (c.withdraw jobId map).HasRoom map e.2

instance (map : AssignmentMap) (c : JobCoordinator) (jobId : JobId) : Decidable (c.RetryHasRoom map jobId) :=
  inferInstanceAs (Decidable (∀ old ∈ (c.assignments map).lookup jobId, _ → _))

/-- In both loops over the jobs that are selected, each job with a retry left finds room. -/
def LoopsHaveRoom (ι ι' : JobOrder) (ν : ValidatorOrder) (now : Nat)
    (selected : JobAssignment → Bool) (c : JobCoordinator) : Prop :=
  AtTurns (RetryHasRoom .pending) .pending ν now (c, []) (selectJobs .pending ι selected c) ∧
    AtTurns (RetryHasRoom .active) .active ν now (reassignJobs .pending ι ν now selected (c, []))
      (selectJobs .active ι' selected (reassignJobs .pending ι ν now selected (c, [])).1)

instance (ι ι' : JobOrder) (ν : ValidatorOrder) (now : Nat)
    (selected : JobAssignment → Bool) (c : JobCoordinator) : Decidable (LoopsHaveRoom ι ι' ν now selected c) :=
  inferInstanceAs (Decidable (_ ∧ _))

end JobCoordinator

/-- Every job that a call has to assign again finds room, if it has a retry left. -/
def DistributionCall.RetriesHaveRoom (c : JobCoordinator) : DistributionCall → Prop
  | .handleTimeouts ι ι' ν now => c.LoopsHaveRoom ι ι' ν now (·.isTimedOut now)
  | .handleValidatorFailure ι ι' ν now validatorId =>
    (c.removeValidator validatorId).LoopsHaveRoom ι ι' ν now (·.validatorId = validatorId)
  | _ => True

instance (c : JobCoordinator) : (call : DistributionCall) → Decidable (call.RetriesHaveRoom c)
  | .handleTimeouts ι ι' ν now => inferInstanceAs (Decidable (c.LoopsHaveRoom ι ι' ν now _))
  | .handleValidatorFailure ι ι' ν now validatorId =>
    inferInstanceAs (Decidable ((c.removeValidator validatorId).LoopsHaveRoom ι ι' ν now _))
  | .updateValidatorCapacity .. | .removeValidator .. | .assignJob .. | .markJobFetched .. | .removeAssignment .. =>
    .isTrue trivial

/-- A call under a fresh id if it assigns a job, and with room for the jobs that it has to assign again. -/
def RetryHistory.RoomyStep (h : RetryHistory) (call : DistributionCall) (h' : RetryHistory) : Prop :=
  h.Fresh call ∧ call.RetriesHaveRoom h.coordinator ∧ h.step call = h'

/-- The call ends the job: it removes it, or the last assignment of the job times out or loses its validator. -/
def DistributionCall.Ends (c : JobCoordinator) (jobId : JobId) : DistributionCall → Prop
  | .removeAssignment removed => removed = jobId
  | .handleTimeouts _ _ _ now => ∃ a ∈ c.assignment jobId, a.retryCount = maxJobRetries ∧ a.isTimedOut now = true
  | .handleValidatorFailure _ _ _ _ validatorId =>
    ∃ a ∈ c.assignment jobId, a.retryCount = maxJobRetries ∧ a.validatorId = validatorId
  | _ => False

namespace JobRetriesAux

open JobCoordinator

variable {c c' c'' : JobCoordinator} {map : AssignmentMap} {ν : ValidatorOrder} {now : Nat}
  {jobId j : JobId} {selected : JobAssignment → Bool}

/-! ## One turn -/

/-- A turn that finds room if it needs it. -/
def RoomyTurn (map : AssignmentMap) (now : Nat) (c : JobCoordinator) (jobId : JobId) (c' : JobCoordinator) : Prop :=
  ReassignTurn map now c jobId c' ∧ c.RetryHasRoom map jobId

/-- The job is not in both maps. -/
def Apart (c : JobCoordinator) (j : JobId) : Prop :=
  c.pendingAssignments.lookup j = none ∨ c.activeAssignments.lookup j = none

theorem turn_of_ne (h : ReassignTurn map now c jobId c') (hne : j ≠ jobId) (m : AssignmentMap) :
    (c'.assignments m).lookup j = (c.assignments m).lookup j := by
  have hwithdraw : ((c.withdraw jobId map).assignments m).lookup j = (c.assignments m).lookup j := by
    cases map <;> cases m <;> simp [withdraw, assignments, lookup_erase_ne hne]
  cases h with
  | absent => rfl
  | again =>
    rw [← hwithdraw]
    cases m <;> simp [assignments, lookup_insert_ne hne]
  | stranded => exact hwithdraw
  | exhausted => exact hwithdraw

/-- What becomes of an assignment that is taken away: the next try, or nothing after the last one. -/
inductive Retried (old : JobAssignment) : Option JobAssignment → Prop where
  | again (v : ValidatorId) (now : Nat) (left : old.retryCount < maxJobRetries) : Retried old (some (old.retry v now))
  | ended (used : maxJobRetries ≤ old.retryCount) : Retried old none

/-- The job is where it was. -/
def Same (c c' : JobCoordinator) (j : JobId) : Prop := ∀ m, (c'.assignments m).lookup j = (c.assignments m).lookup j

/-- The assignment that the job has in a map is taken away. The job is not active after that. -/
def Moved (map : AssignmentMap) (c c' : JobCoordinator) (j : JobId) : Prop :=
  ∃ old, (c.assignments map).lookup j = some old ∧ c'.activeAssignments.lookup j = none ∧
    Retried old (c'.pendingAssignments.lookup j)

theorem turn_self (h : RoomyTurn map now c j c') (hapart : Apart c j) : Same c c' j ∨ Moved map c c' j := by
  obtain ⟨h, hroom⟩ := h
  -- the job is in the map of the loop, so it is not in the other one
  have hgone : ∀ old, (c.assignments map).lookup j = some old → (c.withdraw j map).activeAssignments.lookup j = none ∧
      (c.withdraw j map).pendingAssignments.lookup j = none := by
    intro old hold
    rcases hapart with hnone | hnone <;> cases map <;> simp_all [withdraw, assignments, lookup_erase]
  cases h with
  | absent => exact .inl fun _ => rfl
  | again hold left => exact .inr ⟨_, hold, (hgone _ hold).1, by simpa using .again _ now left⟩
  | @stranded old hold left full =>
    obtain ⟨e, he, hfree⟩ := hroom old hold left
    exact absurd hfree (full e.1 e.2 (mem_lookup_iff.mpr he))
  | exhausted hold used => exact .inr ⟨_, hold, (hgone _ hold).1, (hgone _ hold).2 ▸ .ended used⟩

theorem Same.apart (h : Same c c' j) (hapart : Apart c j) : Apart c' j :=
  hapart.imp (h .pending).trans (h .active).trans

theorem Same.assignment (h : Same c c' j) : c'.assignment j = c.assignment j :=
  congrArg₂ Option.or (h .pending) (h .active)

theorem Moved.retried (h : Moved map c c' j) (hapart : Apart c j) :
    ∃ old, (c.assignments map).lookup j = some old ∧ c.assignment j = some old ∧ Retried old (c'.assignment j) := by
  obtain ⟨old, hold, hactive, hretried⟩ := h
  refine ⟨old, hold, ?_, ?_⟩
  · rcases hapart with hnone | hnone <;> cases map <;> simp_all [JobCoordinator.assignment, assignments]
  · rwa [JobCoordinator.assignment, hactive, or_none]

theorem loop_moves (hrun : Run (RoomyTurn map now) c jobs c') (hapart : ∀ j, Apart c j) :
    jobs.Nodup → ∀ j, Same c c' j ∨ j ∈ jobs ∧ Moved map c c' j := by
  refine hrun.induction (P := fun jobs c' => jobs.Nodup → ∀ j, Same c c' j ∨ j ∈ jobs ∧ Moved map c c' j)
    (fun _ _ => .inl fun _ => rfl) ?_
  intro jobs t a u _ ih hturn hall j
  obtain ⟨hnodup, -, hnew⟩ := List.nodup_append.mp hall
  by_cases hj : j = a
  · subst hj
    rcases ih hnodup j with hsame | ⟨hmem, -⟩
    · rcases turn_self hturn (hsame.apart (hapart j)) with hstays | ⟨old, hold, hmoved⟩
      · exact .inl fun m => (hstays m).trans (hsame m)
      · exact .inr ⟨by simp, old, (hsame map).symm.trans hold, hmoved⟩
    · exact absurd rfl (hnew j hmem j (by simp))
  · have hsame : Same t u j := turn_of_ne hturn.1 hj
    rcases ih hnodup j with hbefore | ⟨hmem, old, hold, hactive, hretried⟩
    · exact .inl fun m => (hsame m).trans (hbefore m)
    · refine .inr ⟨List.mem_append_left _ hmem, old, hold, (hsame .active).trans hactive, ?_⟩
      exact (hsame .pending).symm ▸ hretried

theorem selectJobs_nodup : (selectJobs map ι selected c).Nodup := by
  have hkeys : ((ι.visit (c.assignments map)).map (·.1)).Nodup :=
    ((ι.visit_perm _).map _).nodup_iff.mpr (c.assignments map).nodupKeys
  exact hkeys.sublist (List.filter_sublist.map _)

theorem selected_of_mem (h : j ∈ selectJobs map ι selected c) (ha : (c.assignments map).lookup j = some a) :
    selected a = true := by
  obtain ⟨e, he, rfl⟩ := List.mem_map.mp h
  obtain ⟨he, hselected⟩ := List.mem_filter.mp he
  have hlookup := mem_lookup_iff.mpr ((ι.visit_perm _).mem_iff.mp he)
  obtain rfl := some.inj (hlookup.symm.trans ha)
  exact hselected

/-- What a call does to the assignment of a job. -/
def Moves (selected : JobAssignment → Bool) (c c' : JobCoordinator) (j : JobId) : Prop :=
  c'.assignment j = c.assignment j ∨
    ∃ old, c.assignment j = some old ∧ selected old = true ∧ Retried old (c'.assignment j)

theorem loops_move (hapart : ∀ j, Apart c j) (hroom : c.LoopsHaveRoom ι ι' ν now selected) (j : JobId) :
    Apart (reassignJobs .active ι' ν now selected (reassignJobs .pending ι ν now selected (c, []))).1 j ∧
      Moves selected c (reassignJobs .active ι' ν now selected (reassignJobs .pending ι ν now selected (c, []))).1 j := by
  have hfirst := loop_moves hroom.1.run hapart (selectJobs_nodup)
  change ∀ j, Same c (reassignJobs .pending ι ν now selected (c, [])).1 j ∨ _ at hfirst
  have hapart₁ : ∀ j, Apart (reassignJobs .pending ι ν now selected (c, [])).1 j := fun j =>
    (hfirst j).elim (fun hsame => hsame.apart (hapart j)) fun ⟨_, _, _, hactive, _⟩ => .inr hactive
  rcases loop_moves hroom.2.run hapart₁ (selectJobs_nodup) j with hsame | ⟨hmem, hmoved⟩
  · refine ⟨hsame.apart (hapart₁ j), ?_⟩
    rcases hfirst j with hbefore | ⟨hmem, hmoved⟩
    · exact .inl (hsame.assignment.trans hbefore.assignment)
    · obtain ⟨old, hold, hassigned, hretried⟩ := hmoved.retried (hapart j)
      exact .inr ⟨old, hassigned, selected_of_mem hmem hold, hsame.assignment.symm ▸ hretried⟩
  · obtain ⟨old, hold, hassigned, hretried⟩ := hmoved.retried (hapart₁ j)
    refine ⟨.inr hmoved.choose_spec.2.1, ?_⟩
    rcases hfirst j with hbefore | ⟨-, -, -, hactive, -⟩
    · exact .inr ⟨old, hbefore.assignment.symm.trans hassigned, selected_of_mem hmem hold, hretried⟩
    · cases hactive.symm.trans hold

/-! ## One call -/

/-- What a call does to the assignment of a job that was assigned before. -/
inductive Outcome (call : DistributionCall) (c c' : JobCoordinator) (j : JobId) : Prop where
  | same (stays : c'.assignment j = c.assignment j)
  | again {old : JobAssignment} (v : ValidatorId) (now : Nat) (before : c.assignment j = some old)
      (left : old.retryCount < maxJobRetries) (after : c'.assignment j = some (old.retry v now))
  | ended (ends : call.Ends c j) (after : c'.assignment j = none)

/-- What every run keeps. -/
structure Kept (h : RetryHistory) : Prop where
  apart : ∀ j, Apart h.coordinator j
  known : ∀ {j a}, h.coordinator.assignment j = some a → j ∈ h.assigned
  bounded : ∀ {j a}, h.coordinator.assignment j = some a → a.retryCount ≤ maxJobRetries

variable {s t : RetryHistory} {call : DistributionCall}

theorem Moves.outcome (h : Moves selected c c' j) (hbounded : ∀ {a}, c.assignment j = some a → a.retryCount ≤ maxJobRetries)
    (hends : ∀ a, c.assignment j = some a → a.retryCount = maxJobRetries → selected a = true → call.Ends c j) :
    Outcome call c c' j := by
  rcases h with hsame | ⟨old, hold, hselected, hretried⟩
  · exact .same hsame
  · generalize hafter : c'.assignment j = after at hretried
    cases hretried with
    | again v now left => exact .again v now hold left hafter
    | ended used => exact .ended (hends old hold (Nat.le_antisymm (hbounded hold) used) hselected) hafter

theorem markJobFetched_same (hapart : ∀ j, Apart c j) (fetched j : JobId) :
    Apart (c.markJobFetched fetched) j ∧ (c.markJobFetched fetched).assignment j = c.assignment j := by
  have hj := hapart j
  unfold markJobFetched
  split
  · exact ⟨hj, rfl⟩
  · rename_i a hpending
    simp only [Apart, assignment, Table.lookup_erase_if, Table.lookup_insert_if] at hj ⊢
    split
    · rename_i hfetched
      subst hfetched
      exact ⟨.inl rfl, by rw [hpending]; rfl⟩
    · exact ⟨hj, rfl⟩

theorem removeAssignment_outcome (hapart : ∀ j, Apart c j) (removed j : JobId) :
    Apart (c.removeAssignment removed) j ∧ Outcome (.removeAssignment removed) c (c.removeAssignment removed) j := by
  have hj := hapart j
  by_cases hremoved : removed = j
  · subst hremoved
    exact ⟨.inl (lookup_erase _ _), .ended rfl (by simp [removeAssignment, assignment, lookup_erase])⟩
  · simp only [Apart, removeAssignment, lookup_erase_ne (Ne.symm hremoved)] at hj ⊢
    exact ⟨hj, .same (by simp [assignment, lookup_erase_ne (Ne.symm hremoved)])⟩

theorem step_cases (h : Kept s) (hstep : s.RoomyStep call t) : (∀ j, Apart t.coordinator j) ∧
    (t.assigned = s.assigned ∧ (∀ j, Outcome call s.coordinator t.coordinator j) ∨
      ∃ jobId a, jobId ∉ s.assigned ∧ t.assigned = s.assigned ++ [jobId] ∧ a.retryCount = 0 ∧
        ∀ j, t.coordinator.assignment j = if j = jobId then some a else s.coordinator.assignment j) := by
  obtain ⟨hfresh, hroom, rfl⟩ := hstep
  cases call with
  | updateValidatorCapacity | removeValidator => exact ⟨h.apart, .inl ⟨rfl, fun _ => .same rfl⟩⟩
  | markJobFetched jobId =>
    have hfetched := markJobFetched_same h.apart jobId
    exact ⟨fun j => (hfetched j).1, .inl ⟨rfl, fun j => .same (hfetched j).2⟩⟩
  | removeAssignment jobId =>
    have hremoved := removeAssignment_outcome h.apart jobId
    exact ⟨fun j => (hremoved j).1, .inl ⟨rfl, fun j => (hremoved j).2⟩⟩
  | handleTimeouts =>
    have hmoves := loops_move h.apart hroom
    refine ⟨fun j => (hmoves j).1, .inl ⟨rfl, fun j => (hmoves j).2.outcome h.bounded ?_⟩⟩
    exact fun a ha hlast htimeout => ⟨a, ha, hlast, htimeout⟩
  | handleValidatorFailure ι ι' ν now validatorId =>
    have hapart : ∀ j, Apart (s.coordinator.removeValidator validatorId) j := h.apart
    have hmoves : ∀ j, Apart (s.step (.handleValidatorFailure ι ι' ν now validatorId)).coordinator j ∧
        Moves (·.validatorId = validatorId) s.coordinator
          (s.step (.handleValidatorFailure ι ι' ν now validatorId)).coordinator j := loops_move hapart hroom
    refine ⟨fun j => (hmoves j).1, .inl ⟨rfl, fun j => (hmoves j).2.outcome h.bounded ?_⟩⟩
    exact fun a ha hlast hlost => ⟨a, ha, hlast, of_decide_eq_true hlost⟩
  | assignJob balance jobId now =>
    have hnone : s.coordinator.assignment jobId = none :=
      eq_none_iff_forall_ne_some.mpr fun a ha => hfresh (h.known ha)
    have hactive : s.coordinator.activeAssignments.lookup jobId = none := (or_eq_none_iff.mp hnone).2
    simp only [RetryHistory.step, JobCoordinator.call, assignJob]
    split
    · exact ⟨h.apart, .inl ⟨rfl, fun _ => .same rfl⟩⟩
    · rename_i v _
      refine ⟨fun j => ?_, .inr ⟨jobId, .new jobId v.validatorId now, hfresh, rfl, rfl, fun j => ?_⟩⟩
      · by_cases hj : j = jobId
        · exact .inr (hj ▸ hactive)
        · exact (h.apart j).imp_left (lookup_insert_ne hj).trans
      · simp only [assignment, Table.lookup_insert_if]
        split <;> rfl

theorem Kept.step (h : Kept s) (hstep : s.RoomyStep call t) : Kept t := by
  obtain ⟨hapart, ⟨hassigned, houtcome⟩ | ⟨jobId, a, -, hassigned, hzero, hassignment⟩⟩ := step_cases h hstep
  · refine ⟨hapart, fun {j b} hb => ?_, fun {j b} hb => ?_⟩
    · rw [hassigned]
      cases houtcome j with
      | same stays => exact h.known (stays.symm.trans hb)
      | again _ _ before => exact h.known before
      | ended _ after => cases after.symm.trans hb
    · cases houtcome j with
      | same stays => exact h.bounded (stays.symm.trans hb)
      | again _ _ _ left after =>
        obtain rfl := some.inj (after.symm.trans hb)
        exact left
      | ended _ after => cases after.symm.trans hb
  · refine ⟨hapart, fun {j b} hb => ?_, fun {j b} hb => ?_⟩ <;> rw [hassignment] at hb <;> split at hb
    · rename_i hj
      simp [hassigned, hj]
    · exact hassigned ▸ List.mem_append_left _ (h.known hb)
    · obtain rfl := some.inj hb
      exact hzero ▸ Nat.zero_le _
    · exact h.bounded hb

theorem kept_start : Kept .start := ⟨fun _ => .inl rfl, nofun, nofun⟩

/-! ## Runs -/

def Ended (calls : List DistributionCall) (j : JobId) : Prop :=
  ∃ pre call post s, calls = pre ++ call :: post ∧ Run RetryHistory.RoomyStep .start pre s ∧ call.Ends s.coordinator j

theorem Ended.snoc {calls : List DistributionCall} (h : Ended calls j) (call : DistributionCall) : Ended (calls ++ [call]) j := by
  obtain ⟨pre, last, post, s, rfl, hrun, hends⟩ := h
  exact ⟨pre, last, post ++ [call], s, by simp, hrun, hends⟩

theorem assigned_or_ended (hrun : Run RetryHistory.RoomyStep .start calls t) :
    Kept t ∧ ∀ j ∈ t.assigned, (t.coordinator.assignment j).isSome ∨ Ended calls j := by
  refine hrun.induction (P := fun calls t => Kept t ∧ ∀ j ∈ t.assigned, (t.coordinator.assignment j).isSome ∨ Ended calls j)
    ⟨kept_start, nofun⟩ ?_
  rintro calls t call u hrun ⟨hkept, ih⟩ hstep
  refine ⟨hkept.step hstep, fun j hj => ?_⟩
  obtain ⟨-, ⟨hassigned, houtcome⟩ | ⟨jobId, a, -, hassigned, -, hassignment⟩⟩ := step_cases hkept hstep
  · rw [hassigned] at hj
    rcases ih j hj with hsome | hended
    · cases houtcome j with
      | same stays => exact .inl (stays ▸ hsome)
      | again _ _ _ _ after => exact .inl (after ▸ rfl)
      | ended ends => exact .inr ⟨calls, call, [], t, rfl, hrun, ends⟩
    · exact .inr (hended.snoc call)
  · rw [hassignment]
    split
    · exact .inl rfl
    · rename_i hne
      rw [hassigned, List.mem_append, List.mem_singleton, or_iff_left hne] at hj
      exact (ih j hj).imp_right fun hended => hended.snoc call

theorem retries_grow (hkept : Kept s) (ha : s.coordinator.assignment j = some a) (hrun : Run RetryHistory.RoomyStep s calls t) :
    ∀ b, t.coordinator.assignment j = some b → a.retryCount ≤ b.retryCount := by
  refine (hrun.invariant (P := fun u => (Kept u ∧ j ∈ u.assigned) ∧
    ∀ b, u.coordinator.assignment j = some b → a.retryCount ≤ b.retryCount) ⟨⟨hkept, hkept.known ha⟩, ?_⟩ ?_).2
  · intro b hb
    exact some.inj (ha.symm.trans hb) ▸ Nat.le_refl _
  · rintro u call v ⟨⟨hkept, hj⟩, ih⟩ hstep
    obtain ⟨-, ⟨hassigned, houtcome⟩ | ⟨jobId, a, hnew, hassigned, -, hassignment⟩⟩ := step_cases hkept hstep
    · refine ⟨⟨hkept.step hstep, hassigned ▸ hj⟩, fun b hb => ?_⟩
      cases houtcome j with
      | same stays => exact ih b (stays.symm.trans hb)
      | again _ _ before _ after =>
        obtain rfl := some.inj (after.symm.trans hb)
        exact Nat.le_succ_of_le (ih _ before)
      | ended _ after => cases after.symm.trans hb
    · refine ⟨⟨hkept.step hstep, hassigned ▸ List.mem_append_left _ hj⟩, fun b hb => ih b ?_⟩
      have hne : j ≠ jobId := fun h => hnew (h ▸ hj)
      rwa [hassignment, if_neg hne] at hb

end JobRetriesAux

/-- In every run in which each job that has to be assigned again finds room while it has a retry left: every job that was
assigned is in exactly one of the maps, unless it was removed or its last assignment timed out or lost its validator. The
retries of a job stay within their limit and never go down. -/
theorem jobs_kept_until_retries_used (calls : List DistributionCall) (t : RetryHistory)
    (hrun : Run RetryHistory.RoomyStep .start calls t) :
    (∀ j ∈ t.assigned, Xor (j ∈ t.coordinator.pendingAssignments) (j ∈ t.coordinator.activeAssignments) ∨
      ∃ pre call post s, calls = pre ++ call :: post ∧ Run RetryHistory.RoomyStep .start pre s ∧ call.Ends s.coordinator j) ∧
    (∀ map j a, (t.coordinator.assignments map).lookup j = some a → a.retryCount ≤ maxJobRetries) ∧
    ∀ pre post s, calls = pre ++ post → Run RetryHistory.RoomyStep .start pre s → Run RetryHistory.RoomyStep s post t →
      ∀ j a b, s.coordinator.assignment j = some a → t.coordinator.assignment j = some b → a.retryCount ≤ b.retryCount := by
  obtain ⟨hkept, hassigned⟩ := JobRetriesAux.assigned_or_ended hrun
  refine ⟨fun j hj => (hassigned j hj).imp_left fun hsome => ?_, fun map j a ha => ?_, ?_⟩
  · rw [JobCoordinator.assignment, isSome_or, Bool.or_eq_true, lookup_isSome, lookup_isSome] at hsome
    rcases hkept.apart j with hnone | hnone
    · rw [lookup_eq_none] at hnone
      exact .inr ⟨hsome.resolve_left hnone, hnone⟩
    · rw [lookup_eq_none] at hnone
      exact .inl ⟨hsome.resolve_right hnone, hnone⟩
  · refine hkept.bounded (j := j) ?_
    rcases hkept.apart j with hnone | hnone <;> cases map <;>
      simp_all [JobCoordinator.assignment, JobCoordinator.assignments]
  · rintro pre post s - hpre hpost j a b ha
    exact JobRetriesAux.retries_grow (JobRetriesAux.assigned_or_ended hpre).1 ha hpost b

namespace RetrySample

open DistributionSample

def failure : DistributionCall := .handleValidatorFailure (entryOrder _ _) (entryOrder _ _) (entryOrder _ _) 200 validator

/-- Another validator with room for one job. -/
def announceOther : DistributionCall := .updateValidatorCapacity ⟨"validator-2", 1, 0⟩

def moving : List DistributionCall :=
  [announce 1 0, assign "job-1" 100, announceOther, failure, .markJobFetched "job-1", sweep 1000]

def roomyStep : RetryHistory → DistributionCall → Option RetryHistory :=
  Run.guarded (fun h call => h.Fresh call ∧ call.RetriesHaveRoom h.coordinator) fun h call => some (h.step call)

theorem of_roomyStep (h : RetryHistory) (call : DistributionCall) (h' : RetryHistory) (hstep : roomyStep h call = some h') :
    h.RoomyStep call h' := by
  obtain ⟨hresult, hfresh, hroom⟩ := Run.of_guarded h call h' hstep
  exact ⟨hfresh, hroom, some.inj hresult⟩

end RetrySample

open DistributionSample RetrySample in
/-- The job is pending at the other validator, with two of its three retries used. -/
theorem jobs_kept_until_retries_used_moving : ∃ t, Run RetryHistory.RoomyStep .start moving t ∧
    (t.coordinator.pendingAssignments.lookup "job-1").map (fun a => (a.validatorId, a.retryCount)) = some ("validator-2", 2) ∧
    (Xor ("job-1" ∈ t.coordinator.pendingAssignments) ("job-1" ∈ t.coordinator.activeAssignments) ∨
      ∃ pre call post s, moving = pre ++ call :: post ∧ Run RetryHistory.RoomyStep .start pre s ∧
        call.Ends s.coordinator "job-1") := by
  have hexecuted : ((moving.foldlM roomyStep RetryHistory.start).any fun t => decide (t.assigned = ["job-1"] ∧
      (t.coordinator.pendingAssignments.lookup "job-1").map (fun a => (a.validatorId, a.retryCount)) = some ("validator-2", 2))) = true := by
    decide +kernel
  obtain ⟨t, hrun, hassigned, hpending⟩ := Run.exists_of_foldlM of_roomyStep hexecuted
  refine ⟨t, hrun, hpending, ?_⟩
  exact (jobs_kept_until_retries_used moving t hrun).1 "job-1" (hassigned ▸ List.mem_singleton_self _)

open DistributionSample RetrySample in
/-- The only validator fails while it has the job of a first assignment: the coordinator has it in neither map, also after another
validator has announced room. -/
theorem job_forgotten_without_room : let s := [announce 1 0, assign "job-1" 100].foldl RetryHistory.step RetryHistory.start
    let t := [failure, announceOther].foldl RetryHistory.step s
    (∃ a, s.coordinator.assignment "job-1" = some a ∧ a.retryCount = 0) ∧ t.assigned = ["job-1"] ∧
      "job-1" ∉ t.coordinator.pendingAssignments ∧ "job-1" ∉ t.coordinator.activeAssignments := by
  refine ⟨⟨_, rfl, rfl⟩, ?_⟩
  decide +kernel

end Paraloom.OffChain
