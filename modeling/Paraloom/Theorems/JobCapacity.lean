import Paraloom.Lemmas.JobDistribution

/-!
# Assignments and the capacity of validators

A validator is assigned no more jobs than it has announced to take, as long as the counts that the coordinator assigns by are
those of the assignments. Nothing keeps the announced load up to date, and the count of the pending assignments leaves the
active ones out.
-/

namespace Paraloom.OffChain

/-! ## Runs -/

/-- The coordinator with the last announcement of each validator: its maximum, and the load that the validator had then. -/
structure CapacityHistory where
  coordinator : JobCoordinator
  announced : Table ValidatorId (Nat × Nat)

namespace CapacityHistory

def start : CapacityHistory := ⟨.new, ∅⟩

/-- A call, with the announcement put on record. -/
def step (h : CapacityHistory) (call : DistributionCall) : CapacityHistory where
  coordinator := h.coordinator.call call
  announced := match call with
    | .updateValidatorCapacity a =>
      h.announced.insert a.validatorId (a.maxConcurrentJobs, h.coordinator.getValidatorLoad a.validatorId)
    | _ => h.announced

end CapacityHistory

namespace JobCoordinator

/-- A validator that has announced room has room. -/
def AnnouncedRoomIsReal (c : JobCoordinator) : Prop :=
  ∀ e ∈ c.validators.entries, 0 < e.2.availableCapacity → c.getValidatorLoad e.1 < e.2.maxConcurrentJobs

/-- A validator with room by its pending assignments has room. -/
def PendingRoomIsReal (c : JobCoordinator) : Prop :=
  ∀ e ∈ c.validators.entries, assignedIn c.pendingAssignments e.1 < e.2.maxConcurrentJobs →
    c.getValidatorLoad e.1 < e.2.maxConcurrentJobs

instance (c : JobCoordinator) : Decidable c.AnnouncedRoomIsReal :=
  inferInstanceAs (Decidable (∀ e ∈ c.validators.entries, _ → _))

instance (c : JobCoordinator) : Decidable c.PendingRoomIsReal :=
  inferInstanceAs (Decidable (∀ e ∈ c.validators.entries, _ → _))

/-- It is so at every turn of the loop over pending jobs, once the assignment of the turn is taken away. -/
def PendingTurnsAreReal (ν : ValidatorOrder) (now : Nat) : JobCoordinator × List JobId → List JobId → Prop :=
  AtTurns (fun c jobId => (c.withdraw jobId .pending).PendingRoomIsReal) .pending ν now

instance (ν : ValidatorOrder) (now : Nat) (s : JobCoordinator × List JobId) (jobs : List JobId) :
    Decidable (PendingTurnsAreReal ν now s jobs) :=
  inferInstanceAs (Decidable (AtTurns _ _ _ _ _ _))

end JobCoordinator

/-- The counts that a call assigns by are those of the assignments. -/
def DistributionCall.CountsAreReal (c : JobCoordinator) : DistributionCall → Prop
  | .assignJob _ _ _ => c.AnnouncedRoomIsReal
  | .handleTimeouts ι _ ν now =>
    JobCoordinator.PendingTurnsAreReal ν now (c, []) (JobCoordinator.selectJobs .pending ι (·.isTimedOut now) c)
  | .handleValidatorFailure ι _ ν now validatorId =>
    JobCoordinator.PendingTurnsAreReal ν now (c.removeValidator validatorId, [])
      (JobCoordinator.selectJobs .pending ι (·.validatorId = validatorId) (c.removeValidator validatorId))
  | _ => True

instance (c : JobCoordinator) : (call : DistributionCall) → Decidable (call.CountsAreReal c)
  | .assignJob _ _ _ => inferInstanceAs (Decidable c.AnnouncedRoomIsReal)
  | .handleTimeouts .. | .handleValidatorFailure .. => inferInstanceAs (Decidable (JobCoordinator.PendingTurnsAreReal _ _ _ _))
  | .updateValidatorCapacity _ | .removeValidator _ | .markJobFetched _ | .removeAssignment _ => .isTrue trivial

/-- A call that assigns by real counts. -/
def CapacityHistory.RealStep (h : CapacityHistory) (call : DistributionCall) (h' : CapacityHistory) : Prop :=
  call.CountsAreReal h.coordinator ∧ h.step call = h'

namespace JobCapacityAux

open JobCoordinator

/-- Every validator has at most as many jobs as the bound allows it, and a registered one takes no more. -/
structure Within (bound : ValidatorId → Nat) (c : JobCoordinator) : Prop where
  load : ∀ v, c.getValidatorLoad v ≤ bound v
  registered : ∀ k a, c.validators.lookup k = some a → a.validatorId = k ∧ a.maxConcurrentJobs ≤ bound k

variable {c c' : JobCoordinator}


theorem Within.withdraw (h : Within bound c) (jobId : JobId) (map : AssignmentMap) : Within bound (c.withdraw jobId map) where
  load := fun v => getValidatorLoad_withdraw_le.trans (h.load v)
  registered := by
    rw [validators_withdraw]
    exact h.registered

theorem Within.assign (h : Within bound c) (hregistered : ∃ k, c.validators.lookup k = some v)
    (hroom : c.getValidatorLoad v.validatorId < v.maxConcurrentJobs) (a : JobAssignment) (ha : a.validatorId = v.validatorId) :
    Within bound { c with pendingAssignments := c.pendingAssignments.insert jobId a } where
  load := by
    intro w
    obtain ⟨k, hk⟩ := hregistered
    obtain ⟨rfl, hmax⟩ := h.registered k v hk
    have hinsert := getValidatorLoad_insert_le c jobId a w
    have hload := h.load w
    unfold share at hinsert
    split at hinsert
    · rename_i hw
      rw [← hw, ha] at hinsert ⊢
      omega
    · omega
  registered := h.registered

theorem room_of_counted (hreal : map = .pending → c.PendingRoomIsReal) (hk : c.validators.lookup k = some v)
    (hkey : v.validatorId = k) (hroom : c.countedLoad map v.validatorId < v.maxConcurrentJobs) :
    c.getValidatorLoad v.validatorId < v.maxConcurrentJobs := by
  cases map with
  | pending =>
    rw [hkey] at hroom ⊢
    exact hreal rfl ⟨k, v⟩ (AList.mem_lookup_iff.mp hk) hroom
  | active => exact hroom

theorem Within.turn (h : Within bound c) (hturn : ReassignTurn map now c jobId c')
    (hreal : map = .pending → (c.withdraw jobId map).PendingRoomIsReal) : Within bound c' := by
  cases hturn with
  | absent => exact h
  | @again _ v _ _ hregistered hroom =>
    obtain ⟨k, hk⟩ := hregistered
    have hw := h.withdraw jobId map
    replace hk : (c.withdraw jobId map).validators.lookup k = some v := by rwa [validators_withdraw]
    refine hw.assign ⟨k, hk⟩ (room_of_counted hreal hk (hw.registered k _ hk).1 hroom) _ rfl
  | stranded | exhausted => exact h.withdraw jobId map

theorem Within.pendingTurns (h : Within bound s.1) (hreal : PendingTurnsAreReal ν now s jobs) :
    Within bound (jobs.foldl (reassignJob .pending ν now) s).1 :=
  hreal.run.invariant h fun _ _ _ ht hturn => ht.turn hturn.1 fun _ => hturn.2

section Within

variable (h : Within bound c)
include h

/-- The loop over the active jobs counts all assignments, so it needs nothing. -/
theorem Within.activeTurns (hrun : Run (ReassignTurn .active now) c jobs c') : Within bound c' :=
  hrun.invariant h fun _ _ _ ht hturn => ht.turn hturn nofun

theorem Within.markJobFetched (jobId : JobId) : Within bound (c.markJobFetched jobId) := by
  unfold JobCoordinator.markJobFetched
  split
  · exact h
  · rename_i a hlookup
    refine ⟨fun v => ?_, h.registered⟩
    have herase := assignedIn_erase (v := v) hlookup
    have hinsert := assignedIn_insert_le c.activeAssignments jobId a v
    have hload := h.load v
    simp only [getValidatorLoad] at hload ⊢
    omega

theorem Within.removeAssignment (jobId : JobId) : Within bound (c.removeAssignment jobId) :=
  (h.withdraw jobId .pending).withdraw jobId .active

theorem Within.removeValidator (v : ValidatorId) : Within bound (c.removeValidator v) where
  load := h.load
  registered := by
    intro k a hk
    rw [JobCoordinator.removeValidator, Table.lookup_erase_if] at hk
    split at hk
    · cases hk
    · exact h.registered k a hk

theorem Within.assignJob (hreal : c.AnnouncedRoomIsReal) (balance : LoadBalance) (jobId : JobId) (now : Nat) :
    Within bound (c.assignJob balance jobId now).1 := by
  unfold JobCoordinator.assignJob
  split
  · exact h
  · rename_i v hpick
    obtain ⟨hmem, havailable⟩ := List.mem_filter.mp (balance.pick_mem _ v hpick)
    obtain ⟨⟨k, w⟩, hentry, rfl⟩ := List.mem_map.mp hmem
    have hk : c.validators.lookup k = some w := AList.mem_lookup_iff.mpr hentry
    refine h.assign ⟨k, hk⟩ ?_ _ rfl
    rw [(h.registered k w hk).1]
    exact hreal ⟨k, w⟩ hentry (of_decide_eq_true havailable)

theorem Within.update (a : CapacityAnnouncement) :
    Within (fun v => if v = a.validatorId then max a.maxConcurrentJobs (c.getValidatorLoad a.validatorId) else bound v)
      (c.updateValidatorCapacity a) where
  load := by
    intro v
    split
    · rename_i hv
      exact hv ▸ Nat.le_max_right _ _
    · exact h.load v
  registered := by
    intro k b hk
    rw [JobCoordinator.updateValidatorCapacity, Table.lookup_insert_eq_some] at hk
    rcases hk with ⟨rfl, rfl⟩ | ⟨hne, hk⟩
    · exact ⟨rfl, by rw [if_pos rfl]; exact Nat.le_max_left _ _⟩
    · rw [if_neg hne]
      exact h.registered k b hk

end Within

def allowed (h : CapacityHistory) (v : ValidatorId) : Nat := (h.announced.lookup v).elim 0 fun e => max e.1 e.2

theorem allowed_announced (h : CapacityHistory) : allowed (h.step (.updateValidatorCapacity a)) = fun v =>
      if v = a.validatorId then max a.maxConcurrentJobs (h.coordinator.getValidatorLoad a.validatorId) else allowed h v := by
  funext v
  simp only [allowed, CapacityHistory.step, Table.lookup_insert_if]
  split <;> rfl

theorem within_step {call : DistributionCall} (hwithin : Within (allowed h) h.coordinator)
    (hreal : call.CountsAreReal h.coordinator) : Within (allowed (h.step call)) (h.step call).coordinator := by
  cases call with
  | updateValidatorCapacity a =>
    rw [allowed_announced]
    exact hwithin.update a
  | removeValidator v => exact hwithin.removeValidator v
  | assignJob balance jobId now => exact hwithin.assignJob hreal balance jobId now
  | markJobFetched jobId => exact hwithin.markJobFetched jobId
  | removeAssignment jobId => exact hwithin.removeAssignment jobId
  | handleTimeouts ι ι' ν now => exact (hwithin.pendingTurns hreal).activeTurns (reassignJobs_run ι' _ _)
  | handleValidatorFailure ι ι' ν now v =>
    exact ((hwithin.removeValidator v).pendingTurns hreal).activeTurns (reassignJobs_run ι' _ _)

end JobCapacityAux

open JobCapacityAux

/-- In every run whose calls assign by real counts, no validator has more jobs than it has last announced to take, unless that
announcement was below the load the validator had, and then it has got no more since. A validator that never announced has none. -/
theorem load_within_announced_capacity (calls : List DistributionCall) (t : CapacityHistory)
    (hrun : Run CapacityHistory.RealStep .start calls t) (v : ValidatorId) :
    (t.announced.lookup v = none → t.coordinator.getValidatorLoad v = 0) ∧
      ∀ maxConcurrentJobs loadThen, t.announced.lookup v = some (maxConcurrentJobs, loadThen) →
        t.coordinator.getValidatorLoad v ≤ maxConcurrentJobs ∨
          maxConcurrentJobs < loadThen ∧ t.coordinator.getValidatorLoad v ≤ loadThen := by
  have hwithin : Within (allowed t) t.coordinator := by
    refine hrun.invariant (P := fun h => Within (allowed h) h.coordinator) ?_ ?_
    · exact ⟨fun v => Nat.le_refl 0, fun k a hk => by cases hk⟩
    · rintro h call _ hh ⟨hreal, rfl⟩
      exact within_step hh hreal
  have hload := hwithin.load v
  unfold allowed at hload
  constructor
  · intro hnone
    rw [hnone] at hload
    exact Nat.le_zero.mp hload
  · intro maxConcurrentJobs loadThen hannounced
    rw [hannounced, Option.elim_some] at hload
    omega

namespace DistributionSample

def entryOrder (K V : Type) : Table.Order K V := ⟨AList.entries, fun _ => .refl _⟩

def sweep (now : Nat) : DistributionCall := .handleTimeouts (entryOrder _ _) (entryOrder _ _) (entryOrder _ _) now

def validator : ValidatorId := "validator-1"

def announce (maxConcurrentJobs currentLoad : Nat) : DistributionCall :=
  .updateValidatorCapacity ⟨validator, maxConcurrentJobs, currentLoad⟩

def assign (jobId : JobId) (now : Nat) : DistributionCall := .assignJob .first jobId now

def announcing : List DistributionCall :=
  [announce 2 0, assign "job-1" 100, .markJobFetched "job-1", announce 2 1, assign "job-2" 200, sweep 1000]

def realStep : CapacityHistory → DistributionCall → Option CapacityHistory :=
  Run.guarded (fun h call => call.CountsAreReal h.coordinator) fun h call => some (h.step call)

theorem of_realStep (h : CapacityHistory) (call : DistributionCall) (h' : CapacityHistory) (hstep : realStep h call = some h') :
    h.RealStep call h' := by
  obtain ⟨hresult, hreal⟩ := Run.of_guarded h call h' hstep
  exact ⟨hreal, Option.some.inj hresult⟩

end DistributionSample

open DistributionSample in
/-- A validator that announces its load after every job it gets stays within its maximum of two. -/
theorem load_within_announced_capacity_two : ∃ t, Run CapacityHistory.RealStep .start announcing t ∧
    t.announced.lookup validator = some (2, 1) ∧ t.coordinator.getValidatorLoad validator ≤ 2 := by
  have hexecuted : ((announcing.foldlM realStep CapacityHistory.start).any fun t =>
      decide (t.announced.lookup validator = some (2, 1))) = true := by decide +kernel
  obtain ⟨t, hrun, hannounced⟩ := Run.exists_of_foldlM of_realStep hexecuted
  refine ⟨t, hrun, hannounced, ?_⟩
  rcases (load_within_announced_capacity announcing t hrun validator).2 2 1 hannounced with hload | ⟨hlower, -⟩
  · exact hload
  · exact absurd hlower (by decide)

open DistributionSample in
/-- A validator announces that it takes one job at a time, and is assigned two. -/
theorem overloaded_by_stale_announcement :
    let t := [announce 1 0, assign "job-1" 100, assign "job-2" 101].foldl CapacityHistory.step CapacityHistory.start
    t.announced.lookup validator = some (1, 0) ∧ t.coordinator.getValidatorLoad validator = 2 := by
  decide +kernel

end Paraloom.OffChain
