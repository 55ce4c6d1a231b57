import Paraloom.Lib.Run
import Paraloom.OffChain.JobDistribution

/-!
# Reassignment, turn by turn

What one turn of the reassignment loop can do, said once, and the loop as a run of such turns.
-/

namespace Paraloom.OffChain.JobCoordinator

variable {c c' : JobCoordinator} {ν : ValidatorOrder}


/-! ## The choice of a validator -/

structure HasRoom (c : JobCoordinator) (map : AssignmentMap) (v : CapacityAnnouncement) : Prop where
  belowMax : c.countedLoad map v.validatorId < v.maxConcurrentJobs
  fits : c.countedLoad map v.validatorId < Checked.u64Max

theorem foldl_best (load : ValidatorId → Nat) (validators : List CapacityAnnouncement)
    (best : Option CapacityAnnouncement × Nat) :
    let chosen := validators.foldl (fun best v =>
      if load v.validatorId < v.maxConcurrentJobs ∧ load v.validatorId < best.2 then (some v, load v.validatorId) else best) best
    (chosen = best ∧ ∀ v ∈ validators, ¬(load v.validatorId < v.maxConcurrentJobs ∧ load v.validatorId < best.2)) ∨
      ∃ v ∈ validators, chosen.1 = some v ∧ load v.validatorId < v.maxConcurrentJobs := by
  induction validators generalizing best with
  | nil => exact .inl ⟨rfl, by simp⟩
  | cons v validators ih =>
    simp only [List.foldl_cons]
    by_cases hroom : load v.validatorId < v.maxConcurrentJobs ∧ load v.validatorId < best.2
    · rw [if_pos hroom]
      right
      rcases ih (some v, load v.validatorId) with ⟨hchosen, -⟩ | ⟨w, hw, hchosen, hmax⟩
      · exact ⟨v, List.mem_cons_self, by rw [hchosen], hroom.1⟩
      · exact ⟨w, List.mem_cons_of_mem _ hw, hchosen, hmax⟩
    · rw [if_neg hroom]
      rcases ih best with ⟨hchosen, hnone⟩ | ⟨w, hw, hchosen, hmax⟩
      · exact .inl ⟨hchosen, List.forall_mem_cons.mpr ⟨hroom, hnone⟩⟩
      · exact .inr ⟨w, List.mem_cons_of_mem _ hw, hchosen, hmax⟩

theorem mem_visit : v ∈ (ν.visit c.validators).map (·.2) ↔ ∃ k, c.validators.lookup k = some v := by
  simp only [List.mem_map, (ν.visit_perm c.validators).mem_iff]
  constructor
  · rintro ⟨⟨k, w⟩, hmem, rfl⟩
    exact ⟨k, AList.mem_lookup_iff.mpr hmem⟩
  · rintro ⟨k, hk⟩
    exact ⟨⟨k, v⟩, AList.mem_lookup_iff.mp hk, rfl⟩

theorem bestValidator_some (h : bestValidator (c.countedLoad map) ((ν.visit c.validators).map (·.2)) = some v) :
    (∃ k, c.validators.lookup k = some v) ∧ c.countedLoad map v.validatorId < v.maxConcurrentJobs := by
  unfold bestValidator at h
  rcases foldl_best (c.countedLoad map) ((ν.visit c.validators).map (·.2)) (none, Checked.u64Max) with
    ⟨hchosen, -⟩ | ⟨w, hw, hchosen, hmax⟩
  · rw [hchosen] at h
    cases h
  · obtain rfl := Option.some.inj (hchosen.symm.trans h)
    exact ⟨mem_visit.mp hw, hmax⟩

theorem bestValidator_none (h : bestValidator (c.countedLoad map) ((ν.visit c.validators).map (·.2)) = none)
    (hk : c.validators.lookup k = some v) : ¬c.HasRoom map v := by
  unfold bestValidator at h
  rcases foldl_best (c.countedLoad map) ((ν.visit c.validators).map (·.2)) (none, Checked.u64Max) with
    ⟨-, hnone⟩ | ⟨w, -, hchosen, -⟩
  · exact fun hroom => hnone v (mem_visit.mpr ⟨k, hk⟩) ⟨hroom.belowMax, hroom.fits⟩
  · rw [hchosen] at h
    cases h

/-! ## One turn -/

/-- What a turn of the loop does to the coordinator. -/
inductive ReassignTurn (map : AssignmentMap) (now : Nat) (c : JobCoordinator) (jobId : JobId) : JobCoordinator → Prop where
  | absent (lookup : (c.assignments map).lookup jobId = none) : ReassignTurn map now c jobId c
  | again (lookup : (c.assignments map).lookup jobId = some old)
      (left : old.retryCount < maxJobRetries) (registered : ∃ k, c.validators.lookup k = some v)
      (room : (c.withdraw jobId map).countedLoad map v.validatorId < v.maxConcurrentJobs) :
      ReassignTurn map now c jobId { c.withdraw jobId map with
        pendingAssignments := (c.withdraw jobId map).pendingAssignments.insert jobId (old.retry v.validatorId now) }
  | stranded (lookup : (c.assignments map).lookup jobId = some old)
      (left : old.retryCount < maxJobRetries)
      (full : ∀ k v, c.validators.lookup k = some v → ¬(c.withdraw jobId map).HasRoom map v) :
      ReassignTurn map now c jobId (c.withdraw jobId map)
  | exhausted (lookup : (c.assignments map).lookup jobId = some old)
      (used : maxJobRetries ≤ old.retryCount) : ReassignTurn map now c jobId (c.withdraw jobId map)

@[simp] theorem validators_withdraw : (c.withdraw jobId map).validators = c.validators := by
  cases map <;> rfl

theorem reassignJob_turn : ReassignTurn map now c jobId (reassignJob map ν now (c, reassigned) jobId).1 := by
  cases hlookup : (c.assignments map).lookup jobId with
  | none =>
    simp only [reassignJob, hlookup]
    exact .absent hlookup
  | some old =>
    simp only [reassignJob, hlookup]
    by_cases hleft : old.retryCount < maxJobRetries
    · rw [if_pos hleft]
      cases hbest : bestValidator ((c.withdraw jobId map).countedLoad map)
          ((ν.visit (c.withdraw jobId map).validators).map (·.2)) with
      | none =>
        refine .stranded hlookup hleft fun k v hk => bestValidator_none hbest (k := k) ?_
        rwa [validators_withdraw]
      | some v =>
        obtain ⟨hregistered, hroom⟩ := bestValidator_some hbest
        rw [validators_withdraw] at hregistered
        exact .again hlookup hleft hregistered hroom
    · rw [if_neg hleft]
      exact .exhausted hlookup (Nat.le_of_not_lt hleft)

theorem foldl_reassignJob_run : Run (ReassignTurn map now) s.1 jobs (jobs.foldl (reassignJob map ν now) s).1 := by
  induction jobs using List.reverseRecOn with
  | nil => exact .nil
  | append_singleton jobs jobId ih =>
    rw [List.foldl_append]
    exact ih.snoc (reassignJob_turn)

theorem reassignJobs_run (ι : JobOrder) (selected : JobAssignment → Bool) (s : JobCoordinator × List JobId) :
    Run (ReassignTurn map now) s.1 (selectJobs map ι selected s.1) (reassignJobs map ι ν now selected s).1 :=
  foldl_reassignJob_run

/-- Something holds at every turn of the loop, of the coordinator before the turn. -/
def AtTurns (P : JobCoordinator → JobId → Prop) (map : AssignmentMap) (ν : ValidatorOrder)
    (now : Nat) : JobCoordinator × List JobId → List JobId → Prop
  | _, [] => True
  | s, jobId :: jobs => P s.1 jobId ∧ AtTurns P map ν now (reassignJob map ν now s jobId) jobs

instance decidableAtTurns (P : JobCoordinator → JobId → Prop) [∀ c jobId, Decidable (P c jobId)] (map : AssignmentMap)
    (ν : ValidatorOrder) (now : Nat) :
    (s : JobCoordinator × List JobId) → (jobs : List JobId) → Decidable (AtTurns P map ν now s jobs)
  | _, [] => .isTrue trivial
  | s, jobId :: jobs => @instDecidableAnd _ _ (inferInstanceAs (Decidable (P s.1 jobId)))
      (decidableAtTurns P map ν now (reassignJob map ν now s jobId) jobs)

theorem AtTurns.run {P : JobCoordinator → JobId → Prop} {jobs : List JobId} {s : JobCoordinator × List JobId}
    (h : AtTurns P map ν now s jobs) : Run (fun c jobId c' => ReassignTurn map now c jobId c' ∧ P c jobId) s.1 jobs
      (jobs.foldl (reassignJob map ν now) s).1 := by
  induction jobs generalizing s with
  | nil => exact .nil
  | cons jobId jobs ih => exact (Run.nil.snoc ⟨reassignJob_turn, h.1⟩).trans (ih h.2)

/-! ## Loads -/

def share (v : ValidatorId) (a : JobAssignment) : Nat := if a.validatorId = v then 1 else 0

theorem assignedIn_eq_total : assignedIn t v = Table.total (fun _ a => share v a) t := by
  unfold assignedIn Table.total share
  induction t.entries with
  | nil => rfl
  | cons e es ih => by_cases hv : e.2.validatorId = v <;> simp [hv, ih, Nat.add_comm]

theorem assignedIn_erase (h : t.lookup jobId = some a) : assignedIn (t.erase jobId) v + share v a = assignedIn t v := by
  rw [assignedIn_eq_total, assignedIn_eq_total]
  exact Table.total_erase (fun _ a => share v a) h

theorem assignedIn_erase_le : assignedIn (t.erase jobId) v ≤ assignedIn t v := by
  rw [assignedIn_eq_total, assignedIn_eq_total]
  exact Table.total_erase_le _ t jobId

theorem assignedIn_insert_le (t : Table JobId JobAssignment) (jobId : JobId) (a : JobAssignment) (v : ValidatorId) :
    assignedIn (t.insert jobId a) v ≤ assignedIn t v + share v a := by
  rw [assignedIn_eq_total, assignedIn_eq_total]
  exact Table.total_insert_le _ t jobId a

theorem getValidatorLoad_withdraw_le : (c.withdraw jobId map).getValidatorLoad v ≤ c.getValidatorLoad v := by
  cases map with
  | pending => exact Nat.add_le_add_right (assignedIn_erase_le) _
  | active => exact Nat.add_le_add_left (assignedIn_erase_le) _

theorem getValidatorLoad_insert_le (c : JobCoordinator) (jobId : JobId) (a : JobAssignment) (v : ValidatorId) :
    getValidatorLoad { c with pendingAssignments := c.pendingAssignments.insert jobId a } v ≤
      c.getValidatorLoad v + share v a := by
  have := assignedIn_insert_le c.pendingAssignments jobId a v
  simp only [getValidatorLoad]
  omega

end Paraloom.OffChain.JobCoordinator
