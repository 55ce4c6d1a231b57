import Paraloom.Lib.Run
import Paraloom.OffChain.JobManager

/-!
# Jobs and loads of the job manager

The manager keeps every job and counts the jobs of each validator, as long as `assign_jobs` finds a validator for all jobs but
the last, validators are registered with the jobs that they have, and a result comes once. The jobs behind the first one
without a validator are lost.
-/

namespace Paraloom.OffChain

open List Option AList Table

/-! ## Runs -/

/-- The jobs of a validator without a result. -/
def JobManager.unfinished (m : JobManager) (validatorId : ValidatorId) : Nat :=
  total (fun jobId v => if v = validatorId ∧ jobId ∉ m.results then 1 else 0) m.assignments

/-- The manager with the jobs that were submitted. -/
structure ManagerHistory where
  manager : JobManager
  submitted : List JobId

namespace ManagerHistory

def start : ManagerHistory := ⟨.new, []⟩

def step (h : ManagerHistory) (call : ManagerCall) : Option ManagerHistory :=
  (h.manager.call call).map fun manager => ⟨manager, match call with
    | .submitJob job => h.submitted ++ [job.id]
    | _ => h.submitted⟩

/-- Jobs are submitted under distinct ids. -/
def Distinct (h : ManagerHistory) : ManagerCall → Prop
  | .submitJob job => job.id ∉ h.submitted
  | _ => True

end ManagerHistory

/-- What keeps the jobs and the counts: a validator is registered with the number of its jobs, no job behind the first one without a
validator is dropped, and a result is the first for its job, which does not wait and is not submitted later. -/
def ManagerCall.Counted (m : JobManager) : ManagerCall → Prop
  | .registerValidator v => v.activeJobs = m.unfinished v.validatorId ∧ v.activeJobs ≤ v.maxConcurrentJobs
  | .submitJob job => job.id ∉ m.results
  | .assignJobs least clock => ∀ r ∈ m.assignAll least clock, r.2.length ≤ 1
  | .submitResult result => result.jobId ∉ m.results ∧ ∀ job ∈ m.pendingJobs, job.id ≠ result.jobId
  | _ => True

/-- A call with a new id if it submits a job, and with what keeps the counts. -/
def ManagerHistory.CountedStep (h : ManagerHistory) (call : ManagerCall) (h' : ManagerHistory) : Prop :=
  h.Distinct call ∧ call.Counted h.manager ∧ h.step call = some h'

namespace ManagerLoadAux

open JobManager

variable {m m' : JobManager} {submitted : List JobId} {v w : ValidatorId} {jobId : JobId}

/-- What every run keeps. -/
structure Exact (m : JobManager) (submitted : List JobId) : Prop where
  kept : ∀ j ∈ submitted, (∃ job ∈ m.pendingJobs, job.id = j) ∨ j ∈ m.assignments ∨ j ∈ m.results
  load : ∀ k c, m.validators.lookup k = some c →
    c.validatorId = k ∧ c.activeJobs = m.unfinished k ∧ c.activeJobs ≤ c.maxConcurrentJobs
  waiting : ∀ job ∈ m.pendingJobs, job.id ∈ submitted ∧ job.id ∉ m.assignments ∧ job.id ∉ m.results
  distinct : (m.pendingJobs.map (·.id)).Nodup
  known : ∀ j ∈ m.assignments, j ∈ submitted

theorem unfinished_assign (hnew : jobId ∉ m.assignments) (hresult : jobId ∉ m.results) (w : ValidatorId) :
    (m.assign jobId v).unfinished w = m.unfinished w + if v = w then 1 else 0 := by
  have htotal := total_insert_new (fun jobId v => if v = w ∧ jobId ∉ m.results then 1 else 0) v (lookup_eq_none.mpr hnew)
  rwa [if_congr (and_iff_left hresult) rfl rfl] at htotal

theorem unfinished_result (hnew : result.jobId ∉ m.results) (w : ValidatorId) :
    (m.submitResult result).unfinished w + (if m.assignments.lookup result.jobId = some w then 1 else 0) = m.unfinished w := by
  have hother : ∀ k, k ≠ result.jobId → (fun v => if v = w ∧ k ∉ m.results.insert result.jobId result then 1 else 0) =
      fun v => if v = w ∧ k ∉ m.results then 1 else 0 := by
    intro k hk
    funext v
    simp [mem_insert, hk]
  cases hassigned : m.assignments.lookup result.jobId with
  | none =>
    rw [if_neg nofun, Nat.add_zero]
    change total _ m.assignments = total _ m.assignments
    refine total_congr fun k => ?_
    by_cases hk : k = result.jobId
    · rw [hk, weight, weight, hassigned]
      rfl
    · exact congrArg ((m.assignments.lookup k).elim 0) (hother k hk)
  | some v =>
    have htotal := total_update hassigned hother
    simpa [JobManager.unfinished, submitResult, hnew, mem_insert] using htotal

theorem Exact.assign (h : Exact { m with pendingJobs := job :: jobs } submitted) (hc : m.validators.lookup v = some c)
    (hroom : c.activeJobs < c.maxConcurrentJobs) : Exact { m.assign job.id v with pendingJobs := jobs } submitted := by
  obtain ⟨hsubmitted, hnew, hresult⟩ := h.waiting job (mem_cons_self ..)
  obtain ⟨hfresh, hdistinct⟩ := nodup_cons.mp h.distinct
  have hunfinished : ∀ w, (m.assign job.id v).unfinished w = m.unfinished w + _ := unfinished_assign hnew hresult
  refine ⟨fun j hj => ?_, fun k c' hk => ?_, fun job' hjob' => ?_, hdistinct, fun j hj => ?_⟩
  · rcases h.kept j hj with ⟨job', hjob', rfl⟩ | hassigned | hdone
    · rcases mem_cons.mp hjob' with rfl | hrest
      · exact .inr (.inl ((mem_insert _).mpr (.inl rfl)))
      · exact .inl ⟨job', hrest, rfl⟩
    · exact .inr (.inl ((mem_insert _).mpr (.inr hassigned)))
    · exact .inr (.inr hdone)
  · change c'.validatorId = k ∧ c'.activeJobs = (m.assign job.id v).unfinished k ∧ _
    rw [hunfinished]
    simp only [JobManager.assign, hc] at hk
    rcases lookup_insert_eq_some.mp hk with ⟨rfl, rfl⟩ | ⟨hne, hk⟩
    · obtain ⟨hid, hload, -⟩ := h.load k c hc
      exact ⟨hid, by rw [if_pos rfl]; exact congrArg (· + 1) hload, hroom⟩
    · rw [if_neg (Ne.symm hne)]
      exact h.load k c' hk
  · obtain ⟨hsub, hunassigned, hopen⟩ := h.waiting job' (mem_cons_of_mem _ hjob')
    refine ⟨hsub, fun hmem => ?_, hopen⟩
    rcases (mem_insert _).mp hmem with hsame | hmem
    · exact hfresh (mem_map.mpr ⟨job', hjob', hsame⟩)
    · exact hunassigned hmem
  · rcases (mem_insert _).mp hj with rfl | hj
    · exact hsubmitted
    · exact h.known j hj

/-- The loop keeps the account of the jobs that it has not come to. -/
theorem Exact.assignLoop (h : Exact { s.1 with pendingJobs := jobs } submitted)
    (hloop : JobManager.assignLoop least clock turn jobs s = some (s', left)) :
    Exact { s'.1 with pendingJobs := left } submitted ∧ s'.1.pendingJobs = s.1.pendingJobs := by
  induction jobs generalizing turn s with
  | nil =>
    obtain ⟨_, -, heq⟩ := map_eq_some_iff.mp hloop
    obtain ⟨rfl, rfl⟩ := Prod.mk.inj heq
    exact ⟨h, rfl⟩
  | cons job jobs ih =>
    obtain ⟨available, havailable, hloop⟩ := bind_eq_some_iff.mp hloop
    split at hloop
    · rename_i c hfirst
      unfold availableValidators at havailable
      split at havailable
      · obtain rfl := some.inj havailable
        obtain ⟨hmem, hfree⟩ := mem_filter.mp (least.first_mem _ c hfirst)
        obtain ⟨⟨k, c⟩, hentry, rfl⟩ := mem_map.mp hmem
        have hlookup : s.1.validators.lookup k = some c := mem_lookup_iff.mpr hentry
        have hroom : c.activeJobs < c.maxConcurrentJobs := by
          simpa [ValidatorCapacity.canAcceptJob] using (Bool.and_eq_true_iff.mp hfree).2
        have hassigned := h.assign hlookup hroom
        rw [← (h.load k c hlookup).1] at hassigned
        exact ih (s := (s.1.assign job.id c.validatorId, s.2 ++ [(job.id, c.validatorId)])) hassigned hloop
      · cases havailable
    · obtain ⟨rfl, rfl⟩ := Prod.mk.inj (some.inj hloop)
      exact ⟨h, rfl⟩

theorem Exact.assignJobs (h : Exact m submitted) (hleft : ∀ r ∈ m.assignAll least clock, r.2.length ≤ 1)
    (hassign : m.assignJobs least clock = some (m', made)) : Exact m' submitted := by
  unfold JobManager.assignJobs at hassign
  split at hassign
  · obtain ⟨rfl, -⟩ := Prod.mk.inj (some.inj hassign)
    exact h
  · obtain ⟨⟨s, left⟩, hloop, heq⟩ := map_eq_some_iff.mp hassign
    obtain ⟨hexact, hpending⟩ := Exact.assignLoop (s := ({ m with pendingJobs := [] }, [])) h hloop
    obtain ⟨rfl, -⟩ := Prod.mk.inj heq
    rw [hpending, nil_append, take_of_length_le (hleft _ hloop)]
    exact hexact

theorem Exact.submitResult (h : Exact m submitted) (hnew : result.jobId ∉ m.results)
    (hpending : ∀ job ∈ m.pendingJobs, job.id ≠ result.jobId) : Exact (m.submitResult result) submitted := by
  have hunfinished := unfinished_result hnew
  refine ⟨fun j hj => ?_, fun k c hk => ?_, fun job hjob => ?_, h.distinct, h.known⟩
  · exact (h.kept j hj).imp_right (Or.imp_right fun hdone => (mem_insert _).mpr (.inr hdone))
  · have hload : ∀ c', m.validators.lookup k = some c' → m.assignments.lookup result.jobId ≠ some k →
        c'.validatorId = k ∧ c'.activeJobs = (m.submitResult result).unfinished k ∧ c'.activeJobs ≤ c'.maxConcurrentJobs := by
      intro c' hc' hother
      have hsame := hunfinished k
      rw [if_neg hother, Nat.add_zero] at hsame
      exact hsame ▸ h.load k c' hc'
    simp only [JobManager.submitResult, release] at hk
    split at hk
    · rename_i hnone
      exact hload c hk (by rw [hnone]; nofun)
    · rename_i v hassigned
      split at hk
      · rename_i hgone
        refine hload c hk fun hsame => ?_
        rw [some.inj (hassigned.symm.trans hsame), hk] at hgone
        cases hgone
      · rename_i c' hc'
        rcases lookup_insert_eq_some.mp hk with ⟨rfl, rfl⟩ | ⟨hne, hk⟩
        · obtain ⟨hid, hactive, hmax⟩ := h.load k c' hc'
          have hone := hunfinished k
          rw [if_pos hassigned] at hone
          exact ⟨hid, by simp only; omega, (Nat.sub_le _ _).trans hmax⟩
        · exact hload c hk fun hsame => hne (some.inj (hsame.symm.trans hassigned))
  · obtain ⟨hsub, hunassigned, hopen⟩ := h.waiting job hjob
    refine ⟨hsub, hunassigned, fun hmem => ?_⟩
    exact ((mem_insert _).mp hmem).elim (hpending job hjob) hopen

/-- A change of the validators alone, when each has the count and the maximum of one that is counted. -/
theorem Exact.validators (h : Exact m submitted) {validators : Table ValidatorId ValidatorCapacity}
    (hload : ∀ k c, validators.lookup k = some c →
      c.validatorId = k ∧ c.activeJobs = m.unfinished k ∧ c.activeJobs ≤ c.maxConcurrentJobs) :
    Exact { m with validators } submitted :=
  ⟨h.kept, hload, h.waiting, h.distinct, h.known⟩

theorem Exact.step {h h' : ManagerHistory} {call : ManagerCall} (hexact : Exact h.manager h.submitted)
    (hstep : h.CountedStep call h') : Exact h'.manager h'.submitted := by
  obtain ⟨hdistinct, hcounted, hstep⟩ := hstep
  obtain ⟨m, hcall, rfl⟩ := map_eq_some_iff.mp hstep
  cases call with
  | registerValidator capacity =>
    obtain rfl := some.inj hcall
    refine hexact.validators fun k c hk => ?_
    rcases lookup_insert_eq_some.mp hk with ⟨rfl, rfl⟩ | ⟨-, hk⟩
    · exact ⟨rfl, hcounted⟩
    · exact hexact.load k c hk
  | updateHeartbeat validatorId now =>
    obtain rfl := some.inj hcall
    unfold updateHeartbeat
    split
    · rename_i c hc
      refine hexact.validators fun k c' hk => ?_
      rcases lookup_insert_eq_some.mp hk with ⟨rfl, rfl⟩ | ⟨-, hk⟩
      · exact hexact.load k c hc
      · exact hexact.load k c' hk
    · exact hexact
  | submitJob job =>
    obtain rfl := some.inj hcall
    have hnew : ∀ j, j ∈ h.submitted → j ≠ job.id := fun j hj heq => hdistinct (heq ▸ hj)
    refine ⟨fun j hj => ?_, hexact.load, fun job' hjob' => ?_, ?_, fun j hj => mem_append_left _ (hexact.known j hj)⟩
    · rcases mem_append.mp hj with hj | hj
      · exact (hexact.kept j hj).imp_left fun ⟨job', hjob', hid⟩ => ⟨job', mem_append_left _ hjob', hid⟩
      · exact .inl ⟨job, mem_append_right _ (mem_singleton_self _), (mem_singleton.mp hj).symm⟩
    · rcases mem_append.mp hjob' with hjob' | hjob'
      · obtain ⟨hsub, hrest⟩ := hexact.waiting job' hjob'
        exact ⟨mem_append_left _ hsub, hrest⟩
      · obtain rfl := mem_singleton.mp hjob'
        exact ⟨by simp, fun hmem => hdistinct (hexact.known _ hmem), hcounted⟩
    · rw [submitJob, map_append, nodup_append]
      refine ⟨hexact.distinct, nodup_singleton _, fun j hj j' hj' => ?_⟩
      obtain ⟨job', hjob', rfl⟩ := mem_map.mp hj
      rw [mem_singleton.mp hj']
      exact hnew _ (hexact.waiting job' hjob').1
  | assignJobs least clock =>
    obtain ⟨⟨m', made⟩, hassign, rfl⟩ := map_eq_some_iff.mp hcall
    exact hexact.assignJobs hcounted hassign
  | submitResult result =>
    obtain rfl := some.inj hcall
    exact hexact.submitResult hcounted.1 hcounted.2
  | cleanupStaleValidators now =>
    obtain ⟨⟨m', removed⟩, hclean, rfl⟩ := map_eq_some_iff.mp hcall
    unfold cleanupStaleValidators at hclean
    split at hclean
    · obtain ⟨rfl, -⟩ := Prod.mk.inj (some.inj hclean)
      refine hexact.validators fun k c hk => ?_
      rw [lookup_foldl_erase] at hk
      split at hk
      · cases hk
      · exact hexact.load k c hk
    · cases hclean

end ManagerLoadAux

/-- In every run whose calls keep the counts, each job that was submitted waits, is assigned or has a result, and each registered
validator counts the jobs that are assigned to it and have no result, which are no more than its maximum. -/
theorem manager_keeps_jobs_and_load (calls : List ManagerCall) (t : ManagerHistory)
    (hrun : Run ManagerHistory.CountedStep .start calls t) :
    (∀ j ∈ t.submitted, (∃ job ∈ t.manager.pendingJobs, job.id = j) ∨ j ∈ t.manager.assignments ∨ j ∈ t.manager.results) ∧
      ∀ v c, t.manager.validators.lookup v = some c →
        c.activeJobs = t.manager.unfinished v ∧ c.activeJobs ≤ c.maxConcurrentJobs := by
  have hexact : ManagerLoadAux.Exact t.manager t.submitted := by
    refine hrun.invariant (P := fun h => ManagerLoadAux.Exact h.manager h.submitted) ?_ fun _ _ _ h hstep => h.step hstep
    exact ⟨nofun, nofun, nofun, nodup_nil, nofun⟩
  exact ⟨hexact.kept, fun v c hc => (hexact.load v c hc).2⟩

instance (h : ManagerHistory) : (call : ManagerCall) → Decidable (h.Distinct call)
  | .submitJob job => inferInstanceAs (Decidable (job.id ∉ h.submitted))
  | .registerValidator _ | .updateHeartbeat .. | .assignJobs .. | .submitResult _ | .cleanupStaleValidators _ => .isTrue trivial

instance (m : JobManager) : (call : ManagerCall) → Decidable (call.Counted m)
  | .registerValidator _ => inferInstanceAs (Decidable (_ ∧ _))
  | .submitJob job => inferInstanceAs (Decidable (job.id ∉ m.results))
  | .assignJobs least clock => inferInstanceAs (Decidable (∀ r ∈ m.assignAll least clock, _))
  | .submitResult _ => inferInstanceAs (Decidable (_ ∧ ∀ job ∈ m.pendingJobs, _))
  | .updateHeartbeat .. | .cleanupStaleValidators _ => .isTrue trivial

namespace ManagerSample

def validator : ValidatorId := "validator-1"

/-- The validator registers with a maximum of two jobs and none of its own. -/
def register (now : Nat) : ManagerCall := .registerValidator ⟨validator, 0, 2, now⟩

def submit (jobId : JobId) : ManagerCall := .submitJob (.new jobId 0 [] [] ⟨0, 0, 0⟩)

/-- The first validator of the list is taken. -/
def head : LeastLoaded where
  first := head?
  first_mem _ _ h := mem_of_mem_head? h
  first_none _ h := head?_eq_none_iff.mp h

def assign : ManagerCall := .assignJobs head fun _ => 1000

def answer (jobId : JobId) : ManagerCall := .submitResult (.success jobId [] 0 0 0)

/-- Three jobs for two places, and the first result; the job that waited gets its place. -/
def working : List ManagerCall :=
  [register 0, submit "job-1", submit "job-2", submit "job-3", assign, answer "job-1", assign]

def countedStep : ManagerHistory → ManagerCall → Option ManagerHistory :=
  Run.guarded (fun h call => h.Distinct call ∧ call.Counted h.manager) ManagerHistory.step

theorem of_countedStep (h : ManagerHistory) (call : ManagerCall) (h' : ManagerHistory) (hstep : countedStep h call = some h') :
    h.CountedStep call h' := by
  obtain ⟨hresult, hdistinct, hcounted⟩ := Run.of_guarded h call h' hstep
  exact ⟨hdistinct, hcounted, hresult⟩

end ManagerSample

open ManagerSample in
/-- The validator has two jobs left, and counts two. -/
theorem manager_keeps_jobs_and_load_working : ∃ t c, Run ManagerHistory.CountedStep .start working t ∧
    t.manager.validators.lookup validator = some c ∧ t.manager.unfinished validator = 2 ∧
    c.activeJobs = t.manager.unfinished validator := by
  have hexecuted : ((working.foldlM countedStep ManagerHistory.start).any fun t =>
      decide ((t.manager.validators.lookup validator).isSome ∧ t.manager.unfinished validator = 2)) = true := by
    decide +kernel
  obtain ⟨t, hrun, hregistered, hunfinished⟩ := Run.exists_of_foldlM of_countedStep hexecuted
  obtain ⟨c, hc⟩ := isSome_iff_exists.mp hregistered
  exact ⟨t, c, hrun, hc, hunfinished, ((manager_keeps_jobs_and_load working t hrun).2 validator c hc).1⟩

open ManagerSample in
/-- Four jobs for two places: the fourth is lost. And a validator that registers again while it has a job counts none. -/
theorem manager_loses_job_and_count :
    (∃ t, [register 0, submit "job-1", submit "job-2", submit "job-3", submit "job-4", assign].foldlM ManagerHistory.step .start =
      some t ∧ "job-4" ∈ t.submitted ∧ t.manager.getJobStatus "job-4" = none) ∧
    ∃ t, [register 0, submit "job-1", assign, register 1000].foldlM ManagerHistory.step .start = some t ∧
      (t.manager.validators.lookup validator).map (·.activeJobs) = some 0 ∧ t.manager.unfinished validator = 1 := by
  refine ⟨⟨_, rfl, ?_⟩, ⟨_, rfl, ?_⟩⟩
  · decide +kernel
  · decide +kernel

end Paraloom.OffChain
