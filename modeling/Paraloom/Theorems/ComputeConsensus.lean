import Paraloom.Lemmas.ComputeConsensus
import Paraloom.Lib.Run

/-!
# When agreement on a compute job is real

Two results with the same key are agreement, however many validators the job has, and results have the same key when one
succeeded with the empty output and the other failed. So agreement is real, and stays, only where a job has at most three
validators, they stay assigned, and the same key means the same result.
-/

namespace Paraloom.OffChain

open List

namespace VerificationCoordinator

def assigned (c : VerificationCoordinator) (jobId : JobId) : List ValidatorId :=
  ((c.requests.lookup jobId).map (·.validators)).getD []

def reporters (c : VerificationCoordinator) (jobId : JobId) (result : JobResult) : List ValidatorId :=
  (c.assigned jobId).dedup.filter fun validatorId => (c.getResults jobId).any fun r =>
    r.validatorId = validatorId ∧ r.result.status = result.status ∧ r.result.outputData = result.outputData

/-- Two thirds of the distinct validators of the job have reported the result. -/
def AgreedByTwoThirds (c : VerificationCoordinator) (jobId : JobId) (result : JobResult) : Prop :=
  2 * (c.assigned jobId).dedup.length ≤ 3 * (c.reporters jobId result).length

end VerificationCoordinator

/-- A request has at most three distinct validators, among them those that have reported; a result that is heard is the same as
the earlier ones with its key. -/
def VerificationCall.Comparable (c : VerificationCoordinator) : VerificationCall → Prop
  | .createVerificationRequest jobId validators => verificationValidatorCount ≤ validators.length →
      validators.dedup.length ≤ verificationValidatorCount ∧ ∀ r ∈ c.getResults jobId, r.validatorId ∈ validators
  | .submitResult jobId validatorId result => validatorId ∈ c.assigned jobId →
      (∀ r ∈ c.getResults jobId, r.validatorId ≠ validatorId) →
      ∀ r ∈ c.getResults jobId, r.key = result.outputData.getD [] →
        r.result.status = result.status ∧ r.result.outputData = result.outputData
  | .checkConsensus _ => True

def VerificationCoordinator.ComparableStep (c : VerificationCoordinator) (call : VerificationCall)
    (c' : VerificationCoordinator) : Prop :=
  call.Comparable c ∧ c.Step call c'

namespace ComputeConsensusAux

open VerificationCoordinator

variable {c c' : VerificationCoordinator}

/-- What holds of every job. -/
structure Sound (c : VerificationCoordinator) (jobId : JobId) : Prop where
  once : ((c.getResults jobId).map (·.validatorId)).Nodup
  assigned : ∀ r ∈ c.getResults jobId, r.validatorId ∈ c.assigned jobId
  few : (c.assigned jobId).dedup.length ≤ verificationValidatorCount
  same : ∀ r ∈ c.getResults jobId, ∀ r' ∈ c.getResults jobId, r.key = r'.key →
    r.result.status = r'.result.status ∧ r.result.outputData = r'.result.outputData

theorem sound_new (jobId : JobId) : Sound .new jobId :=
  ⟨nodup_nil, nofun, Nat.zero_le _, nofun⟩

section Create

theorem getResults_create : getResults { c with requests := c.requests.insert created ⟨created, validators, now⟩ } jobId =
    c.getResults jobId := rfl

theorem assigned_create : VerificationCoordinator.assigned
    { c with requests := c.requests.insert created ⟨created, validators, now⟩ } jobId =
      if jobId = created then validators else c.assigned jobId := by
  unfold VerificationCoordinator.assigned
  split
  · rename_i heq
    subst heq
    rw [AList.lookup_insert]
    rfl
  · rename_i hne
    rw [AList.lookup_insert_ne hne]

theorem Sound.create (h : Sound c jobId) (hfew : validators.dedup.length ≤ verificationValidatorCount)
    (hreported : ∀ r ∈ c.getResults created, r.validatorId ∈ validators) :
    Sound { c with requests := c.requests.insert created ⟨created, validators, now⟩ } jobId := by
  refine ⟨h.once, ?_, ?_, h.same⟩
  · intro r hr
    rw [getResults_create] at hr
    rw [assigned_create]
    split
    · rename_i heq
      subst heq
      exact hreported r hr
    · exact h.assigned r hr
  · rw [assigned_create]
    split
    · exact hfew
    · exact h.few

end Create

section Submit

variable {new : ValidatorResult}

theorem getResults_submit :
    getResults { c with results := c.results.insert submitted (c.getResults submitted ++ [new]) } jobId =
      if jobId = submitted then c.getResults jobId ++ [new] else c.getResults jobId := by
  by_cases heq : jobId = submitted
  · subst heq
    simp [getResults]
  · simp [getResults, heq]

theorem Sound.submit (h : Sound c jobId) (hassigned : new.validatorId ∈ c.assigned submitted)
    (hnew : ∀ r ∈ c.getResults submitted, r.validatorId ≠ new.validatorId)
    (hsame : ∀ r ∈ c.getResults submitted, r.key = new.key →
      r.result.status = new.result.status ∧ r.result.outputData = new.result.outputData) :
    Sound { c with results := c.results.insert submitted (c.getResults submitted ++ [new]) } jobId := by
  by_cases heq : jobId = submitted
  · subst heq
    have hresults : getResults { c with results := c.results.insert jobId (c.getResults jobId ++ [new]) } jobId =
        c.getResults jobId ++ [new] := by rw [getResults_submit, if_pos rfl]
    refine ⟨?_, ?_, h.few, ?_⟩
    · rw [hresults, map_append, nodup_append]
      refine ⟨h.once, nodup_singleton _, ?_⟩
      intro a ha b hb
      obtain ⟨r, hr, rfl⟩ := mem_map.mp ha
      obtain rfl := mem_singleton.mp hb
      exact hnew r hr
    · intro r hr
      rw [hresults] at hr
      rcases mem_append.mp hr with hr | hr
      · exact h.assigned r hr
      · obtain rfl := mem_singleton.mp hr
        exact hassigned
    · intro r hr r' hr' hkey
      rw [hresults] at hr hr'
      rcases mem_append.mp hr with hold | hown
      · rcases mem_append.mp hr' with hold' | hown'
        · exact h.same r hold r' hold' hkey
        · obtain rfl := mem_singleton.mp hown'
          exact hsame r hold hkey
      · obtain rfl := mem_singleton.mp hown
        rcases mem_append.mp hr' with hold' | hown'
        · obtain ⟨hstatus, houtput⟩ := hsame r' hold' hkey.symm
          exact ⟨hstatus.symm, houtput.symm⟩
        · obtain rfl := mem_singleton.mp hown'
          exact ⟨rfl, rfl⟩
  · have hresults : getResults { c with results := c.results.insert submitted (c.getResults submitted ++ [new]) } jobId =
        c.getResults jobId := by rw [getResults_submit, if_neg heq]
    refine ⟨?_, ?_, h.few, ?_⟩
    · rw [hresults]
      exact h.once
    · rw [hresults]
      exact h.assigned
    · rw [hresults]
      exact h.same

end Submit

theorem Sound.step (h : Sound c jobId) (hstep : c.ComparableStep call c') :
    Sound c' jobId ∧ c.getResults jobId <+: c'.getResults jobId := by
  obtain ⟨hcomparable, now, rfl⟩ := hstep
  rcases after_cases c now call with hsame | ⟨created, validators, rfl, hlength, hafter⟩ |
    ⟨submitted, validatorId, result, request, rfl, hrequest, hassigned, hnew, hafter⟩
  · rw [hsame]
    exact ⟨h, prefix_refl _⟩
  · obtain ⟨hfew, hreported⟩ := hcomparable hlength
    rw [hafter]
    exact ⟨h.create hfew hreported, prefix_refl _⟩
  · have hin : validatorId ∈ c.assigned submitted := by
      rw [VerificationCoordinator.assigned, hrequest]
      exact hassigned
    rw [hafter]
    refine ⟨h.submit hin hnew (hcomparable hin hnew), ?_⟩
    rw [getResults_submit]
    split
    · exact prefix_append _ _
    · exact prefix_refl _

theorem Sound.run {calls : List VerificationCall} (h : Sound c jobId) (hrun : Run ComparableStep c calls c') :
    Sound c' jobId ∧ c.getResults jobId <+: c'.getResults jobId := by
  refine hrun.invariant (P := fun c' => Sound c' jobId ∧ c.getResults jobId <+: c'.getResults jobId) ⟨h, prefix_refl _⟩ ?_
  intro t call u ht hstep
  obtain ⟨hsound, hgrows⟩ := ht.1.step hstep
  exact ⟨hsound, ht.2.trans hgrows⟩

theorem Sound.length_le (h : Sound c jobId) : (c.getResults jobId).length ≤ verificationValidatorCount := by
  have hsubset : (c.getResults jobId).map (·.validatorId) ⊆ (c.assigned jobId).dedup := by
    intro validatorId hmem
    obtain ⟨r, hr, rfl⟩ := mem_map.mp hmem
    exact mem_dedup.mpr (h.assigned r hr)
  have hle := (subperm_of_subset h.once hsubset).length_le
  rw [length_map] at hle
  exact hle.trans h.few

theorem Sound.group_length_le (h : Sound c jobId) (hfirst : first ∈ c.group jobId key) :
    (c.group jobId key).length ≤ (c.reporters jobId first.result).length := by
  have hnodup : ((c.group jobId key).map (·.validatorId)).Nodup := h.once.sublist (filter_sublist.map _)
  obtain ⟨hfirstMem, hfirstKey⟩ := mem_filter.mp hfirst
  have hsubset : (c.group jobId key).map (·.validatorId) ⊆ c.reporters jobId first.result := by
    intro validatorId hmem
    obtain ⟨r, hr, rfl⟩ := mem_map.mp hmem
    obtain ⟨hrMem, hrKey⟩ := mem_filter.mp hr
    have hkeys : r.key = first.key := (of_decide_eq_true hrKey).trans (of_decide_eq_true hfirstKey).symm
    obtain ⟨hstatus, houtput⟩ := h.same r hrMem first hfirstMem hkeys
    refine mem_filter.mpr ⟨mem_dedup.mpr (h.assigned r hrMem), any_eq_true.mpr ⟨r, hrMem, ?_⟩⟩
    exact decide_eq_true ⟨rfl, hstatus, houtput⟩
  have hle := (subperm_of_subset hnodup hsubset).length_le
  rwa [length_map] at hle

theorem Sound.agreedByTwoThirds (h : Sound c jobId) (hagreed : c.checkConsensus order jobId = .ok (.agreed result)) :
    c.AgreedByTwoThirds jobId result := by
  obtain ⟨key, first, others, hgroup, rfl, hthreshold, -⟩ := agreed_spec hagreed
  have hfirst : first ∈ c.group jobId key := hgroup ▸ mem_cons_self
  have hreporters := h.group_length_le hfirst
  have hfew := h.few
  rw [consensusThreshold] at hthreshold
  rw [verificationValidatorCount] at hfew
  rw [AgreedByTwoThirds]
  omega

theorem Sound.agreed_of_prefix (h : Sound c' jobId) (hgrows : c.getResults jobId <+: c'.getResults jobId)
    (hagreed : c.checkConsensus order jobId = .ok (.agreed result)) :
    c'.checkConsensus order' jobId = .ok (.agreed result) := by
  obtain ⟨key, first, others, hgroup, rfl, hthreshold, -⟩ := agreed_spec hagreed
  obtain ⟨added, hadded⟩ := hgrows
  have hgroup' : c'.group jobId key = first :: (others ++ added.filter (·.key = key)) := by
    rw [group, ← hadded, filter_append]
    change c.group jobId key ++ _ = _
    rw [hgroup, cons_append]
  have hthreshold' : consensusThreshold ≤ (c'.group jobId key).length := by
    rw [hgroup] at hthreshold
    rw [hgroup', length_cons, length_append]
    rw [length_cons] at hthreshold
    omega
  obtain ⟨result', hagreed'⟩ := exists_agreed order' hthreshold'
  obtain ⟨key', first', others', hlargest, rfl, -, hmax⟩ := agreed_spec hagreed'
  -- a second group of two would be four results
  have hkeys : key' = key := by
    by_contra hne
    have hsum : (c'.group jobId key').length + (c'.group jobId key).length ≤ (c'.getResults jobId).length :=
      Grouping.length_add_length_le hne
    have hle := h.length_le
    have hlarge := hmax key
    rw [consensusThreshold] at hthreshold'
    rw [verificationValidatorCount] at hle
    omega
  subst hkeys
  rw [hgroup'] at hlargest
  obtain ⟨rfl, -⟩ := cons.inj hlargest
  exact hagreed'

end ComputeConsensusAux

open ComputeConsensusAux VerificationCoordinator in
/-- In every run of comparable calls from a new coordinator, if `check_consensus` returns a result as agreed, two thirds of the
distinct validators now assigned to the job have reported its status and output, and every later `check_consensus` for the job
returns as agreed a result with the same status and output. -/
theorem compute_consensus_agreement {calls : List VerificationCall} {c : VerificationCoordinator}
    (hrun : Run ComparableStep .new calls c) {order : Table.Order (List UInt8) (List ValidatorResult)} {jobId : JobId}
    {result : JobResult} (hagreed : c.checkConsensus order jobId = .ok (.agreed result)) :
    c.AgreedByTwoThirds jobId result ∧ ∀ (later : List VerificationCall) (c' : VerificationCoordinator),
      Run ComparableStep c later c' → ∀ order', ∃ result', c'.checkConsensus order' jobId = .ok (.agreed result') ∧
        result'.status = result.status ∧ result'.outputData = result.outputData := by
  obtain ⟨hsound, -⟩ := (sound_new jobId).run hrun
  refine ⟨hsound.agreedByTwoThirds hagreed, ?_⟩
  intro later c' hlater order'
  obtain ⟨hsound', hgrows⟩ := hsound.run hlater
  exact ⟨result, hsound'.agreed_of_prefix hgrows hagreed, rfl, rfl⟩

namespace ComputeConsensusSample

def calls (first second : JobResult) : List VerificationCall :=
  [.createVerificationRequest "job1" validators, .submitResult "job1" "v1" first, .submitResult "job1" "v2" second]

def emptyAnswer : JobResult := .success "job1" [] 100 1024 50000

def failed : JobResult := .failure "job1" "Out of memory" 50

/-- A success with the empty output and a failure are two results of one group. -/
theorem checkConsensus_mixed : (collected emptyAnswer failed).checkConsensus order "job1" = .ok (.agreed emptyAnswer) := rfl

end ComputeConsensusSample

open ComputeConsensusSample VerificationCoordinator in
/-- Two of three validators report the same output. -/
theorem compute_consensus_agreement_two_of_three : Run ComparableStep .new (calls answer answer) (collected answer answer) ∧
    (collected answer answer).checkConsensus order "job1" = .ok (.agreed answer) ∧
      (collected answer answer).AgreedByTwoThirds "job1" answer := by
  have hcreate : Run ComparableStep .new [.createVerificationRequest "job1" validators] _ :=
    Run.nil.snoc ⟨fun _ => ⟨by decide, nofun⟩, 0, rfl⟩
  have hfirst : Run ComparableStep .new [.createVerificationRequest "job1" validators, .submitResult "job1" "v1" answer] _ :=
    hcreate.snoc ⟨fun _ _ => nofun, 0, rfl⟩
  have hsecond : Run ComparableStep .new (calls answer answer) (collected answer answer) := by
    refine hfirst.snoc ⟨fun _ _ r hr _ => ?_, 0, rfl⟩
    obtain rfl := mem_singleton.mp hr
    exact ⟨rfl, rfl⟩
  have hagreed : (collected answer answer).checkConsensus order "job1" = .ok (.agreed answer) := rfl
  exact ⟨hsecond, hagreed, (compute_consensus_agreement hsecond hagreed).1⟩

open ComputeConsensusSample VerificationCoordinator in
/-- One of three validators reports success with the empty output, another a failure, and the success is agreed on. -/
theorem compute_consensus_mixes_failure :
    Run VerificationCoordinator.Step .new (calls emptyAnswer failed) (collected emptyAnswer failed) ∧
    (collected emptyAnswer failed).checkConsensus order "job1" = .ok (.agreed emptyAnswer) ∧
      ¬ (collected emptyAnswer failed).AgreedByTwoThirds "job1" emptyAnswer := by
  have hcreate : Run VerificationCoordinator.Step .new [.createVerificationRequest "job1" validators] _ := Run.nil.snoc ⟨0, rfl⟩
  have hfirst : Run VerificationCoordinator.Step .new
      [.createVerificationRequest "job1" validators, .submitResult "job1" "v1" emptyAnswer] _ :=
    hcreate.snoc ⟨0, rfl⟩
  refine ⟨hfirst.snoc ⟨0, rfl⟩, checkConsensus_mixed, ?_⟩
  rw [AgreedByTwoThirds]
  decide

end Paraloom.OffChain
