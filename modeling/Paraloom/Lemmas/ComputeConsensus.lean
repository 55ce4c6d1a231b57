import Paraloom.OffChain.ComputeConsensus

/-!
# What the agreement on a compute job comes down to

The coordinator reports agreement exactly when two of the collected results have the same key, in whatever order it visits the
groups, and reports the first result of a largest group. A call changes the requests of one job, or adds one result to one job,
or changes nothing.
-/

namespace Paraloom.OffChain

namespace VerificationCoordinator

open Grouping

variable {c c' : VerificationCoordinator}

def group (c : VerificationCoordinator) (jobId : JobId) (key : List UInt8) : List ValidatorResult :=
  (c.getResults jobId).filter (·.key = key)

/-- Agreement is on the first result of a largest group. -/
theorem agreed_spec (h : c.checkConsensus order jobId = .ok (.agreed result)) :
    ∃ key first others, c.group jobId key = first :: others ∧ first.result = result ∧
      consensusThreshold ≤ (c.group jobId key).length ∧ ∀ key', (c.group jobId key').length ≤ (c.group jobId key).length := by
  unfold checkConsensus at h
  cases hresults : c.results.lookup jobId with
  | none =>
    rw [hresults] at h
    cases h
  | some jobResults =>
    have hget : c.getResults jobId = jobResults := by rw [getResults, hresults, Option.getD_some]
    simp only [hresults] at h
    split at h
    · cases h
    · split at h
      · cases h
      · cases h
      · rename_i key first others hlargest
        obtain ⟨hgroup, -, hmax⟩ := largest_group hlargest
        split at h
        · rename_i hthreshold
          have hresult : first.result = result := by
            cases h
            rfl
          refine ⟨key, first, others, ?_, hresult, ?_, ?_⟩
          · rw [group, hget, ← hgroup]
          · rw [group, hget, ← hgroup]
            exact hthreshold
          · intro key'
            rw [group, group, hget, ← hgroup]
            exact hmax key'
        · cases h

theorem exists_agreed (order : Table.Order (List UInt8) (List ValidatorResult))
    (h : consensusThreshold ≤ (c.group jobId key).length) : ∃ result, c.checkConsensus order jobId = .ok (.agreed result) := by
  unfold checkConsensus
  cases hresults : c.results.lookup jobId with
  | none =>
    rw [group, getResults, hresults, Option.getD_none, List.filter_nil] at h
    exact absurd h (by decide)
  | some jobResults =>
    have hget : c.getResults jobId = jobResults := by rw [getResults, hresults, Option.getD_some]
    rw [group, hget] at h
    have hlength : consensusThreshold ≤ jobResults.length := h.trans (List.length_filter_le _ _)
    have hne : jobResults ≠ [] := by
      rintro rfl
      exact absurd hlength (by decide)
    obtain ⟨⟨k, largest⟩, hlargest⟩ := exists_largest_group order hne
    obtain ⟨-, hnil, hmax⟩ := largest_group hlargest
    have hthreshold := h.trans (hmax key)
    simp only [hlargest, if_neg (Nat.not_lt.mpr hlength)]
    cases largest with
    | nil => exact absurd rfl hnil
    | cons first others => exact ⟨first.result, if_pos hthreshold⟩

theorem after_cases (c : VerificationCoordinator) (now : UInt64) (call : VerificationCall) : c.after now call = c ∨
    (∃ jobId validators, call = .createVerificationRequest jobId validators ∧ verificationValidatorCount ≤ validators.length ∧
      c.after now call = { c with requests := c.requests.insert jobId ⟨jobId, validators, now⟩ }) ∨
    ∃ jobId validatorId result request, call = .submitResult jobId validatorId result ∧
      c.requests.lookup jobId = some request ∧ validatorId ∈ request.validators ∧
      (∀ r ∈ c.getResults jobId, r.validatorId ≠ validatorId) ∧
      c.after now call = { c with results := c.results.insert jobId (c.getResults jobId ++ [⟨validatorId, result, now⟩]) } := by
  cases call with
  | checkConsensus jobId => exact .inl rfl
  | createVerificationRequest jobId validators =>
    by_cases hfew : validators.length < verificationValidatorCount
    · left
      simp only [after, createVerificationRequest, if_pos hfew]
    · refine .inr (.inl ⟨jobId, validators, rfl, Nat.not_lt.mp hfew, ?_⟩)
      simp only [after, createVerificationRequest, if_neg hfew]
  | submitResult jobId validatorId result =>
    cases hrequest : c.requests.lookup jobId with
    | none =>
      left
      simp only [after, submitResult, hrequest]
    | some request =>
      by_cases hassigned : validatorId ∈ request.validators
      · by_cases hany : (c.getResults jobId).any (·.validatorId = validatorId) = true
        · left
          simp [after, submitResult, hrequest, hassigned, hany]
        · refine .inr (.inr ⟨jobId, validatorId, result, request, rfl, hrequest, hassigned, ?_, ?_⟩)
          · intro r hr heq
            exact hany (List.any_eq_true.mpr ⟨r, hr, by simpa using heq⟩)
          · simp only [after, submitResult, hrequest, if_neg (not_not.mpr hassigned), if_neg hany]
      · left
        simp only [after, submitResult, hrequest, if_pos hassigned]

end VerificationCoordinator

namespace ComputeConsensusSample

/-- A map that iterates over its entries as they stand. -/
def order : Table.Order (List UInt8) (List ValidatorResult) := ⟨fun t => t.entries, fun _ => .refl _⟩

def validators : List ValidatorId := ["v1", "v2", "v3"]

def answer : JobResult := .success "job1" [42] 100 1024 50000

def collected (first second : JobResult) : VerificationCoordinator where
  requests := AList.singleton "job1" ⟨"job1", validators, 0⟩
  results := AList.singleton "job1" [⟨"v1", first, 0⟩, ⟨"v2", second, 0⟩]

end ComputeConsensusSample

end Paraloom.OffChain
