import Paraloom.Lemmas.Ceremony

/-!
# Completeness of the ceremony

Contributors that follow the protocol end with a transcript and a key that pass every check, whatever the hashes are.
-/

namespace Paraloom.OffChain

open List Checked Phase2Transcript

variable [Fact p.Prime] {G1 G2 GT : Type} [AddCommGroup G1] [AddCommGroup G2] [AddCommGroup GT] [Module (ZMod p) G1]
  [Module (ZMod p) G2] [Module (ZMod p) GT]

/-- The key with its deltas multiplied by a scalar, and the two queries that depend on delta by the inverse. -/
def ProvingKey.scaledBy (d : ZMod p) (pk : ProvingKey G1 G2) : ProvingKey G1 G2 :=
  { pk with
    deltaG1 := d • pk.deltaG1
    vk := { pk.vk with deltaG2 := d • pk.vk.deltaG2 }
    hQuery := pk.hQuery.map (d⁻¹ • ·)
    lQuery := pk.lQuery.map (d⁻¹ • ·) }

/-- A call of `contribute` with the key and the transcript of the call before. -/
def contributeNext (C : PairingSuite p G1 G2 GT) (s : ProvingKey G1 G2 × Option Phase2Transcript) (call : ContributeCall p) :
    Except ContributeError (ProvingKey G1 G2 × Option Phase2Transcript) := do
  let (pk, transcript) ← contribute C s.1 s.2 call
  pure (pk, some transcript)

/-- Calls of `contribute` one after the other, the first without a transcript. -/
def contributeAll (C : PairingSuite p G1 G2 GT) (pk : ProvingKey G1 G2) (calls : List (ContributeCall p)) :
    Except ContributeError (ProvingKey G1 G2 × Option Phase2Transcript) :=
  calls.foldlM (contributeNext C) (pk, none)

namespace CeremonyAux

variable {C : PairingSuite p G1 G2 GT} {pk₀ pk : ProvingKey G1 G2} {d : ZMod p} {t : Phase2Transcript} {hash : TranscriptHash}

theorem scaledBy_scaledBy : (pk.scaledBy d).scaledBy e = pk.scaledBy (d * e) := by
  simp [ProvingKey.scaledBy, smul_smul, mul_comm d e, mul_comm e⁻¹]

theorem scaledBy_one : pk.scaledBy (1 : ZMod p) = pk := by
  simp [ProvingKey.scaledBy]

theorem scaledBy_eq_iff (hG1 : pk₀.deltaG1 ≠ 0) :
    (pk₀.scaledBy d).deltaG1 = pk₀.deltaG1 ∧ (pk₀.scaledBy d).vk.deltaG2 = pk₀.vk.deltaG2 ↔ d = 1 := by
  constructor
  · rintro ⟨h, -⟩
    exact smul_left_injective (ZMod p) hG1 (h.trans (one_smul (ZMod p) pk₀.deltaG1).symm)
  · rintro rfl
    rw [scaledBy_one]
    exact ⟨rfl, rfl⟩

def contributionOf (C : PairingSuite p G1 G2 GT) (pk : ProvingKey G1 G2) (t : Phase2Transcript) (call : ContributeCall p) :
    Contribution :=
  let after : ProvingKey G1 G2 := pk.scaledBy call.deltaI
  let rG1 := call.nonce • pk.deltaG1
  let rG2 := call.nonce • pk.vk.deltaG2
  let c := fiatShamirChallenge C pk.deltaG1 after.deltaG1 pk.vk.deltaG2 after.vk.deltaG2 rG1 rG2
  { priorHash := t.expectedPrior C.sha512
    contributor := call.contributor
    deltaAfterG1 := C.g1.encode after.deltaG1
    deltaAfterG2 := C.g2.encode after.vk.deltaG2
    dleqProof := DleqProof.toBytes C ⟨rG1, rG2, call.nonce + c * call.deltaI⟩
    contributorPubkey := []
    signature := []
    attestation := call.attestation }

theorem contribute_ok (hne : call.deltaI ≠ 0) : contribute C pk (some t) call =
      .ok (pk.scaledBy call.deltaI, { t with contributions := t.contributions ++ [contributionOf C pk t call] }) := by
  unfold contribute applyContribution append
  simp only [Checked.require, if_pos hne, Option.getD_some]
  rfl

theorem expectedPrior_concat :
    { t with contributions := t.contributions ++ [c] }.expectedPrior sha512 = hashContribution sha512 c := by
  simp [expectedPrior]

theorem deltas_contributionOf (call : ContributeCall p) (position : Nat) : (contributionOf C pk t call).deltas C position =
    .ok ((pk.scaledBy call.deltaI).deltaG1, (pk.scaledBy call.deltaI).vk.deltaG2) := by
  refine Checked.seq_ok_iff.mpr ⟨_, Checked.okOr_ok_iff.mpr (C.g1.read_encode _), ?_⟩
  exact Checked.seq_ok_iff.mpr ⟨_, Checked.okOr_ok_iff.mpr (C.g2.read_encode _), rfl⟩

variable [DecidableEq G1] [DecidableEq G2]

theorem transitionStep_contributionOf (hne : call.deltaI ≠ 0) (hG1 : pk.deltaG1 ≠ 0) (hG2 : pk.vk.deltaG2 ≠ 0) :
    transitionStep C (pk.deltaG1, pk.vk.deltaG2) (contributionOf C pk t call, position) =
      .ok ((pk.scaledBy call.deltaI).deltaG1, (pk.scaledBy call.deltaI).vk.deltaG2) := by
  refine seq_ok_iff.mpr ⟨_, deltas_contributionOf call position, ?_⟩
  refine seq_ok_iff.mpr ⟨_, congrArg (mapErr _) (fromBytes_toBytes _), ?_⟩
  refine seq_ok_iff.mpr ⟨(), ?_, rfl⟩
  refine congrArg (mapErr _) (verifyContributionDeltasAt_ok_iff.mpr ⟨⟨?_, ?_⟩, ?_, ?_⟩ : _ = Except.ok ())
  · exact smul_ne_zero hne hG1
  · exact smul_ne_zero hne hG2
  · exact (add_smul ..).trans (congrArg _ (mul_smul ..))
  · exact (add_smul ..).trans (congrArg _ (mul_smul ..))

/-- What honest calls keep, with the product of their scalars so far. -/
structure Honest (C : PairingSuite p G1 G2 GT) (pk₀ : ProvingKey G1 G2) (hash : TranscriptHash) (d : ZMod p)
    (pk : ProvingKey G1 G2) (t : Phase2Transcript) : Prop where
  key : pk = pk₀.scaledBy d
  initial : t.initialSrsHash = hash
  chain : t.contributions.zipIdx.foldlM (Phase2Transcript.chainStep C.sha512) hash = .ok (t.expectedPrior C.sha512)
  transitions : t.contributions.zipIdx.foldlM (transitionStep C) (pk₀.deltaG1, pk₀.vk.deltaG2) = .ok (pk.deltaG1, pk.vk.deltaG2)
  tip : ∀ last ∈ t.contributions.getLast?, ∀ position, last.deltas C position = .ok (pk.deltaG1, pk.vk.deltaG2)

theorem honest_new (circuit : CircuitId) : Honest C pk₀ hash 1 pk₀ (.new circuit hash) := by
  refine ⟨(scaledBy_one).symm, rfl, rfl, rfl, ?_⟩
  intro last hlast
  cases hlast

theorem Honest.step (h : Honest C pk₀ hash d pk t) (hd : d ≠ 0) (hG1 : pk₀.deltaG1 ≠ 0) (hG2 : pk₀.vk.deltaG2 ≠ 0)
    (call : ContributeCall p) (hne : call.deltaI ≠ 0) : Honest C pk₀ hash (d * call.deltaI) (pk.scaledBy call.deltaI)
      { t with contributions := t.contributions ++ [contributionOf C pk t call] } := by
  refine ⟨?_, h.initial, ?_, ?_, ?_⟩
  · rw [h.key, scaledBy_scaledBy]
  · rw [zipIdx_append, foldlM_append, h.chain]
    refine seq_ok_iff.mpr ⟨_, rfl, seq_ok_iff.mpr ⟨_, ?_, rfl⟩⟩
    rw [expectedPrior_concat]
    exact Checked.seq_ok_iff.mpr ⟨(), Checked.require_ok_iff.mpr rfl, rfl⟩
  · rw [zipIdx_append, foldlM_append, h.transitions]
    refine seq_ok_iff.mpr ⟨_, rfl, seq_ok_iff.mpr ⟨_, transitionStep_contributionOf hne ?_ ?_, rfl⟩⟩
    · rw [h.key]
      exact smul_ne_zero hd hG1
    · rw [h.key]
      exact smul_ne_zero hd hG2
  · intro last hlast position
    rw [getLast?_append_cons, getLast?_singleton] at hlast
    obtain rfl := Option.some.inj hlast
    exact deltas_contributionOf call position

theorem Honest.run (hG1 : pk₀.deltaG1 ≠ 0) (hG2 : pk₀.vk.deltaG2 ≠ 0) (calls : List (ContributeCall p))
    (hne : ∀ call ∈ calls, call.deltaI ≠ 0) (h : Honest C pk₀ hash d pk t) (hd : d ≠ 0) :
    ∃ pk' t', calls.foldlM (contributeNext C) (pk, some t) = .ok (pk', some t') ∧
      Honest C pk₀ hash (d * (calls.map (·.deltaI)).prod) pk' t' ∧
      t'.contributions.length = t.contributions.length + calls.length := by
  induction calls generalizing pk t d with
  | nil => exact ⟨pk, t, rfl, by rwa [map_nil, prod_nil, mul_one], rfl⟩
  | cons call calls ih =>
    have hcall : call.deltaI ≠ 0 := hne call (mem_cons_self ..)
    obtain ⟨pk', t', hrun, hhonest, hlength⟩ := ih (fun c hc => hne c (mem_cons_of_mem _ hc))
      (h.step hd hG1 hG2 call hcall) (mul_ne_zero hd hcall)
    refine ⟨pk', t', ?_, ?_, ?_⟩
    · rw [foldlM_cons, contributeNext, contribute_ok hcall]
      exact hrun
    · rwa [map_cons, prod_cons, ← mul_assoc]
    · rw [hlength, length_append, length_singleton, length_cons]
      omega

theorem Honest.verifyPhase2Transcript_ok (h : Honest C pk₀ hash d pk t) : verifyPhase2Transcript C pk₀ t = .ok () := by
  refine seq_ok_iff.mpr ⟨(), congrArg (mapErr _) (?_ : _ = Except.ok ()), ?_⟩
  · refine seq_ok_iff.mpr ⟨t.expectedPrior C.sha512, ?_, rfl⟩
    rw [h.initial]
    exact h.chain
  · exact seq_ok_iff.mpr ⟨_, h.transitions, rfl⟩

theorem Honest.verifyFinalPk_ok (h : Honest C pk₀ hash d pk t) (hne : t.contributions ≠ []) :
    verifyFinalPk C pk₀ t pk = .ok () := by
  refine seq_ok_iff.mpr ⟨(pk.deltaG1, pk.vk.deltaG2), ?_, ?_⟩
  · rw [finalDeltas, getLast?_eq_some_getLast hne]
    exact h.tip _ (getLast?_eq_some_getLast hne) _
  · exact Checked.require_ok_iff.mpr (not_or.mpr ⟨not_not.mpr rfl, not_not.mpr rfl⟩)

theorem enforceFinalizePolicy_scaledBy (policy : FinalizePolicy) (hG1 : pk₀.deltaG1 ≠ 0) (hne : t.contributions ≠ [])
    (hmin : policy.minContributions ≤ t.contributions.length) (hinitial : t.initialSrsHash = policy.initialSrsHash)
    (htip : ∀ pin ∈ policy.finalContributionHash, ∃ tip ∈ t.contributions.getLast?, hashContribution C.sha512 tip = pin) :
    enforceFinalizePolicy C policy policy.initialSrsHash pk₀ (pk₀.scaledBy d) t =
      if d = 1 then .error .finalKeyUnchanged else .ok () := by
  have hlength : ¬t.contributions.length < max policy.minContributions 1 := by
    have hpos := length_pos_iff.mpr hne
    omega
  have hlast := getLast?_eq_some_getLast hne
  rw [hlast] at htip
  unfold enforceFinalizePolicy
  rw [hlast]
  simp only [Checked.require, if_pos hlength, if_pos hinitial, if_true, scaledBy_eq_iff hG1]
  by_cases hd : d = 1
  · simp only [hd, not_true, if_true, if_false]
    rfl
  · simp only [hd, not_false_iff, if_true, if_false]
    cases hpin : policy.finalContributionHash with
    | none => rfl
    | some pin =>
      obtain ⟨tip, htip, hhash⟩ := htip pin hpin
      obtain rfl := Option.some.inj htip
      exact if_pos hhash

variable [DecidableEq GT]

omit [DecidableEq G1] [DecidableEq G2] in
theorem checkQueryConsistency_scaled (hd : d ≠ 0) :
    checkQueryConsistency C field query (query.map (d⁻¹ • ·)) delta (d • delta) = .ok () := by
  refine checkQueryConsistencyAt_of_forall₂ (forall₂_map_left_iff.mpr (forall₂_same.mpr ?_))
  intro point _
  rw [map_smul, map_smul, LinearMap.smul_apply, smul_smul, mul_inv_cancel₀ hd, one_smul]

theorem verifyFinalPkConsistency_scaledBy (pk₀ : ProvingKey G1 G2) (hd : d ≠ 0) :
    verifyFinalPkConsistency C pk₀ (pk₀.scaledBy d) = .ok () := by
  have hlength : ∀ query : List G1, (query.map (d⁻¹ • ·)).length = query.length := fun query => length_map _
  unfold verifyFinalPkConsistency
  simp only [Checked.seq_ok_iff, Checked.require_ok_iff, ProvingKey.scaledBy, hlength, true_and, exists_const]
  exact ⟨(), checkQueryConsistency_scaled hd, checkQueryConsistency_scaled hd⟩

end CeremonyAux

variable [DecidableEq G1] [DecidableEq G2] [DecidableEq GT]

open CeremonyAux in
/-- One or more contributors start with a key whose deltas are not zero, each with a scalar that is not zero and any nonce. All
calls succeed, the transcript and the key pass the three verifiers, the key is the first key multiplied by the product of the
scalars, and a policy that pins both ends refuses the key just when the product is one. -/
theorem ceremony_complete (C : PairingSuite p G1 G2 GT) (pk₀ : ProvingKey G1 G2) (hG1 : pk₀.deltaG1 ≠ 0)
    (hG2 : pk₀.vk.deltaG2 ≠ 0) (first : ContributeCall p) (others : List (ContributeCall p))
    (hne : ∀ call ∈ first :: others, call.deltaI ≠ 0) :
    ∃ pk transcript, contributeAll C pk₀ (first :: others) = .ok (pk, some transcript) ∧
      verifyPhase2Transcript C pk₀ transcript = .ok () ∧ verifyFinalPk C pk₀ transcript pk = .ok () ∧
      verifyFinalPkConsistency C pk₀ pk = .ok () ∧ pk = pk₀.scaledBy ((first :: others).map (·.deltaI)).prod ∧
      ∀ policy : FinalizePolicy, policy.minContributions ≤ (first :: others).length →
        policy.initialSrsHash = first.initialSrsHash →
        (∀ pin ∈ policy.finalContributionHash, ∃ tip ∈ transcript.contributions.getLast?, hashContribution C.sha512 tip = pin) →
        enforceFinalizePolicy C policy first.initialSrsHash pk₀ pk transcript =
          if ((first :: others).map (·.deltaI)).prod = 1 then .error .finalKeyUnchanged else .ok () := by
  obtain ⟨pk, t, hrun, hhonest, hlength⟩ := @Honest.run p _ G1 G2 GT _ _ _ _ _ _ C pk₀ pk₀ 1 _ first.initialSrsHash _ _ hG1 hG2
    (first :: others) hne (honest_new first.circuit) one_ne_zero
  rw [one_mul] at hhonest
  have hlength' : t.contributions.length = (first :: others).length := hlength.trans (Nat.zero_add _)
  have hempty : t.contributions ≠ [] := by
    intro h
    rw [h] at hlength'
    cases hlength'
  have hprod : ((first :: others).map (·.deltaI)).prod ≠ 0 := by
    refine prod_ne_zero ?_
    intro hzero
    obtain ⟨call, hcall, h⟩ := mem_map.mp hzero
    exact hne call hcall h
  refine ⟨pk, t, hrun, hhonest.verifyPhase2Transcript_ok, hhonest.verifyFinalPk_ok hempty, ?_, hhonest.key, ?_⟩
  · rw [hhonest.key]
    exact verifyFinalPkConsistency_scaledBy pk₀ hprod
  · intro policy hmin hinitial htip
    rw [← hinitial, hhonest.key]
    exact enforceFinalizePolicy_scaledBy policy hG1 hempty (hlength' ▸ hmin) (hhonest.initial.trans hinitial.symm) htip

namespace CeremonySample

def key : ProvingKey Fr Fr where
  vk := ⟨scalar 11, scalar 13, scalar 17, scalar 5, [scalar 19]⟩
  betaG1 := scalar 23
  deltaG1 := scalar 3
  aQuery := [scalar 29]
  bG1Query := [scalar 31]
  bG2Query := [scalar 37]
  hQuery := [scalar 41, scalar 43]
  lQuery := [scalar 47]

def call (deltaI nonce : Nat) : ContributeCall frModulus :=
  ⟨.transact, LittleEndian.vec 64 64, [1], "a contributor", scalar deltaI, scalar nonce⟩

def policy : FinalizePolicy := ⟨2, LittleEndian.vec 64 64, none⟩

end CeremonySample

open CeremonySample in
/-- Two contributors with the scalars 7 and 9. -/
theorem ceremony_complete_two_contributors :
    ∃ pk transcript, contributeAll suite key [call 7 100, call 9 200] = .ok (pk, some transcript) ∧
      verifyPhase2Transcript suite key transcript = .ok () ∧ verifyFinalPk suite key transcript pk = .ok () ∧
      verifyFinalPkConsistency suite key pk = .ok () ∧ pk.deltaG1 = scalar (63 * 3) ∧
      enforceFinalizePolicy suite policy (LittleEndian.vec 64 64) key pk transcript = .ok () := by
  obtain ⟨pk, transcript, hrun, htranscript, hfinal, hconsistent, hkey, hpolicy⟩ := ceremony_complete suite key
    (by decide +kernel) (by decide +kernel) (call 7 100) [call 9 200] (by decide +kernel)
  refine ⟨pk, transcript, hrun, htranscript, hfinal, hconsistent, ?_, ?_⟩
  · rw [hkey]
    decide +kernel
  · refine (hpolicy policy (by decide) rfl ?_).trans (if_neg (by decide +kernel))
    rintro pin ⟨⟩

end Paraloom.OffChain
