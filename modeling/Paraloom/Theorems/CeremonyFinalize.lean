import Paraloom.Lib.HashChain
import Paraloom.Theorems.Ceremony

/-!
# Finalizing the ceremony

What a transcript and a key that pass the policy and the three verifiers have to be, whoever made them: the key is the first key
multiplied by one scalar for each contribution, and the two pinned hashes leave no choice of the contributions.
-/

namespace Paraloom.OffChain

open LinearCheck Checked Except LittleEndian

variable [Fact p.Prime] {G1 G2 GT : Type} [AddCommGroup G1] [AddCommGroup G2] [AddCommGroup GT] [Module (ZMod p) G1]
  [Module (ZMod p) G2] [Module (ZMod p) GT]

/-- A contribution of a transcript as the verifier reads it: the deltas before and after it, and its proof. -/
def Phase2Transcript.Reads (C : PairingSuite p G1 G2 GT) (initialPk : ProvingKey G1 G2) (t : Phase2Transcript)
    (before after : G1 × G2) (proof : DleqProof p G1 G2) : Prop :=
  ∃ pre contribution post, t.contributions = pre ++ contribution :: post ∧
    { t with contributions := pre }.finalDeltas C initialPk = .ok before ∧
    contribution.deltas C pre.length = .ok after ∧ DleqProof.fromBytes C contribution.dleqProof = .ok proof

/-- The challenges that could hide that a contribution multiplied its two deltas by different scalars. -/
def DleqProof.hiding (before after : G1 × G2) (proof : DleqProof p G1 G2) : Set (ZMod p) :=
  hidingChallenges (ZMod p) before.1 after.1 proof.rG1 before.2 after.2 proof.rG2

/-- The challenges that could hide that some element of a query is wrong. -/
def queryExceptions [DecidableEq GT] (C : PairingSuite p G1 G2 GT) (initial final : List G1)
    (initialDeltaG2 finalDeltaG2 : G2) : Finset (ZMod p) :=
  exceptions (ZMod p) (CeremonyAux.discrepancies (C.pairWith initialDeltaG2) (C.pairWith finalDeltaG2) initial final)

namespace CeremonyAux

variable {C : PairingSuite p G1 G2 GT} {t : Phase2Transcript}
  {before after : G1 × G2} {d : ZMod p}

/-! ## The chain of deltas -/

/-- The position of a contribution shows in the errors only. -/
theorem deltas_ok_congr {contribution : Contribution} (h : contribution.deltas C i = .ok after) :
    contribution.deltas C j = .ok after := by
  obtain ⟨r1, hr1, h⟩ := seq_ok_iff.mp h
  obtain ⟨r2, hr2, h⟩ := seq_ok_iff.mp h
  refine Checked.seq_ok_iff.mpr ⟨r1, Checked.okOr_ok_iff.mpr (Checked.okOr_ok_iff.mp hr1), ?_⟩
  exact Checked.seq_ok_iff.mpr ⟨r2, Checked.okOr_ok_iff.mpr (Checked.okOr_ok_iff.mp hr2), h⟩

theorem mapErr_ok_iff : mapErr wrap x = .ok a ↔ x = .ok a := by
  cases x with
  | ok b => simp [mapErr]
  | error e => simp [mapErr]

variable [DecidableEq G1] [DecidableEq G2]

/-- What an accepted contribution says. -/
theorem transitionStep_ok (h : transitionStep C before (contribution, i) = .ok after) :
    contribution.deltas C i = .ok after ∧ ∃ proof, DleqProof.fromBytes C contribution.dleqProof = .ok proof ∧
      verifyContributionDeltas C before.1 after.1 before.2 after.2 proof = .ok () := by
  obtain ⟨deltas, hdeltas, h⟩ := seq_ok_iff.mp h
  obtain ⟨proof, hproof, h⟩ := seq_ok_iff.mp h
  obtain ⟨_, hverify, h⟩ := seq_ok_iff.mp h
  obtain rfl : deltas = after := ok.inj h
  exact ⟨hdeltas, proof, mapErr_ok_iff.mp hproof, mapErr_ok_iff.mp hverify⟩

/-- The verifier goes through these contributions and ends with these deltas. -/
def Walk (C : PairingSuite p G1 G2 GT) (initialPk : ProvingKey G1 G2) (pre : List Contribution) (after : G1 × G2) : Prop :=
  pre.zipIdx.foldlM (transitionStep C) (initialPk.deltaG1, initialPk.vk.deltaG2) = .ok after

theorem walk_append (h : Walk C initialPk (pre ++ post) after) : ∃ mid,
    Walk C initialPk pre mid ∧ (post.zipIdx pre.length).foldlM (transitionStep C) mid = .ok after := by
  rw [Walk, List.zipIdx_append, List.foldlM_append, Nat.zero_add] at h
  exact seq_ok_iff.mp h

theorem walk_snoc (h : Walk C initialPk (pre ++ [last]) after) :
    ∃ mid, Walk C initialPk pre mid ∧ transitionStep C mid (last, pre.length) = .ok after := by
  obtain ⟨mid, hwalk, h⟩ := walk_append h
  obtain ⟨deltas, hstep, h⟩ := seq_ok_iff.mp h
  obtain rfl : deltas = after := ok.inj h
  exact ⟨mid, hwalk, hstep⟩

theorem finalDeltas_of_walk (h : Walk C initialPk pre after) :
    { t with contributions := pre }.finalDeltas C initialPk = .ok after := by
  rcases List.eq_nil_or_concat pre with rfl | ⟨init, last, rfl⟩
  · exact h
  · rw [List.concat_eq_append] at h ⊢
    obtain ⟨mid, -, hstep⟩ := walk_snoc h
    rw [Phase2Transcript.finalDeltas]
    simp only [List.getLast?_concat]
    exact deltas_ok_congr (transitionStep_ok hstep).1

theorem nonzero_of_walk (hG1 : initialPk.deltaG1 ≠ 0) (hG2 : initialPk.vk.deltaG2 ≠ 0) (h : Walk C initialPk pre after) :
    after.1 ≠ 0 ∧ after.2 ≠ 0 := by
  rcases List.eq_nil_or_concat pre with rfl | ⟨init, last, rfl⟩
  · obtain rfl := ok.inj h
    exact ⟨hG1, hG2⟩
  · rw [List.concat_eq_append] at h
    obtain ⟨mid, -, hstep⟩ := walk_snoc h
    obtain ⟨-, proof, -, hverify⟩ := transitionStep_ok hstep
    exact (verifyContributionDeltasAt_ok_iff.mp hverify).1

theorem walk_of_reads (hwalk : Walk C initialPk t.contributions deltas) (h : t.Reads C initialPk before after proof) :
    ∃ pre : List Contribution, Walk C initialPk pre before := by
  obtain ⟨pre, contribution, post, hsplit, hbefore, -⟩ := h
  rw [hsplit] at hwalk
  obtain ⟨mid, hmid, -⟩ := walk_append hwalk
  have hfinal : { t with contributions := pre }.finalDeltas C initialPk = .ok mid := finalDeltas_of_walk hmid
  obtain rfl := ok.inj (hbefore.symm.trans hfinal)
  exact ⟨pre, hmid⟩

/-- Both deltas are those of the key multiplied by the scalars, none of which is zero. -/
structure ScaledDeltas (initialPk : ProvingKey G1 G2) (ds : List (ZMod p)) (deltas : G1 × G2) : Prop where
  nonzero : ∀ d ∈ ds, d ≠ 0
  deltaG1 : deltas.1 = ds.prod • initialPk.deltaG1
  deltaG2 : deltas.2 = ds.prod • initialPk.vk.deltaG2

omit [DecidableEq G1] [DecidableEq G2] in
theorem ScaledDeltas.prod_ne_zero {ds : List (ZMod p)} (h : ScaledDeltas initialPk ds after) : ds.prod ≠ 0 :=
  List.prod_ne_zero fun hzero => h.nonzero 0 hzero rfl

/-- The deltas that could not have been multiplied by different scalars unnoticed. -/
def ChallengesSound (C : PairingSuite p G1 G2 GT) (initialPk : ProvingKey G1 G2) (t : Phase2Transcript) : Prop :=
  ∀ before after proof, t.Reads C initialPk before after proof →
    fiatShamirChallenge C before.1 after.1 before.2 after.2 proof.rG1 proof.rG2 ∉ proof.hiding before after

theorem ScaledDeltas.step (hcardG1 : Nat.card G1 = p) (hcardG2 : Nat.card G2 = p) (hG1 : initialPk.deltaG1 ≠ 0)
    (hG2 : initialPk.vk.deltaG2 ≠ 0) {ds : List (ZMod p)} (h : ScaledDeltas initialPk ds before)
    (hverify : verifyContributionDeltas C before.1 after.1 before.2 after.2 proof = .ok ())
    (hsound : fiatShamirChallenge C before.1 after.1 before.2 after.2 proof.rG1 proof.rG2 ∉ proof.hiding before after) :
    ∃ d, ScaledDeltas initialPk (ds ++ [d]) after := by
  have hbefore1 : before.1 ≠ 0 := h.deltaG1 ▸ smul_ne_zero h.prod_ne_zero hG1
  have hbefore2 : before.2 ≠ 0 := h.deltaG2 ▸ smul_ne_zero h.prod_ne_zero hG2
  obtain ⟨⟨hafter1, -⟩, hanswer1, hanswer2⟩ := verifyContributionDeltasAt_ok_iff.mp hverify
  have hfield : Nat.card (ZMod p) = p := Nat.card_zmod p
  obtain ⟨d, hd1, hd2⟩ := same_multiple_of_answer (hcardG1.trans hfield.symm) (hcardG2.trans hfield.symm) hbefore1 hbefore2
    hanswer1 hanswer2 hsound
  refine ⟨d, ⟨?_, ?_, ?_⟩⟩
  · intro e he
    rcases List.mem_append.mp he with he | he
    · exact h.nonzero e he
    · rintro rfl
      rw [← List.mem_singleton.mp he, zero_smul] at hd1
      exact hafter1 hd1
  · rw [List.prod_append, List.prod_singleton, mul_comm, mul_smul, ← h.deltaG1, hd1]
  · rw [List.prod_append, List.prod_singleton, mul_comm, mul_smul, ← h.deltaG2, hd2]

/-- An accepted transcript: one scalar for each contribution. -/
theorem scaledDeltas_of_walk (hcardG1 : Nat.card G1 = p) (hcardG2 : Nat.card G2 = p) (hG1 : initialPk.deltaG1 ≠ 0)
    (hG2 : initialPk.vk.deltaG2 ≠ 0) (hsound : ChallengesSound C initialPk t) {post : List Contribution}
    (hsplit : t.contributions = pre ++ post) (h : Walk C initialPk pre after) :
    ∃ ds : List (ZMod p), ds.length = pre.length ∧ ScaledDeltas initialPk ds after := by
  induction pre using List.reverseRecOn generalizing post after with
  | nil =>
    obtain rfl := ok.inj h
    refine ⟨[], rfl, ⟨?_, ?_, ?_⟩⟩
    · intro d hd
      cases hd
    · rw [List.prod_nil, one_smul]
    · rw [List.prod_nil, one_smul]
  | append_singleton pre contribution ih =>
    obtain ⟨mid, hwalk, hstep⟩ := walk_snoc h
    rw [List.append_assoc] at hsplit
    obtain ⟨ds, hlength, hscaled⟩ := ih hsplit hwalk
    obtain ⟨hdeltas, proof, hproof, hverify⟩ := transitionStep_ok hstep
    have hreads : t.Reads C initialPk mid after proof :=
      ⟨pre, contribution, post, hsplit, finalDeltas_of_walk hwalk, deltas_ok_congr hdeltas, hproof⟩
    obtain ⟨d, hd⟩ := hscaled.step hcardG1 hcardG2 hG1 hG2 hverify (hsound _ _ _ hreads)
    exact ⟨ds ++ [d], by rw [List.length_append, List.length_append, hlength]; rfl, hd⟩

theorem verifyPhase2Transcript_ok (h : verifyPhase2Transcript C initialPk t = .ok ()) :
    t.verifyChain C.sha512 = .ok () ∧ ∃ deltas, Walk C initialPk t.contributions deltas := by
  obtain ⟨_, hchain, h⟩ := seq_ok_iff.mp h
  obtain ⟨deltas, hwalk, -⟩ := seq_ok_iff.mp h
  exact ⟨mapErr_ok_iff.mp hchain, deltas, hwalk⟩

theorem verifyFinalPk_ok (h : verifyFinalPk C initialPk t finalPk = .ok ()) :
    t.finalDeltas C initialPk = .ok (finalPk.deltaG1, finalPk.vk.deltaG2) := by
  obtain ⟨expected, hexpected, h⟩ := seq_ok_iff.mp h
  have hdeltas := Checked.require_ok_iff.mp h
  rw [not_or, not_not, not_not] at hdeltas
  rw [hexpected, hdeltas.1, hdeltas.2]

/-- A policy that accepts: there is a contribution, and one of the deltas has changed. -/
theorem enforceFinalizePolicy_ok (h : enforceFinalizePolicy C policy fileHash initialPk finalPk t = .ok ()) :
    ∃ tip, t.contributions.getLast? = some tip ∧ t.initialSrsHash = policy.initialSrsHash ∧
      ¬(finalPk.deltaG1 = initialPk.deltaG1 ∧ finalPk.vk.deltaG2 = initialPk.vk.deltaG2) ∧
      ∀ pin ∈ policy.finalContributionHash, hashContribution C.sha512 tip = pin := by
  unfold enforceFinalizePolicy at h
  cases htip : t.contributions.getLast? with
  | none =>
    rw [htip] at h
    cases h
  | some tip =>
    rw [htip] at h
    simp only [Checked.seq_ok_iff, Checked.require_ok_iff, exists_const] at h
    obtain ⟨-, hinitial, -, hchanged, hpin⟩ := h
    refine ⟨tip, rfl, hinitial, hchanged, ?_⟩
    rintro pin hmem
    rw [Option.mem_def.mp hmem] at hpin
    exact Checked.require_ok_iff.mp hpin

/-! ## The rest of the key -/

omit [DecidableEq G1] [DecidableEq G2] in
theorem eq_zero_of_pairing_eq_zero (hcardG1 : Nat.card G1 = p) (hcardG2 : Nat.card G2 = p) (hpairing : ∃ a b, C.pairing a b ≠ 0)
    (h : C.pairing a b = 0) : a = 0 ∨ b = 0 := by
  by_contra hne
  obtain ⟨ha, hb⟩ := not_or.mp hne
  obtain ⟨a', b', hpair⟩ := hpairing
  have hfield : Nat.card (ZMod p) = p := Nat.card_zmod p
  obtain ⟨x, rfl⟩ := exists_smul_eq (hcardG1.trans hfield.symm) ha a'
  obtain ⟨y, rfl⟩ := exists_smul_eq (hcardG2.trans hfield.symm) hb b'
  rw [map_smul, map_smul, LinearMap.smul_apply, h, smul_zero, smul_zero] at hpair
  exact hpair rfl

variable [DecidableEq GT]

omit [DecidableEq G1] [DecidableEq G2] in
/-- A query has fewer such challenges than elements. -/
theorem card_queryExceptions_le : (queryExceptions C initial final initialDeltaG2 finalDeltaG2).card ≤ initial.length - 1 := by
  refine (card_exceptions_le _).trans (Nat.sub_le_sub_right ?_ 1)
  rw [discrepancies, List.length_zipWith, List.length_map, List.length_map]
  exact Nat.min_le_right ..

omit [DecidableEq G1] [DecidableEq G2] in
theorem queryExceptions_scaled (query : List G1) (delta : G2) (hd : d ≠ 0) :
    queryExceptions C query (query.map (d⁻¹ • ·)) delta (d • delta) = ∅ := by
  refine exceptions_of_zero ?_
  intro v hv
  rw [discrepancies, List.map_map, List.zipWith_map, List.zipWith_self, List.mem_map] at hv
  obtain ⟨point, -, rfl⟩ := hv
  rw [Function.comp_apply, PairingSuite.pairWith, PairingSuite.pairWith, map_smul, map_smul, LinearMap.smul_apply, smul_smul,
    mul_inv_cancel₀ hd, one_smul, sub_self]

omit [DecidableEq G1] [DecidableEq G2] in
/-- A query that passes under a challenge that hides nothing was divided by what the delta was multiplied by. -/
theorem query_eq_of_check (hpairing : ∀ {a b}, C.pairing a b = 0 → a = 0 ∨ b = 0) (hdelta : initialDeltaG2 ≠ 0) (hd : d ≠ 0)
    (hlength : final.length = initial.length)
    (h : checkQueryConsistency C field initial final initialDeltaG2 (d • initialDeltaG2) = .ok ())
    (hrho : fiatShamirRho C field initial final initialDeltaG2 (d • initialDeltaG2) ∉
      queryExceptions C initial final initialDeltaG2 (d • initialDeltaG2)) : final = initial.map (d⁻¹ • ·) := by
  have hzero := eq_zero_of_powerSum_eq_zero ((checkQueryConsistencyAt_ok_iff hlength).mp h) hrho
  refine List.ext_getElem (by rw [hlength, List.length_map]) ?_
  intro j hj hj'
  rw [List.length_map] at hj'
  have hmem : C.pairing final[j] (d • initialDeltaG2) - C.pairing initial[j] initialDeltaG2 ∈
      discrepancies (C.pairing · initialDeltaG2) (C.pairing · (d • initialDeltaG2)) initial final := by
    have hget : (discrepancies (C.pairing · initialDeltaG2) (C.pairing · (d • initialDeltaG2)) initial final)[j]? =
        some (C.pairing final[j] (d • initialDeltaG2) - C.pairing initial[j] initialDeltaG2) := by
      simp [discrepancies, hj, hj']
    exact List.mem_of_getElem? hget
  have hpair : C.pairing (d • final[j] - initial[j]) initialDeltaG2 = 0 := by
    rw [map_sub, LinearMap.sub_apply, map_smul, LinearMap.smul_apply, ← map_smul]
    exact hzero _ hmem
  have hpoint := sub_eq_zero.mp ((hpairing hpair).resolve_right hdelta)
  rw [List.getElem_map, ← hpoint, smul_smul, inv_mul_cancel₀ hd, one_smul]

/-- The key with these deltas, whose other fields pass. -/
theorem eq_scaledBy_of_consistent (hpairing : ∀ {a b}, C.pairing a b = 0 → a = 0 ∨ b = 0) (hG2 : initialPk.vk.deltaG2 ≠ 0)
    (hd : d ≠ 0) (hdeltaG1 : finalPk.deltaG1 = d • initialPk.deltaG1) (hdeltaG2 : finalPk.vk.deltaG2 = d • initialPk.vk.deltaG2)
    (h : verifyFinalPkConsistency C initialPk finalPk = .ok ())
    (hh : fiatShamirRho C "h_query" initialPk.hQuery finalPk.hQuery initialPk.vk.deltaG2 finalPk.vk.deltaG2 ∉
      queryExceptions C initialPk.hQuery finalPk.hQuery initialPk.vk.deltaG2 finalPk.vk.deltaG2)
    (hl : fiatShamirRho C "l_query" initialPk.lQuery finalPk.lQuery initialPk.vk.deltaG2 finalPk.vk.deltaG2 ∉
      queryExceptions C initialPk.lQuery finalPk.lQuery initialPk.vk.deltaG2 finalPk.vk.deltaG2) :
    finalPk = initialPk.scaledBy d := by
  unfold verifyFinalPkConsistency at h
  simp only [Checked.seq_ok_iff, Checked.require_ok_iff, exists_const] at h
  obtain ⟨halpha, hbeta, hgamma, habc, hbetaG1, ha, hbG1, hbG2, hlengthH, hlengthL, _, hcheckH, hcheckL⟩ := h
  rw [hdeltaG2] at hh hl hcheckH hcheckL
  have hquery := query_eq_of_check hpairing hG2 hd hlengthH hcheckH hh
  have lquery := query_eq_of_check hpairing hG2 hd hlengthL hcheckL hl
  obtain ⟨⟨alphaG1, betaG2, gammaG2, deltaG2, gammaAbcG1⟩, betaG1, deltaG1, aQuery, bG1Query, bG2Query, hQuery, lQuery⟩ := finalPk
  simp only at halpha hbeta hgamma habc hbetaG1 ha hbG1 hbG2 hdeltaG1 hdeltaG2 hquery lquery
  subst halpha hbeta hgamma habc hbetaG1 ha hbG1 hbG2 hdeltaG1 hdeltaG2 hquery lquery
  rfl

end CeremonyAux

open CeremonyAux in
/-- Two groups of prime order and a pairing that is not zero everywhere. If the policy and the three verifiers accept a
transcript and a key, then unless a challenge is the one that can hide unequal scalars of a contribution, or one of the few
that can hide a wrong element of a query, the key is the initial key multiplied by the product of one scalar for each
contribution. None of them is zero and the product is not one. -/
theorem finalize_promotes_rescaling [DecidableEq G1] [DecidableEq G2] [DecidableEq GT] (C : PairingSuite p G1 G2 GT)
    (hcardG1 : Nat.card G1 = p) (hcardG2 : Nat.card G2 = p) (hpairing : ∃ a b, C.pairing a b ≠ 0)
    (policy : FinalizePolicy) (initialPkFileHash : TranscriptHash) (initialPk ceremonyPk : ProvingKey G1 G2)
    (transcript : Phase2Transcript) (hG1 : initialPk.deltaG1 ≠ 0) (hG2 : initialPk.vk.deltaG2 ≠ 0)
    (hpolicy : enforceFinalizePolicy C policy initialPkFileHash initialPk ceremonyPk transcript = .ok ())
    (htranscript : verifyPhase2Transcript C initialPk transcript = .ok ())
    (hfinal : verifyFinalPk C initialPk transcript ceremonyPk = .ok ())
    (hconsistent : verifyFinalPkConsistency C initialPk ceremonyPk = .ok ()) :
    (∀ before after proof, transcript.Reads C initialPk before after proof → (proof.hiding before after).Subsingleton) ∧
    (queryExceptions C initialPk.hQuery ceremonyPk.hQuery initialPk.vk.deltaG2 ceremonyPk.vk.deltaG2).card ≤
      initialPk.hQuery.length - 1 ∧
    (queryExceptions C initialPk.lQuery ceremonyPk.lQuery initialPk.vk.deltaG2 ceremonyPk.vk.deltaG2).card ≤
      initialPk.lQuery.length - 1 ∧
    ((∀ before after proof, transcript.Reads C initialPk before after proof →
        fiatShamirChallenge C before.1 after.1 before.2 after.2 proof.rG1 proof.rG2 ∉ proof.hiding before after) →
      fiatShamirRho C "h_query" initialPk.hQuery ceremonyPk.hQuery initialPk.vk.deltaG2 ceremonyPk.vk.deltaG2 ∉
        queryExceptions C initialPk.hQuery ceremonyPk.hQuery initialPk.vk.deltaG2 ceremonyPk.vk.deltaG2 →
      fiatShamirRho C "l_query" initialPk.lQuery ceremonyPk.lQuery initialPk.vk.deltaG2 ceremonyPk.vk.deltaG2 ∉
        queryExceptions C initialPk.lQuery ceremonyPk.lQuery initialPk.vk.deltaG2 ceremonyPk.vk.deltaG2 →
      ∃ ds : List (ZMod p), ds.length = transcript.contributions.length ∧ (∀ d ∈ ds, d ≠ 0) ∧ ds.prod ≠ 0 ∧ ds.prod ≠ 1 ∧
        ceremonyPk = initialPk.scaledBy ds.prod) := by
  obtain ⟨-, deltas, hwalk⟩ := verifyPhase2Transcript_ok htranscript
  refine ⟨?_, card_queryExceptions_le .., card_queryExceptions_le .., ?_⟩
  · intro before after proof hreads
    obtain ⟨pre, hpre⟩ := walk_of_reads hwalk hreads
    obtain ⟨hbefore1, hbefore2⟩ := nonzero_of_walk hG1 hG2 hpre
    exact hidingChallenges_subsingleton hbefore1 hbefore2
  · intro hsound hh hl
    obtain ⟨ds, hlength, hscaled⟩ := scaledDeltas_of_walk hcardG1 hcardG2 hG1 hG2 hsound (List.append_nil _).symm hwalk
    -- the key has the deltas that the walk ends on
    have hdeltas : deltas = (ceremonyPk.deltaG1, ceremonyPk.vk.deltaG2) :=
      ok.inj ((finalDeltas_of_walk hwalk).symm.trans (verifyFinalPk_ok hfinal))
    have hdeltaG1 : ceremonyPk.deltaG1 = ds.prod • initialPk.deltaG1 := by
      rw [← hscaled.deltaG1, hdeltas]
    have hdeltaG2 : ceremonyPk.vk.deltaG2 = ds.prod • initialPk.vk.deltaG2 := by
      rw [← hscaled.deltaG2, hdeltas]
    obtain ⟨-, -, -, hchanged, -⟩ := enforceFinalizePolicy_ok hpolicy
    refine ⟨ds, hlength, hscaled.nonzero, hscaled.prod_ne_zero, ?_, ?_⟩
    · intro hone
      rw [hone, one_smul] at hdeltaG1 hdeltaG2
      exact hchanged ⟨hdeltaG1, hdeltaG2⟩
    · exact eq_scaledBy_of_consistent (eq_zero_of_pairing_eq_zero hcardG1 hcardG2 hpairing) hG2 hscaled.prod_ne_zero hdeltaG1
        hdeltaG2 hconsistent hh hl

namespace CeremonySample

/-- The transcript of the first of two contributors, with the scalar 7. -/
def oneContribution : Phase2Transcript :=
  let start := Phase2Transcript.new .transact (LittleEndian.vec 64 64)
  { start with contributions := start.contributions ++ [CeremonyAux.contributionOf suite key start (call 7 100)] }

theorem honest_oneContribution : CeremonyAux.Honest suite key (vec 64 64) (1 * (call 7 100).deltaI)
    (key.scaledBy (call 7 100).deltaI) oneContribution :=
  (CeremonyAux.honest_new .transact).step one_ne_zero (by decide +kernel) (by decide +kernel) (call 7 100) (by decide +kernel)

/-- A contributor that follows the protocol leaves no challenge that hides anything. -/
theorem hiding_oneContribution (h : oneContribution.Reads suite key before after proof) : proof.hiding before after = ∅ := by
  obtain ⟨pre, contribution, post, hsplit, hbefore, hafter, -⟩ := h
  obtain ⟨rfl, hcontribution, -⟩ : pre = [] ∧ CeremonyAux.contributionOf suite key _ (call 7 100) = contribution ∧ [] = post := by
    cases pre with
    | nil => exact ⟨rfl, List.cons.inj hsplit⟩
    | cons x pre => simp [oneContribution, Phase2Transcript.new] at hsplit
  subst hcontribution
  obtain rfl := ok.inj hbefore
  obtain rfl := ok.inj ((CeremonyAux.deltas_contributionOf _ _).symm.trans hafter)
  exact LinearCheck.hidingChallenges_of_same (by decide +kernel) (by decide +kernel) _

end CeremonySample

open CeremonySample CeremonyAux in
/-- One contributor with the scalar 7. -/
theorem finalize_promotes_rescaling_seven : ∃ ds : List Fr, ds.length = 1 ∧ (∀ d ∈ ds, d ≠ 0) ∧ ds.prod ≠ 0 ∧ ds.prod ≠ 1 ∧
      key.scaledBy (scalar 7) = key.scaledBy ds.prod := by
  have hhonest := honest_oneContribution
  have hseven : (call 7 100).deltaI ≠ 0 := by decide +kernel
  have hne : oneContribution.contributions ≠ [] := List.cons_ne_nil _ _
  have hpolicy : enforceFinalizePolicy suite ⟨1, LittleEndian.vec 64 64, none⟩ (LittleEndian.vec 64 64) key
      (key.scaledBy (call 7 100).deltaI) oneContribution = .ok () :=
    (enforceFinalizePolicy_scaledBy ⟨1, LittleEndian.vec 64 64, none⟩ (by decide +kernel) hne (Nat.le_refl 1) rfl
      nofun).trans (if_neg (by decide +kernel))
  obtain ⟨-, -, -, hscaled⟩ := finalize_promotes_rescaling suite (Nat.card_zmod frModulus) (Nat.card_zmod frModulus)
    ⟨1, 1, by decide +kernel⟩ ⟨1, LittleEndian.vec 64 64, none⟩ (LittleEndian.vec 64 64) key (key.scaledBy (call 7 100).deltaI)
    oneContribution (by decide +kernel) (by decide +kernel) hpolicy hhonest.verifyPhase2Transcript_ok
    (hhonest.verifyFinalPk_ok hne) (verifyFinalPkConsistency_scaledBy key hseven)
  refine hscaled ?_ ?_ ?_
  · intro before after proof hreads
    rw [hiding_oneContribution hreads]
    exact Set.notMem_empty _
  · exact queryExceptions_scaled (C := suite) key.hQuery key.vk.deltaG2 hseven ▸ Finset.notMem_empty _
  · exact queryExceptions_scaled (C := suite) key.lQuery key.vk.deltaG2 hseven ▸ Finset.notMem_empty _

/-! ## The pins -/

/-- The byte strings of a contribution are no longer than a length in eight bytes can say. -/
structure Contribution.Fits (c : Contribution) : Prop where
  contributor : c.contributor.length < 2 ^ 64
  deltaAfterG1 : c.deltaAfterG1.length < 2 ^ 64
  deltaAfterG2 : c.deltaAfterG2.length < 2 ^ 64
  dleqProof : c.dleqProof.length < 2 ^ 64
  contributorPubkey : c.contributorPubkey.length < 2 ^ 64
  signature : c.signature.length < 2 ^ 64
  attestation : (utf8 c.attestation).length < 2 ^ 64

namespace CeremonyAux

theorem bincodeBytes_append_inj (ha : a.length < 2 ^ 64) (hb : b.length < 2 ^ 64)
    (h : bincodeBytes a ++ rest = bincodeBytes b ++ rest') : a = b ∧ rest = rest' := by
  rw [bincodeBytes, bincodeBytes, List.append_assoc, List.append_assoc] at h
  exact length_append_inj ha hb h

/-- The serialization loses nothing of a contribution. -/
theorem serialize_injOn : Set.InjOn Contribution.serialize {c | c.Fits} := by
  intro c hc c' hc' h
  have hprior : ∀ hash : TranscriptHash, hash.toList.length < 2 ^ 64 := by
    intro hash
    rw [List.Vector.toList_length]
    decide
  simp only [Contribution.serialize, List.append_assoc] at h
  obtain ⟨hpriorHash, h⟩ := bincodeBytes_append_inj (hprior _) (hprior _) h
  obtain ⟨hcontributor, h⟩ := bincodeBytes_append_inj hc.contributor hc'.contributor h
  obtain ⟨hdeltaG1, h⟩ := bincodeBytes_append_inj hc.deltaAfterG1 hc'.deltaAfterG1 h
  obtain ⟨hdeltaG2, h⟩ := bincodeBytes_append_inj hc.deltaAfterG2 hc'.deltaAfterG2 h
  obtain ⟨hproof, h⟩ := bincodeBytes_append_inj hc.dleqProof hc'.dleqProof h
  obtain ⟨hpubkey, h⟩ := bincodeBytes_append_inj hc.contributorPubkey hc'.contributorPubkey h
  obtain ⟨hsignature, h⟩ := bincodeBytes_append_inj hc.signature hc'.signature h
  rw [← List.append_nil (bincodeBytes (utf8 c.attestation)), ← List.append_nil (bincodeBytes (utf8 c'.attestation))] at h
  obtain ⟨hattestation, -⟩ := bincodeBytes_append_inj hc.attestation hc'.attestation h
  have htext : c.attestation = c'.attestation := by
    rw [← String.toByteArray_inj]
    exact ByteArray.ext (Array.toList_inj.mp hattestation)
  obtain ⟨priorHash, _, _, _, _, _, _, _⟩ := c
  obtain ⟨priorHash', _, _, _, _, _, _, _⟩ := c'
  obtain rfl : priorHash = priorHash' := List.Vector.toList_injective hpriorHash
  simp_all

/-- The walk of `verify_chain` is a chain of hashes. -/
theorem linked_of_walk (h : (contributions.zipIdx i).foldlM (Phase2Transcript.chainStep sha512) start = .ok tip) :
    HashChain.Linked Contribution.priorHash (hashContribution sha512) start contributions tip := by
  induction contributions generalizing start i with
  | nil => exact (ok.inj h).symm
  | cons contribution contributions ih =>
    rw [List.zipIdx_cons, List.foldlM_cons] at h
    obtain ⟨next, hstep, h⟩ := seq_ok_iff.mp h
    obtain ⟨_, hprior, hnext⟩ := seq_ok_iff.mp hstep
    obtain rfl := ok.inj hnext
    exact ⟨Checked.require_ok_iff.mp hprior, ih h⟩

theorem linked_of_verifyChain {t : Phase2Transcript} (h : t.verifyChain sha512 = .ok ())
    (htip : t.contributions.getLast? = some tip) :
    HashChain.Linked Contribution.priorHash (hashContribution sha512) t.initialSrsHash t.contributions
      (hashContribution sha512 tip) := by
  obtain ⟨last, hwalk, -⟩ := seq_ok_iff.mp h
  have hlinked := linked_of_walk hwalk
  obtain ⟨init, hsplit⟩ := List.getLast?_eq_some_iff.mp htip
  rw [hsplit] at hlinked ⊢
  rwa [(HashChain.linked_concat.mp hlinked).2] at hlinked

end CeremonyAux

open CeremonyAux

/-- Two transcripts that are chained and pass policies with the same two pins hold the same contributions, if no two of these
collide in their hash or in their serialization and none hashes to the initial pin. The keys that they lead to then have the
same deltas. -/
theorem pins_determine_transcript [DecidableEq G1] [DecidableEq G2] (C : PairingSuite p G1 G2 GT)
    (policy policy' : FinalizePolicy) (tail : TranscriptHash) (hinitial : policy.initialSrsHash = policy'.initialSrsHash)
    (htail : policy.finalContributionHash = some tail) (htail' : policy'.finalContributionHash = some tail)
    (fileHash fileHash' : TranscriptHash) (initialPk initialPk' finalPk finalPk' : ProvingKey G1 G2)
    (transcript transcript' : Phase2Transcript)
    (hcollision : ∀ c ∈ transcript.contributions ++ transcript'.contributions,
      ∀ c' ∈ transcript.contributions ++ transcript'.contributions,
        hashContribution C.sha512 c = hashContribution C.sha512 c' → c.serialize = c'.serialize)
    (hserialize : Set.InjOn Contribution.serialize {c | c ∈ transcript.contributions ++ transcript'.contributions})
    (hstart : ∀ c ∈ transcript.contributions ++ transcript'.contributions, hashContribution C.sha512 c ≠ policy.initialSrsHash)
    (hchain : transcript.verifyChain C.sha512 = .ok ()) (hchain' : transcript'.verifyChain C.sha512 = .ok ())
    (hpolicy : enforceFinalizePolicy C policy fileHash initialPk finalPk transcript = .ok ())
    (hpolicy' : enforceFinalizePolicy C policy' fileHash' initialPk' finalPk' transcript' = .ok ()) :
    transcript.contributions = transcript'.contributions ∧
      (verifyFinalPk C initialPk transcript finalPk = .ok () → verifyFinalPk C initialPk' transcript' finalPk' = .ok () →
        finalPk.deltaG1 = finalPk'.deltaG1 ∧ finalPk.vk.deltaG2 = finalPk'.vk.deltaG2) := by
  obtain ⟨tip, htip, hsrs, -, hpin⟩ := enforceFinalizePolicy_ok hpolicy
  obtain ⟨tip', htip', hsrs', -, hpin'⟩ := enforceFinalizePolicy_ok hpolicy'
  have hlinked := linked_of_verifyChain hchain htip
  have hlinked' := linked_of_verifyChain hchain' htip'
  rw [hsrs, hpin tail htail] at hlinked
  rw [hsrs', ← hinitial, hpin' tail htail'] at hlinked'
  have hinj : Set.InjOn (hashContribution C.sha512) {c | c ∈ transcript.contributions ++ transcript'.contributions} :=
    fun c hc c' hc' h => hserialize hc hc' (hcollision c hc c' hc' h)
  have heq : transcript.contributions = transcript'.contributions :=
    HashChain.eq_of_linked hinj hstart (fun c hc => List.mem_append_left _ hc) (fun c hc => List.mem_append_right _ hc)
      hlinked hlinked'
  refine ⟨heq, ?_⟩
  intro hfinal hfinal'
  have hdeltas := verifyFinalPk_ok hfinal
  have hdeltas' := verifyFinalPk_ok hfinal'
  rw [Phase2Transcript.finalDeltas, htip] at hdeltas
  rw [Phase2Transcript.finalDeltas, ← heq, htip] at hdeltas'
  simpa using ok.inj (hdeltas.symm.trans hdeltas')

namespace CeremonySample

def contribution : Contribution :=
  contributionOf suite key (.new .transact (LittleEndian.vec 64 64)) (call 7 100)

def pinned (minContributions : Nat) : FinalizePolicy :=
  ⟨minContributions, LittleEndian.vec 64 64, some (hashContribution suite.sha512 contribution)⟩

def otherCircuit : Phase2Transcript := { oneContribution with circuit := .deposit }

end CeremonySample

open CeremonySample CeremonyAux in
/-- The theorem for two transcripts with the contribution of the first contributor. -/
theorem pins_determine_transcript_seven :
    enforceFinalizePolicy suite (pinned 0) (LittleEndian.vec 64 64) key (key.scaledBy (scalar 7)) oneContribution = .ok () ∧
    enforceFinalizePolicy suite (pinned 1) (LittleEndian.vec 64 64) key (key.scaledBy (scalar 7)) otherCircuit = .ok () ∧
    oneContribution.contributions = otherCircuit.contributions := by
  have hpolicy : ∀ min ≤ 1, ∀ t : Phase2Transcript, t.contributions = [contribution] →
      t.initialSrsHash = LittleEndian.vec 64 64 →
      enforceFinalizePolicy suite (pinned min) (LittleEndian.vec 64 64) key (key.scaledBy (scalar 7)) t = .ok () := by
    intro min hmin t ht hinitial
    refine (enforceFinalizePolicy_scaledBy (pinned min) (by decide +kernel) ?_ ?_ hinitial ?_).trans
      (if_neg (by decide +kernel))
    · rw [ht]
      exact List.cons_ne_nil _ _
    · rw [ht]
      exact hmin
    · rintro pin ⟨⟩
      exact ⟨contribution, by rw [ht]; rfl, rfl⟩
  have hone := hpolicy 0 (Nat.zero_le 1) oneContribution rfl rfl
  have hother := hpolicy 1 (Nat.le_refl 1) otherCircuit rfl rfl
  have hmem : ∀ c ∈ oneContribution.contributions ++ otherCircuit.contributions, c = contribution := by
    intro c hc
    simpa [oneContribution, otherCircuit, contribution, Phase2Transcript.new] using hc
  have hchain : oneContribution.verifyChain suite.sha512 = .ok () :=
    (verifyPhase2Transcript_ok honest_oneContribution.verifyPhase2Transcript_ok).1
  refine ⟨hone, hother, (pins_determine_transcript suite (pinned 0) (pinned 1) _ rfl rfl rfl _ _ key key _ _ oneContribution
    otherCircuit ?_ ?_ ?_ hchain hchain hone hother).1⟩
  · intro c hc c' hc' _
    rw [hmem c hc, hmem c' hc']
  · have hfits : contribution.Fits := by
      constructor
      all_goals decide +kernel
    exact serialize_injOn.mono fun c hc => (hmem c hc).symm ▸ hfits
  · intro c hc
    rw [hmem c hc]
    decide +kernel

end Paraloom.OffChain
