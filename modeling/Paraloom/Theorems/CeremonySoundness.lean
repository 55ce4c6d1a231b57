import Paraloom.Lemmas.Ceremony

/-!
# Soundness of the ceremony's checks

What the two randomized checks of the ceremony say about the points they accept: the proof of a contribution gives the scalar
that was applied to both deltas, and the combined check accepts a wrong query for few challenges.
-/

namespace Paraloom.OffChain

open LinearCheck CeremonyAux CeremonySample

variable {p : ℕ} [Fact p.Prime] {G1 G2 GT : Type} [AddCommGroup G1] [AddCommGroup G2] [AddCommGroup GT] [Module (ZMod p) G1]
  [Module (ZMod p) G2] [Module (ZMod p) GT]

/-- Two answers to one pair of commitments, under two challenges, show that both deltas were multiplied by one scalar that is not
zero. When they were multiplied by two scalars, only one challenge has an answer. -/
theorem contribution_special_sound [DecidableEq G1] [DecidableEq G2] (deltaBeforeG1 deltaAfterG1 rG1 : G1)
    (deltaBeforeG2 deltaAfterG2 rG2 : G2) (hbeforeG1 : deltaBeforeG1 ≠ 0) (hbeforeG2 : deltaBeforeG2 ≠ 0) :
    (∀ c c' s s' : ZMod p, c ≠ c' →
      verifyContributionDeltasAt c deltaBeforeG1 deltaAfterG1 deltaBeforeG2 deltaAfterG2 ⟨rG1, rG2, s⟩ = .ok () →
      verifyContributionDeltasAt c' deltaBeforeG1 deltaAfterG1 deltaBeforeG2 deltaAfterG2 ⟨rG1, rG2, s'⟩ = .ok () →
      deltaAfterG1 = ((s - s') / (c - c')) • deltaBeforeG1 ∧ deltaAfterG2 = ((s - s') / (c - c')) • deltaBeforeG2 ∧
        (s - s') / (c - c') ≠ 0) ∧
    ∀ a b : ZMod p, a ≠ b → deltaAfterG1 = a • deltaBeforeG1 → deltaAfterG2 = b • deltaBeforeG2 →
      {c : ZMod p | ∃ s, verifyContributionDeltasAt c deltaBeforeG1 deltaAfterG1 deltaBeforeG2 deltaAfterG2 ⟨rG1, rG2, s⟩ =
        .ok ()}.Subsingleton := by
  have hextract : ∀ c c' s s' : ZMod p, c ≠ c' →
      verifyContributionDeltasAt c deltaBeforeG1 deltaAfterG1 deltaBeforeG2 deltaAfterG2 ⟨rG1, rG2, s⟩ = .ok () →
      verifyContributionDeltasAt c' deltaBeforeG1 deltaAfterG1 deltaBeforeG2 deltaAfterG2 ⟨rG1, rG2, s'⟩ = .ok () →
      deltaAfterG1 = ((s - s') / (c - c')) • deltaBeforeG1 ∧ deltaAfterG2 = ((s - s') / (c - c')) • deltaBeforeG2 ∧
        (s - s') / (c - c') ≠ 0 := by
    intro c c' s s' hne h h'
    obtain ⟨⟨hafterG1, -⟩, hG1, hG2⟩ := verifyContributionDeltasAt_ok_iff.mp h
    obtain ⟨-, hG1', hG2'⟩ := verifyContributionDeltasAt_ok_iff.mp h'
    have himage := image_of_two_answers hne hG1 hG1'
    refine ⟨himage, image_of_two_answers hne hG2 hG2', ?_⟩
    intro hzero
    rw [hzero, zero_smul] at himage
    exact hafterG1 himage
  refine ⟨hextract, ?_⟩
  rintro a b hab hG1 hG2 c ⟨s, h⟩ c' ⟨s', h'⟩
  by_contra hne
  obtain ⟨hG1', hG2', -⟩ := hextract c c' s s' hne h h'
  have ha : a = (s - s') / (c - c') := smul_left_injective (ZMod p) hbeforeG1 (hG1.symm.trans hG1')
  have hb : b = (s - s') / (c - c') := smul_left_injective (ZMod p) hbeforeG2 (hG2.symm.trans hG2')
  exact hab (ha.trans hb.symm)

/-- The deltas 3 and 5 multiplied by 7, with the nonce 11 and two challenges; and multiplied by 7 and 8. -/
theorem contribution_special_sound_seven : verifyContributionDeltasAt (scalar 1) (scalar 3) (scalar 21) (scalar 5) (scalar 35)
      ⟨scalar 33, scalar 55, scalar 18⟩ = .ok () ∧
    verifyContributionDeltasAt (scalar 2) (scalar 3) (scalar 21) (scalar 5) (scalar 35)
      ⟨scalar 33, scalar 55, scalar 25⟩ = .ok () ∧
    scalar 21 = ((scalar 18 - scalar 25) / (scalar 1 - scalar 2)) • scalar 3 ∧
    scalar 35 = ((scalar 18 - scalar 25) / (scalar 1 - scalar 2)) • scalar 5 ∧
    {c : Fr | ∃ s, verifyContributionDeltasAt c (scalar 3) (scalar 21) (scalar 5) (scalar 40) ⟨scalar 33, scalar 55, s⟩ =
      .ok ()}.Subsingleton := by
  have h : verifyContributionDeltasAt (scalar 1) (scalar 3) (scalar 21) (scalar 5) (scalar 35)
      ⟨scalar 33, scalar 55, scalar 18⟩ = .ok () := by decide +kernel
  have h' : verifyContributionDeltasAt (scalar 2) (scalar 3) (scalar 21) (scalar 5) (scalar 35)
      ⟨scalar 33, scalar 55, scalar 25⟩ = .ok () := by decide +kernel
  have hone := contribution_special_sound (p := frModulus) (scalar 3) (scalar 21) (scalar 33) (scalar 5) (scalar 35) (scalar 55)
    (by decide +kernel) (by decide +kernel)
  have htwo := contribution_special_sound (p := frModulus) (scalar 3) (scalar 21) (scalar 33) (scalar 5) (scalar 40) (scalar 55)
    (by decide +kernel) (by decide +kernel)
  obtain ⟨hG1, hG2, -⟩ := hone.1 _ _ _ _ (by decide +kernel) h h'
  exact ⟨h, h', hG1, hG2, htwo.2 (scalar 7) (scalar 8) (by decide +kernel) (by decide +kernel) (by decide +kernel)⟩

/-- The combined check accepts under every challenge exactly when every element of the query is right. A query with a wrong
element is accepted under fewer challenges than it has elements. -/
theorem query_consistency_sound [DecidableEq GT] (C : PairingSuite p G1 G2 GT) (field : String) {n : ℕ}
    (initial final : List.Vector G1 n) (initialDeltaG2 finalDeltaG2 : G2) (hn : n < p) :
    ((∀ rho, checkQueryConsistencyAt C rho field initial.toList final.toList initialDeltaG2 finalDeltaG2 = .ok ()) ↔
      ∀ j, C.pairing (final.get j) finalDeltaG2 = C.pairing (initial.get j) initialDeltaG2) ∧
    ((∃ j, C.pairing (final.get j) finalDeltaG2 ≠ C.pairing (initial.get j) initialDeltaG2) →
      (Finset.univ.filter fun rho =>
        checkQueryConsistencyAt C rho field initial.toList final.toList initialDeltaG2 finalDeltaG2 = .ok ()).card ≤ n - 1) := by
  have hlength : final.toList.length = initial.toList.length := by
    rw [List.Vector.toList_length, List.Vector.toList_length]
  have hlength' : (discrepancies (C.pairing · initialDeltaG2) (C.pairing · finalDeltaG2) initial.toList final.toList).length = n := by
    simp [discrepancies]
  have hget : ∀ j : Fin n, (discrepancies (C.pairing · initialDeltaG2) (C.pairing · finalDeltaG2) initial.toList final.toList)[j.val]? =
      some (C.pairing (final.get j) finalDeltaG2 - C.pairing (initial.get j) initialDeltaG2) := by
    intro j
    simp [discrepancies, List.Vector.get_eq_get_toList]
  have hfew : (∃ j, C.pairing (final.get j) finalDeltaG2 ≠ C.pairing (initial.get j) initialDeltaG2) →
      (Finset.univ.filter fun rho =>
        checkQueryConsistencyAt C rho field initial.toList final.toList initialDeltaG2 finalDeltaG2 = .ok ()).card ≤ n - 1 := by
    rintro ⟨j, hj⟩
    have hcard := @card_powerSum_eq_zero_le (ZMod p) GT _ _ _ _ _ _
      (discrepancies (C.pairing · initialDeltaG2) (C.pairing · finalDeltaG2) initial.toList final.toList)
      ⟨_, List.mem_of_getElem? (hget j), sub_ne_zero.mpr hj⟩
    rw [hlength'] at hcard
    simp only [checkQueryConsistencyAt_ok_iff hlength]
    exact hcard
  refine ⟨⟨?_, ?_⟩, hfew⟩
  · intro hall j
    by_contra hj
    have hcard := hfew ⟨j, hj⟩
    rw [Finset.filter_true_of_mem fun rho _ => hall rho, Finset.card_univ, ZMod.card] at hcard
    omega
  · intro hall rho
    refine checkQueryConsistencyAt_of_forall₂ (List.forall₂_iff_get.mpr ⟨hlength, ?_⟩)
    intro j hfinal _
    exact hall ⟨j, by rwa [List.Vector.toList_length] at hfinal⟩

/-- Delta multiplied by 2. A query divided by 2 passes under every challenge, and one of which an element is not divided under at
most one. -/
theorem query_consistency_sound_two :
    (∀ rho, checkQueryConsistencyAt suite rho "h_query" [scalar 4, scalar 6] [scalar 2, scalar 3]
      (scalar 1) (scalar 2) = .ok ()) ∧
    (Finset.univ.filter fun rho => checkQueryConsistencyAt suite rho "h_query" [scalar 4, scalar 6] [scalar 2, scalar 6]
      (scalar 1) (scalar 2) = .ok ()).card ≤ 1 := by
  have htwo : 2 < frModulus := by decide
  constructor
  · refine (query_consistency_sound suite "h_query" ⟨[scalar 4, scalar 6], rfl⟩ ⟨[scalar 2, scalar 3], rfl⟩ (scalar 1)
      (scalar 2) htwo).1.mpr ?_
    decide +kernel
  · refine (query_consistency_sound suite "h_query" ⟨[scalar 4, scalar 6], rfl⟩ ⟨[scalar 2, scalar 6], rfl⟩ (scalar 1)
      (scalar 2) htwo).2 ⟨1, ?_⟩
    decide +kernel

end Paraloom.OffChain
