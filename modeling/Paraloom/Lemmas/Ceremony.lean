import Paraloom.Lib.LinearCheck
import Paraloom.OffChain.Ceremony

/-!
# What the checks of the ceremony accept
-/

namespace Paraloom.OffChain

open LinearCheck List

namespace CeremonyAux

variable [Fact p.Prime] {G1 G2 GT : Type} [AddCommGroup G1] [AddCommGroup G2] [AddCommGroup GT] [Module (ZMod p) G1]
  [Module (ZMod p) G2] [Module (ZMod p) GT] {C : PairingSuite p G1 G2 GT}

/-! ## The proof of a contribution -/

theorem fromBytes_toBytes (proof : DleqProof p G1 G2) : DleqProof.fromBytes C (proof.toBytes C) = .ok proof := by
  rw [DleqProof.fromBytes, DleqProof.toBytes, append_assoc]
  refine Checked.seq_ok_iff.mpr ⟨_, Checked.okOr_ok_iff.mpr (C.g1.read_encode_append ..), ?_⟩
  refine Checked.seq_ok_iff.mpr ⟨_, Checked.okOr_ok_iff.mpr (C.g2.read_encode_append ..), ?_⟩
  refine Checked.seq_ok_iff.mpr ⟨_, Checked.okOr_ok_iff.mpr (C.fr.read_encode _), ?_⟩
  exact Checked.seq_ok_iff.mpr ⟨(), Checked.require_ok_iff.mpr rfl, rfl⟩

theorem verifyContributionDeltasAt_ok_iff [DecidableEq G1] [DecidableEq G2] {proof : DleqProof p G1 G2} :
    verifyContributionDeltasAt c deltaBeforeG1 deltaAfterG1 deltaBeforeG2 deltaAfterG2 proof = .ok () ↔
      (deltaAfterG1 ≠ 0 ∧ deltaAfterG2 ≠ 0) ∧ proof.s • deltaBeforeG1 = proof.rG1 + c • deltaAfterG1 ∧
        proof.s • deltaBeforeG2 = proof.rG2 + c • deltaAfterG2 := by
  simp only [verifyContributionDeltasAt, Checked.seq_ok_iff, Checked.require_ok_iff, not_or, exists_const]

/-! ## The combined check of a query -/

theorem sum_scalarPowersFrom (base : ZMod p) (points : List G1) :
    (zipWith (fun point scalar => scalar • point) points (scalarPowersFrom acc base points.length)).sum =
      acc • powerSum base points := by
  induction points generalizing acc with
  | nil => exact (smul_zero acc).symm
  | cons point points ih =>
    rw [length_cons, scalarPowersFrom, zipWith_cons_cons, sum_cons, ih, powerSum, smul_add, smul_smul]

theorem length_scalarPowersFrom (base : ZMod p) (n : Nat) : (scalarPowersFrom acc base n).length = n := by
  induction n generalizing acc with
  | zero => rfl
  | succ n ih => rw [scalarPowersFrom, length_cons, ih]

theorem msm_scalarPowers (base : ZMod p) {points : List G1} (h : points.length = n) :
    msm points (scalarPowers base n) = some (powerSum base points) := by
  subst h
  rw [msm, scalarPowers, length_scalarPowersFrom, if_pos rfl, sum_scalarPowersFrom, one_smul]

/-- By how much two maps differ, place by place. -/
def discrepancies (before after : G1 → GT) (initial final : List G1) : List GT :=
  zipWith (· - ·) (final.map after) (initial.map before)

variable [DecidableEq GT]


theorem checkQueryConsistencyAt_ok_iff (h : final.length = initial.length) :
    checkQueryConsistencyAt C rho field initial final initialDeltaG2 finalDeltaG2 = .ok () ↔
      powerSum rho (discrepancies (C.pairing · initialDeltaG2) (C.pairing · finalDeltaG2) initial final) = 0 := by
  have hpairings : C.pairing (powerSum rho final) finalDeltaG2 = C.pairing (powerSum rho initial) initialDeltaG2 ↔
      powerSum rho (discrepancies (C.pairing · initialDeltaG2) (C.pairing · finalDeltaG2) initial final) = 0 := by
    have hpair : ∀ (points : List G1) (delta : G2),
        C.pairing (powerSum rho points) delta = powerSum rho (points.map (C.pairing · delta)) :=
      fun points delta => map_powerSum (C.pairing.flip delta) rho points
    rw [discrepancies, ← powerSum_sub rho (by rw [length_map, length_map, h]), hpair, hpair, sub_eq_zero]
  rw [← hpairings]
  unfold checkQueryConsistencyAt
  split
  · rename_i hempty
    subst hempty
    obtain rfl := length_eq_zero_iff.mp h
    exact iff_of_true rfl (by simp [powerSum])
  · dsimp only
    rw [msm_scalarPowers rho h, msm_scalarPowers rho rfl]
    exact Checked.require_ok_iff

/-- Queries without a discrepancy pass under every challenge. -/
theorem checkQueryConsistencyAt_of_forall₂ (h : List.Forall₂ (fun f i => C.pairing f finalDeltaG2 = C.pairing i initialDeltaG2)
    final initial) : checkQueryConsistencyAt C rho field initial final initialDeltaG2 finalDeltaG2 = .ok () := by
  rw [checkQueryConsistencyAt_ok_iff h.length_eq]
  refine powerSum_eq_zero ?_
  induction h with
  | nil => simp [discrepancies]
  | cons hhead _ ih =>
    intro v hv
    rcases mem_cons.mp hv with rfl | hv
    · exact sub_eq_zero.mpr hhead
    · exact ih v hv

end CeremonyAux

namespace CeremonySample

def scalarCodec : Codec Fr where
  width := 32
  encode x := (toBytesLe x).toList
  decode bytes := if h : bytes.length = 32 then some (fromLeBytesModOrder ⟨bytes, h⟩) else none
  length_encode x := (toBytesLe x).toList_length
  decode_encode x := by
    rw [dif_pos (toBytesLe x).toList_length]
    exact congrArg some (fromLeBytesModOrder_toBytesLe x)

def scalar (n : Nat) : Fr := n

/-- The groups of order `frModulus` whose points are given by their scalars, and a hash that keeps the first bytes. -/
def suite : PairingSuite frModulus Fr Fr Fr where
  g1 := scalarCodec
  g2 := scalarCodec
  fr := scalarCodec
  pairing := LinearMap.mul Fr Fr
  sha512 bytes := LittleEndian.vec 64 (LittleEndian.toNat bytes)

end CeremonySample

end Paraloom.OffChain
