import Mathlib.Algebra.Polynomial.Roots
import Mathlib.Data.List.GetD
import Mathlib.LinearAlgebra.Dual.Lemmas
import Mathlib.Tactic.LinearCombination

/-!
# Checks on multiples of unknown scalars

Elements of a vector space over a field stand for the scalars that they hide. Two answers to one commitment give the scalar
between two elements. One answer in two spaces of prime order gives one scalar in both, but for one challenge. A combination
with the powers of a scalar is a polynomial in the scalar.
-/

namespace LinearCheck

open Polynomial List

variable {F V : Type*} [Field F] [AddCommGroup V] [Module F V]

/-! ## Two answers to one commitment -/

/-- The scalar that takes the base to its image, from two answers. -/
theorem image_of_two_answers {base image commitment : V} {c c' s s' : F} (hne : c ≠ c')
    (h : s • base = commitment + c • image) (h' : s' • base = commitment + c' • image) :
    image = ((s - s') / (c - c')) • base := by
  have hdiff : (s - s') • base = (c - c') • image := by
    rw [sub_smul, sub_smul, h, h', add_sub_add_left_eq_sub]
  rw [div_eq_inv_mul, mul_smul, hdiff, smul_smul, inv_mul_cancel₀ (sub_ne_zero.mpr hne), one_smul]

/-! ## One answer in two spaces -/

section TwoSpaces

variable {W : Type*} [AddCommGroup W] [Module F W] {base image commitment : V} {base' image' commitment' : W} {c s : F}

/-- In a space with as many elements as the field, every element is a multiple of one that is not zero. -/
theorem exists_smul_eq [Finite F] (hcard : Nat.card V = Nat.card F) (hbase : base ≠ 0) (v : V) : ∃ x : F, x • base = v := by
  have : Finite V := Nat.finite_of_card_ne_zero (hcard ▸ Nat.card_pos.ne')
  exact ((smul_left_injective F hbase).bijective_of_nat_card_le hcard.le).2 v

/-- The challenges for which one answer fits two images that are different multiples of their bases. -/
def hidingChallenges (F : Type*) {V W : Type*} [Field F] [AddCommGroup V] [Module F V] [AddCommGroup W] [Module F W]
    (base image commitment : V) (base' image' commitment' : W) : Set F :=
  {c | ∃ x y k l : F, x ≠ y ∧ x • base = image ∧ y • base' = image' ∧ k • base = commitment ∧ l • base' = commitment' ∧
    k + c * x = l + c * y}

theorem hidingChallenges_subsingleton (hbase : base ≠ 0) (hbase' : base' ≠ 0) :
    (hidingChallenges F base image commitment base' image' commitment').Subsingleton := by
  rintro c ⟨x, y, k, l, hne, rfl, rfl, rfl, rfl, hc⟩ d ⟨x', y', k', l', -, hx, hy, hk, hl, hd⟩
  obtain rfl := smul_left_injective F hbase hx
  obtain rfl := smul_left_injective F hbase' hy
  obtain rfl := smul_left_injective F hbase hk
  obtain rfl := smul_left_injective F hbase' hl
  have hzero : (c - d) * (x' - y') = 0 := by linear_combination hc - hd
  exact sub_eq_zero.mp ((mul_eq_zero.mp hzero).resolve_right (sub_ne_zero.mpr hne))

/-- Images that are the same multiple of their bases leave no such challenge. -/
theorem hidingChallenges_of_same (hbase : base ≠ 0) (hbase' : base' ≠ 0) (x : F) :
    hidingChallenges F base (x • base) commitment base' (x • base') commitment' = ∅ := by
  rw [Set.eq_empty_iff_forall_notMem]
  rintro c ⟨y, z, -, -, hne, hy, hz, -⟩
  exact hne ((smul_left_injective F hbase hy).trans (smul_left_injective F hbase' hz).symm)

/-- One answer in two spaces, for another challenge: the images are the same multiple. -/
theorem same_multiple_of_answer [Finite F] (hcard : Nat.card V = Nat.card F) (hcard' : Nat.card W = Nat.card F)
    (hbase : base ≠ 0) (hbase' : base' ≠ 0) (h : s • base = commitment + c • image)
    (h' : s • base' = commitment' + c • image')
    (hc : c ∉ hidingChallenges F base image commitment base' image' commitment') :
    ∃ x : F, image = x • base ∧ image' = x • base' := by
  obtain ⟨x, rfl⟩ := exists_smul_eq hcard hbase image
  obtain ⟨y, rfl⟩ := exists_smul_eq hcard' hbase' image'
  obtain ⟨k, rfl⟩ := exists_smul_eq hcard hbase commitment
  obtain ⟨l, rfl⟩ := exists_smul_eq hcard' hbase' commitment'
  have hs : s = k + c * x := smul_left_injective F hbase (by simpa only [add_smul, mul_smul] using h)
  have hs' : s = l + c * y := smul_left_injective F hbase' (by simpa only [add_smul, mul_smul] using h')
  by_cases hne : x = y
  · exact ⟨x, rfl, by rw [hne]⟩
  · exact absurd ⟨x, y, k, l, hne, rfl, rfl, rfl, rfl, hs.symm.trans hs'⟩ hc

end TwoSpaces

/-! ## Combinations with the powers of a scalar -/

/-- The sum of the elements, each multiplied by the next power of the scalar. -/
def powerSum (x : F) : List V → V
  | [] => 0
  | v :: vs => v + x • powerSum x vs

theorem powerSum_sub (x : F) {vs ws : List V} (h : vs.length = ws.length) :
    powerSum x vs - powerSum x ws = powerSum x (zipWith (· - ·) vs ws) := by
  induction vs generalizing ws with
  | nil =>
    obtain rfl := length_eq_zero_iff.mp h.symm
    simp [powerSum]
  | cons v vs ih =>
    cases ws with
    | nil => cases h
    | cons w ws =>
      rw [zipWith_cons_cons, powerSum, powerSum, powerSum, ← ih (Nat.succ.inj h), smul_sub]
      abel

theorem map_powerSum [AddCommGroup W] [Module F W] (f : V →ₗ[F] W) (x : F) (vs : List V) :
    f (powerSum x vs) = powerSum x (vs.map f) := by
  induction vs with
  | nil => exact map_zero f
  | cons v vs ih => rw [powerSum, map_add, map_smul, ih, map_cons, powerSum]

theorem powerSum_eq_zero {x : F} {vs : List V} (h : ∀ v ∈ vs, v = 0) : powerSum x vs = 0 := by
  induction vs with
  | nil => rfl
  | cons v vs ih =>
    rw [powerSum, h v (mem_cons_self ..), ih fun w hw => h w (mem_cons_of_mem _ hw), smul_zero, add_zero]

/-- The polynomial with these coefficients, the constant one first. -/
noncomputable def ofCoefficients : List F → F[X]
  | [] => 0
  | a :: as => C a + X * ofCoefficients as

theorem eval_ofCoefficients (as : List F) : (ofCoefficients as).eval x = powerSum x as := by
  induction as with
  | nil => exact eval_zero
  | cons a as ih => simp [ofCoefficients, powerSum, ih]

theorem coeff_ofCoefficients (as : List F) : (ofCoefficients as).coeff k = as.getD k 0 := by
  induction as generalizing k with
  | nil => simp [ofCoefficients]
  | cons a as ih =>
    cases k with
    | zero => simp [ofCoefficients]
    | succ k =>
      rw [ofCoefficients, coeff_add, coeff_C_succ, zero_add, coeff_X_mul, ih]
      simp

theorem natDegree_ofCoefficients_le (as : List F) : (ofCoefficients as).natDegree ≤ as.length - 1 := by
  rw [natDegree_le_iff_coeff_eq_zero]
  intro k hk
  rw [coeff_ofCoefficients, getD_eq_default _ _ (by omega)]

/-- A list of which some element is not zero has a combination that is zero for fewer scalars than it has elements. -/
theorem card_powerSum_eq_zero_le [Fintype F] [DecidableEq F] [DecidableEq V] {vs : List V} (h : ∃ v ∈ vs, v ≠ 0) :
    (Finset.univ.filter fun x : F => powerSum x vs = 0).card ≤ vs.length - 1 := by
  obtain ⟨v, hv, hne⟩ := h
  obtain ⟨k, hk, rfl⟩ := getElem_of_mem hv
  -- a functional that does not vanish on the element turns the combination into a polynomial over the field
  obtain ⟨f, hf⟩ : ∃ f : Module.Dual F V, f vs[k] ≠ 0 := by
    by_contra hall
    push Not at hall
    exact hne ((Module.forall_dual_apply_eq_zero_iff F vs[k]).mp hall)
  have hcoeff : (ofCoefficients (vs.map f)).coeff k = f vs[k] := by
    rw [coeff_ofCoefficients, getD_eq_getElem _ _ (by rwa [length_map]), getElem_map]
  have hpoly : ofCoefficients (vs.map f) ≠ 0 := by
    intro hzero
    rw [hzero, coeff_zero] at hcoeff
    exact hf hcoeff.symm
  have hsubset : (Finset.univ.filter fun x : F => powerSum x vs = 0) ⊆ (ofCoefficients (vs.map f)).roots.toFinset := by
    intro x hx
    have hx' : powerSum x vs = 0 := (Finset.mem_filter.mp hx).2
    rw [Multiset.mem_toFinset, mem_roots hpoly, IsRoot.def, eval_ofCoefficients, ← map_powerSum, hx', map_zero]
  calc (Finset.univ.filter fun x : F => powerSum x vs = 0).card
      ≤ (ofCoefficients (vs.map f)).roots.toFinset.card := Finset.card_le_card hsubset
    _ ≤ (ofCoefficients (vs.map f)).roots.card := Multiset.toFinset_card_le _
    _ ≤ (ofCoefficients (vs.map f)).natDegree := card_roots' _
    _ ≤ vs.length - 1 := by
      have hdegree := natDegree_ofCoefficients_le (vs.map f)
      rwa [length_map] at hdegree

section Exceptions

variable [Fintype F] [DecidableEq F] [DecidableEq V]

/-- The scalars for which the combination is zero although some element is not. -/
def exceptions (F : Type*) {V : Type*} [Field F] [AddCommGroup V] [Module F V] [Fintype F] [DecidableEq F] [DecidableEq V]
    (vs : List V) : Finset F :=
  if vs.all (· = 0) then ∅ else Finset.univ.filter fun x => powerSum x vs = 0

theorem exceptions_of_zero {vs : List V} (h : ∀ v ∈ vs, v = 0) : exceptions F vs = ∅ :=
  if_pos (all_eq_true.mpr fun v hv => decide_eq_true (h v hv))

theorem card_exceptions_le (vs : List V) : (exceptions F vs).card ≤ vs.length - 1 := by
  by_cases h : ∀ v ∈ vs, v = 0
  · rw [exceptions_of_zero h, Finset.card_empty]
    exact Nat.zero_le _
  · push Not at h
    refine le_trans (Finset.card_le_card ?_) (card_powerSum_eq_zero_le h)
    unfold exceptions
    split
    · exact Finset.empty_subset _
    · exact Finset.Subset.refl _

theorem eq_zero_of_powerSum_eq_zero {vs : List V} (h : powerSum x vs = 0) (hx : x ∉ exceptions F vs) : ∀ v ∈ vs, v = 0 := by
  unfold exceptions at hx
  split at hx
  · rename_i hall
    exact fun v hv => of_decide_eq_true (all_eq_true.mp hall v hv)
  · exact absurd (Finset.mem_filter.mpr ⟨Finset.mem_univ x, h⟩) hx

end Exceptions

end LinearCheck
