import Paraloom.Lemmas.Circuit
import Paraloom.Pool

/-!
# What a leaf is worth

Over an ideal hash a leaf commits to one note, and the note has one nullifier at that leaf. So a nullifier that is revealed
for the first time takes the amount of one note out of the pool, and a leaf that is added puts the amount of its note in.
-/

namespace Paraloom

namespace HashRel.Ideal

variable {H : HashRel} (hH : H.Ideal)

include hH

/-- A commitment opens in one way only. -/
theorem opening_eq (h : H [a, pk, blinding, asset] c) (h' : H [a', pk', blinding', asset'] c) :
    a = a' ∧ pk = pk' ∧ blinding = blinding' ∧ asset = asset' := by
  simpa using hH.injective h h' rfl

theorem nullifier_eq {n n' : InputNote} (h : n.Hashes H asset pk c sig nf) (h' : n'.Hashes H asset' pk' c' sig' nf) :
    c = c' ∧ n.leafIndex = n'.leafIndex := by
  obtain ⟨hc, hidx, -⟩ : c = c' ∧ n.leafIndexFr = n'.leafIndexFr ∧ sig = sig' := by
    simpa using hH.injective h.nullifier h'.nullifier rfl
  have hlt : ∀ m : InputNote, m.leafIndex.toNat < frModulus := fun m => m.leafIndex.toNat_lt.trans (by decide)
  exact ⟨hc, UInt32.toNat_inj.mp (natCast_fr_inj (hlt n) (hlt n') hidx)⟩

theorem nullifier_unique {n n' : InputNote} (h : n.Hashes H asset pk c sig nf) (h' : n'.Hashes H asset' pk' c sig' nf')
    (hidx : n.leafIndex = n'.leafIndex) : nf = nf' := by
  obtain ⟨-, hpk, -, -⟩ := hH.opening_eq h.commitment h'.commitment
  have hkey : n.privkey = n'.privkey := by
    have h0 := h.pubkey
    rw [hpk] at h0
    simpa using hH.injective h0 h'.pubkey rfl
  have hfr : n.leafIndexFr = n'.leafIndexFr := by rw [InputNote.leafIndexFr, hidx, InputNote.leafIndexFr]
  have hsig : sig = sig' := by
    have h0 := h.signature
    rw [hkey, hfr] at h0
    exact hH.functional h0 h'.signature
  have h0 := h.nullifier
  rw [hfr, hsig] at h0
  exact hH.functional h0 h'.nullifier

end HashRel.Ideal

namespace Pool

section Worth

variable {H : HashRel} (hH : H.Ideal) {p : Pool}

/-- The note of a leaf that a nullifier was computed from. -/
theorem holds_of_hashes {n : InputNote} (h : n.Hashes H asset pk c sig nf) : Holds H asset c n.amount :=
  ⟨pk, n.blinding, h.commitment⟩

include hH in
theorem Holds.unique (h : Holds H asset c a) (h' : Holds H asset' c a') : a = a' ∧ asset = asset' := by
  obtain ⟨pk, blinding, h⟩ := h
  obtain ⟨pk', blinding', h'⟩ := h'
  obtain ⟨ha, -, -, hasset⟩ := hH.opening_eq h h'
  have hlt : ∀ x : UInt64, x.toNat < frModulus := fun x => x.toNat_lt.trans (by decide)
  exact ⟨UInt64.toNat_inj.mp (natCast_fr_inj (hlt a) (hlt a') ha), hasset⟩

include hH in
theorem amountOf_of_holds (h : Holds H asset c a) : amountOf H asset c = a.toNat := by
  have hset : {n | ∃ amount, Holds H asset c amount ∧ amount.toNat = n} = {a.toNat} := by
    ext n
    constructor
    · rintro ⟨a', h', rfl⟩
      rw [(h.unique hH h').1, Set.mem_singleton_iff]
    · rintro rfl
      exact ⟨a, h, rfl⟩
  rw [amountOf, hset, csInf_singleton]

include hH in
theorem amountOf_of_other (h : Holds H asset' c a) (hne : asset' ≠ asset) : amountOf H asset c = 0 := by
  have hset : {n | ∃ amount, Holds H asset c amount ∧ amount.toNat = n} = ∅ := by
    rw [Set.eq_empty_iff_forall_notMem]
    rintro n ⟨a', h', -⟩
    exact hne (h.unique hH h').2
  rw [amountOf, hset, Nat.sInf_empty]

theorem worth_of_spentAt (hs : p.SpentAt H asset i) : p.worth H asset i = 0 := if_pos hs

theorem worth_of_not_spentAt (hs : ¬ p.SpentAt H asset i) : p.worth H asset i = amountOf H asset (p.leaf i) := if_neg hs

/-- A leaf that holds nothing is worth nothing, spent or not. -/
theorem worth_of_amountOf_eq_zero (h : amountOf H asset (p.leaf i) = 0) : p.worth H asset i = 0 := by
  by_cases hs : p.SpentAt H asset i
  · exact worth_of_spentAt hs
  · rw [worth_of_not_spentAt hs, h]

end Worth

/-! ## Revealing a nullifier -/

section Spend

variable {H : HashRel} (hH : H.Ideal) {p : Pool} {n : InputNote}

theorem length_leaves_spend : (p.spend nf).leaves.length = p.leaves.length := rfl

theorem leaf_spend : (p.spend nf).leaf i = p.leaf i := rfl

theorem SpentAt.spend (h : p.SpentAt H asset i) : (p.spend nf).SpentAt H asset i := by
  obtain ⟨m, pk', sig', nf', hi, hm, hmem⟩ := h
  exact ⟨m, pk', sig', nf', hi, hm, Set.mem_insert_of_mem _ hmem⟩

include hH in
/-- The leaf of the note loses what it held. -/
theorem worth_spend_self (hn : n.Hashes H asset pk c sig nf) (hfresh : nf ∉ p.spent) (hleaf : p.leaf n.leafIndex.toNat = c) :
    p.worth H asset n.leafIndex.toNat = n.amount.toNat ∧ (p.spend nf).worth H asset n.leafIndex.toNat = 0 := by
  constructor
  · rw [worth_of_not_spentAt, hleaf, amountOf_of_holds hH (holds_of_hashes hn)]
    rintro ⟨m, pk', sig', nf', hi, hm, hmem⟩
    rw [hleaf] at hm
    rw [hH.nullifier_unique hm hn (UInt32.toNat_inj.mp hi)] at hmem
    exact hfresh hmem
  · apply worth_of_spentAt
    refine ⟨n, pk, sig, nf, rfl, ?_, Set.mem_insert _ _⟩
    rwa [leaf_spend, hleaf]

include hH in
/-- Every other leaf keeps what it held. -/
theorem worth_spend_of_ne {i : Nat} (hn : n.Hashes H assetId pk c sig nf)
    (hne : i = n.leafIndex.toNat → assetId = asset → n.amount = 0) :
    (p.spend nf).worth H asset i = p.worth H asset i := by
  by_cases hspent : p.SpentAt H asset i
  · rw [worth_of_spentAt hspent, worth_of_spentAt hspent.spend]
  · by_cases hspent' : (p.spend nf).SpentAt H asset i
    · -- the revealed nullifier is the one of this leaf, so the leaf commits to the same note, which holds nothing
      obtain ⟨m, pk', sig', nf', hi, hm, hmem⟩ := hspent'
      rcases hmem with rfl | hmem
      · obtain ⟨hc, hidx⟩ := hH.nullifier_eq hm hn
        obtain ⟨hamount, hasset⟩ := (holds_of_hashes hm).unique hH (hc ▸ holds_of_hashes hn)
        have hzero : m.amount = 0 := by
          rw [hamount]
          exact hne (by rw [← hi, hidx]) hasset.symm
        have hnothing : amountOf H asset (p.leaf i) = 0 := by
          rw [← leaf_spend, amountOf_of_holds hH (holds_of_hashes hm), hzero, UInt64.toNat_zero]
        rw [worth_of_amountOf_eq_zero hnothing]
        exact worth_of_amountOf_eq_zero hnothing
      · exact absurd ⟨m, pk', sig', nf', hi, hm, hmem⟩ hspent
    · rw [worth_of_not_spentAt hspent, worth_of_not_spentAt hspent', leaf_spend]

include hH in
/-- Revealing a nullifier for the first time takes the amount of its note out of the pool of its asset. -/
theorem outstanding_spend (asset : Fr) (hn : n.Hashes H assetId pk c sig nf) (hfresh : nf ∉ p.spent)
    (hmember : n.amount ≠ 0 → n.leafIndex.toNat < p.leaves.length ∧ p.leaf n.leafIndex.toNat = c) :
    (p.spend nf).outstanding H asset + (if assetId = asset then n.amount.toNat else 0) = p.outstanding H asset := by
  by_cases hcase : assetId = asset ∧ n.amount ≠ 0
  · obtain ⟨rfl, hne⟩ := hcase
    obtain ⟨hlt, hleaf⟩ := hmember hne
    obtain ⟨hbefore, hafter⟩ := worth_spend_self hH hn hfresh hleaf
    have hmem := Finset.mem_range.mpr hlt
    have hrest : ∀ i ∈ (Finset.range p.leaves.length).erase n.leafIndex.toNat,
        (p.spend nf).worth H assetId i = p.worth H assetId i :=
      fun i hi => worth_spend_of_ne hH hn (fun heq => absurd heq (Finset.ne_of_mem_erase hi))
    calc (p.spend nf).outstanding H assetId + (if assetId = assetId then n.amount.toNat else 0)
      _ = (∑ i ∈ (Finset.range p.leaves.length).erase n.leafIndex.toNat, (p.spend nf).worth H assetId i) + n.amount.toNat := by
        rw [if_pos rfl, outstanding, length_leaves_spend, ← Finset.add_sum_erase _ _ hmem, hafter, Nat.zero_add]
      _ = (∑ i ∈ (Finset.range p.leaves.length).erase n.leafIndex.toNat, p.worth H assetId i) +
          p.worth H assetId n.leafIndex.toNat := by rw [Finset.sum_congr rfl hrest, hbefore]
      _ = p.outstanding H assetId := Finset.sum_erase_add _ _ hmem
  · have hamount : (if assetId = asset then n.amount.toNat else 0) = 0 := by
      split
      · rename_i heq
        rw [not_and_not_right.mp hcase heq, UInt64.toNat_zero]
      · rfl
    rw [hamount, Nat.add_zero]
    exact Finset.sum_congr rfl fun i _ =>
      worth_spend_of_ne hH hn (fun _ heq => not_and_not_right.mp hcase heq)

theorem WellFormed.spend (hp : p.WellFormed H) (hn : n.Hashes H assetId pk c sig nf)
    (hmember : n.amount ≠ 0 → n.leafIndex.toNat < p.leaves.length) : (p.spend nf).WellFormed H := by
  rintro x (rfl | hx)
  · exact ⟨n, assetId, pk, c, sig, hn, or_iff_not_imp_left.mpr hmember⟩
  · exact hp x hx

end Spend

/-! ## Adding a leaf -/

section Append

variable {H : HashRel} (hH : H.Ideal) {p : Pool}

theorem leaf_append_of_lt (hi : i < p.leaves.length) : (p.append c).leaf i = p.leaf i :=
  HashTree.padded_append_left hi

theorem leaf_append_length : (p.append c).leaf p.leaves.length = c := HashTree.padded_append_length _ _ _

include hH in
/-- The nullifier of a leaf that holds value is not revealed before the leaf is there. -/
theorem not_spentAt_append (hp : p.WellFormed H) (hc : Holds H assetId c a) (hne : a ≠ 0) :
    ¬ (p.append c).SpentAt H assetId p.leaves.length := by
  rintro ⟨n, pk, sig, nf, hi, hn, hmem⟩
  rw [leaf_append_length] at hn
  obtain ⟨m, assetId', pk', c', sig', hm, hkind⟩ := hp nf hmem
  obtain ⟨rfl, hidx⟩ := hH.nullifier_eq hn hm
  rcases hkind with hzero | hlt
  · have hholds := holds_of_hashes hm
    rw [hzero] at hholds
    exact hne (hc.unique hH hholds).1
  · rw [← hidx, hi] at hlt
    exact Nat.lt_irrefl _ hlt

include hH in
/-- The new leaf is worth the amount of its note. -/
theorem worth_append_self (hp : p.WellFormed H) (hc : Holds H assetId c a) :
    (p.append c).worth H asset p.leaves.length = if assetId = asset then a.toNat else 0 := by
  split
  · rename_i heq
    subst heq
    by_cases hzero : a = 0
    · rw [hzero, UInt64.toNat_zero]
      apply worth_of_amountOf_eq_zero
      rw [leaf_append_length, amountOf_of_holds hH hc, hzero, UInt64.toNat_zero]
    · rw [worth_of_not_spentAt (not_spentAt_append hH hp hc hzero), leaf_append_length, amountOf_of_holds hH hc]
  · rename_i hne
    apply worth_of_amountOf_eq_zero
    rw [leaf_append_length, amountOf_of_other hH hc hne]

theorem worth_append_of_lt (hi : i < p.leaves.length) : (p.append c).worth H asset i = p.worth H asset i := by
  have hspent : (p.append c).SpentAt H asset i ↔ p.SpentAt H asset i := by
    rw [SpentAt, leaf_append_of_lt hi]
    rfl
  by_cases hs : p.SpentAt H asset i
  · rw [worth_of_spentAt hs, worth_of_spentAt (hspent.mpr hs)]
  · rw [worth_of_not_spentAt hs, worth_of_not_spentAt (mt hspent.mp hs), leaf_append_of_lt hi]

include hH in
/-- Adding a leaf puts the amount of its note into the pool of its asset. -/
theorem outstanding_append (asset : Fr) (hp : p.WellFormed H) (hc : Holds H assetId c a) :
    (p.append c).outstanding H asset = p.outstanding H asset + if assetId = asset then a.toNat else 0 := by
  have hlen : (p.append c).leaves.length = p.leaves.length + 1 := by simp [append]
  rw [outstanding, hlen, Finset.sum_range_succ, worth_append_self hH hp hc, outstanding]
  congr 1
  exact Finset.sum_congr rfl fun i hi => worth_append_of_lt (Finset.mem_range.mp hi)

theorem WellFormed.append (hp : p.WellFormed H) : (p.append c).WellFormed H := by
  intro nf hnf
  obtain ⟨n, assetId, pk, c', sig, hn, hkind⟩ := hp nf hnf
  refine ⟨n, assetId, pk, c', sig, hn, hkind.imp_right fun h => ?_⟩
  simp only [Pool.append, List.length_append]
  exact Nat.lt_add_right _ h

end Append

/-! ## A transaction -/

section Settle

open TransactCircuitV3

variable {H : HashRel} (hH : H.Ideal)
  {p : Pool}

include hH in
/-- A note to spend under an attested root has its hashes and, if it holds value, its leaf. -/
theorem Attests.spends {n : InputNote} (hroot : p.Attests H root) (h : n.Spends H root assetId nf) :
    ∃ pk c sig, n.Hashes H assetId pk c sig nf ∧
      (n.amount ≠ 0 → n.leafIndex.toNat < p.leaves.length ∧ p.leaf n.leafIndex.toNat = c) := by
  obtain ⟨pk, c, sig, hn, hfold⟩ := h
  refine ⟨pk, c, sig, hn, fun hne => hroot n c ?_ (hfold hne)⟩
  rintro rfl
  exact hH.ne_zero hn.commitment

include hH in
theorem settle_balanced (hp : p.WellFormed H) (hroot : p.Attests H pub.root)
    (hb : Balanced H pub extAmount in0 in1 out0 out1) (hfresh0 : pub.nullifier0 ∉ p.spent)
    (hfresh1 : pub.nullifier1 ∉ p.spent) :
    (p.settle pub).WellFormed H ∧ ∀ asset : Fr, ((p.settle pub).outstanding H asset : Int) =
      p.outstanding H asset + if pub.assetId = asset then extAmount else 0 := by
  obtain ⟨pk0, c0, sig0, hn0, hmember0⟩ := hroot.spends hH hb.spends0
  obtain ⟨pk1, c1, sig1, hn1, hmember1⟩ := hroot.spends hH hb.spends1
  have hnew : pub.nullifier1 ∉ (p.spend pub.nullifier0).spent := by
    rintro (heq | hmem)
    · exact hb.nullifiers_ne heq.symm
    · exact hfresh1 hmem
  have hholds0 : Holds H pub.assetId pub.outCommitment0 out0.amount := ⟨_, _, hb.opens0⟩
  have hholds1 : Holds H pub.assetId pub.outCommitment1 out1.amount := ⟨_, _, hb.opens1⟩
  have hp0 := hp.spend hn0 (fun hne => (hmember0 hne).1)
  have hp1 := hp0.spend hn1 (fun hne => (hmember1 hne).1)
  refine ⟨hp1.append.append, fun asset => ?_⟩
  have hspend0 := outstanding_spend hH asset hn0 hfresh0 hmember0
  have hspend1 := outstanding_spend hH asset hn1 hnew hmember1
  have happend0 := outstanding_append hH asset hp1 hholds0
  have happend1 := outstanding_append hH asset (hp1.append (c := pub.outCommitment0)) hholds1
  have hbalance := hb.balance
  rw [settle]
  by_cases hasset : pub.assetId = asset
  · simp only [if_pos hasset] at hspend0 hspend1 happend0 happend1 ⊢
    omega
  · simp only [if_neg hasset] at hspend0 hspend1 happend0 happend1 ⊢
    omega

end Settle

end Pool

end Paraloom
