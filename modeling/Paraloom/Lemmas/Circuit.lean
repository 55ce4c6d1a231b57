import Paraloom.Circuit

/-!
# What a satisfying assignment means

Soundness of the circuit over any hash relation: a satisfying assignment carries two notes to spend and two notes to
create, and the field equation between their amounts is an equation between integers, because 64-bit amounts are too
small to wrap modulo the order of the field.
-/

namespace Paraloom

open BitString

namespace TransactCircuitV3

namespace CircuitAux

/-- Constrained wires of a width are the bits of one number, and their linear combination is that number. -/
theorem exists_number {wires : List.Vector Fr width} (h : ∀ b ∈ wires.val, BooleanBit b) :
    ∃ n < 2 ^ width, wires.val = (bits width n).map (Nat.cast : Nat → Fr) ∧ leBitsToFp wires.val = n := by
  obtain ⟨n, hn, hbits⟩ := exists_bits h
  rw [wires.property] at hn hbits
  refine ⟨n, hn, hbits, ?_⟩
  rw [leBitsToFp, hbits, value_bits hn]

/-- The fold over selected wires is the fold along the bits of the number the direction wires encode. -/
theorem membershipFold_iff (H : HashRel) (width n : Nat) (current : Fr) (siblings : List Fr) (folded : Fr)
    (hlen : siblings.length = width) :
    membershipFold H current (((bits width n).map (Nat.cast : Nat → Fr)).zip siblings) folded ↔
      HashTree.Fold H.pair current n siblings folded := by
  induction siblings generalizing width n current with
  | nil =>
    subst hlen
    simp [bits, membershipFold, HashTree.Fold]
  | cons s ss ih =>
    subst hlen
    simp only [List.length_cons, bits, List.map_cons, List.zip_cons_cons, membershipFold, HashTree.Fold]
    rcases Nat.mod_two_eq_zero_or_one n with hn | hn
    · simp [hn, select, ih ss.length (n / 2) _ rfl]
    · simp [hn, select, ih ss.length (n / 2) _ rfl]

/-- Integers that differ by less than the order of the field are equal when they are equal in the field. -/
theorem int_eq_of_cast_eq {a b : Int} (h : (a : Fr) = (b : Fr)) (hab : |a - b| < frModulus) : a = b := by
  rw [ZMod.intCast_eq_intCast_iff_dvd_sub] at h
  have hzero : b - a = 0 := Int.eq_zero_of_abs_lt_dvd h (by rwa [abs_sub_comm])
  omega

/-- The balance constraint holds over the integers: 64-bit amounts and a signed 64-bit public amount do not wrap. -/
theorem balance_int {in0 in1 out0 out1 : Nat} {ext : Int} (h0 : in0 < 2 ^ 64) (h1 : in1 < 2 ^ 64) (h2 : out0 < 2 ^ 64)
    (h3 : out1 < 2 ^ 64) (hlo : -2 ^ 63 ≤ ext) (hhi : ext < 2 ^ 63) :
    (0 + (in0 : Fr) + in1 + (ext : Fr) = 0 + (out0 : Fr) + out1) ↔ (in0 : Int) + in1 + ext = out0 + out1 := by
  constructor
  · intro h
    apply int_eq_of_cast_eq
    · push_cast
      simpa using h
    · have hp : (2 : Int) ^ 200 < frModulus := by decide
      rw [abs_lt]
      omega
  · intro h
    have hcast := congrArg (Int.cast : Int → Fr) h
    push_cast at hcast
    simpa using hcast

theorem exists_wires (h : n < 2 ^ width) : ∃ wires : List.Vector Fr width,
    wires.val = (bits width n).map (Nat.cast : Nat → Fr) ∧ (∀ b ∈ wires.val, BooleanBit b) ∧
      leBitsToFp wires.val = n :=
  ⟨⟨(bits width n).map Nat.cast, by simp⟩, rfl, bits_boolean width n, value_bits h⟩

theorem fold_total (c : Fr) (j : Nat) (ss : List Fr) : ∃ r, HashTree.Fold (HashRel.ofFun poseidon).pair c j ss r := by
  induction ss generalizing c j with
  | nil => exact ⟨c, rfl⟩
  | cons s ss ih =>
    by_cases hj : j % 2 = 1
    · obtain ⟨r, hr⟩ := ih (poseidon [s, c]) (j / 2)
      exact ⟨r, poseidon [s, c], by simp [hj, HashRel.pair, HashRel.ofFun], hr⟩
    · obtain ⟨r, hr⟩ := ih (poseidon [c, s]) (j / 2)
      exact ⟨r, poseidon [c, s], by simp [hj, HashRel.pair, HashRel.ofFun], hr⟩

theorem amount_cast_eq_zero {a : UInt64} : ((a.toNat : Fr) = 0) ↔ a = 0 := by
  constructor
  · intro h
    exact UInt64.toNat_inj.mp (natCast_fr_inj (a.toNat_lt.trans (by decide)) frModulus_prime.pos (h.trans Nat.cast_zero.symm))
  · rintro rfl
    simp

end CircuitAux

open CircuitAux

variable {H : HashRel} {assetId : Fr}

/-! ## One note -/

/-- Satisfied input constraints carry a note that has the public nullifier and, if it holds value, is a member of the
tree. -/
theorem InputConstraints.sound {w : InputWires} (h : InputConstraints H root assetId nf w) :
    ∃ n : InputNote, n.Spends H root assetId nf ∧ w.amount = n.amountFr := by
  obtain ⟨a, ha, -, hamount⟩ := exists_number h.amount_boolean
  obtain ⟨j, hj, hbits, hindex⟩ := exists_number h.idx_boolean
  have ha' : (UInt64.ofNatLT a ha).toNat = a := UInt64.toNat_ofNatLT
  have hj' : (UInt32.ofNatLT j hj).toNat = j := UInt32.toNat_ofNatLT
  have hw : w.amount = a := hamount
  have hi : w.leafIndex = j := hindex
  obtain ⟨-, -, hpk, hc, hsig, hnf, hpub, hfold, hmember⟩ := h
  rw [hbits, membershipFold_iff H 32 j _ _ _ w.siblings.property] at hfold
  rw [hpub] at hnf
  rw [hw] at hc hmember
  rw [hi] at hsig hnf
  refine ⟨⟨UInt64.ofNatLT a ha, w.privkey, w.blinding, UInt32.ofNatLT j hj, w.siblings⟩,
    ⟨w.pubkey, w.commitment, w.signature, ⟨hpk, ?_, ?_, ?_⟩, ?_⟩, ?_⟩
  · rwa [InputNote.amountFr, ha']
  · rwa [InputNote.leafIndexFr, hj']
  · rwa [InputNote.leafIndexFr, hj']
  · intro hne
    have hne' : (a : Fr) ≠ 0 := by rwa [← ha', Ne, amount_cast_eq_zero]
    have hroot : w.folded = root := sub_eq_zero.mp ((mul_eq_zero.mp hmember).resolve_right hne')
    rwa [InputNote.FoldsTo, hj', ← hroot]
  · rw [InputNote.amountFr, ha', hw]

/-- Satisfied output constraints carry a note that the public commitment commits to. -/
theorem OutputConstraints.sound {w : OutputWires} (h : OutputConstraints H assetId c w) :
    ∃ n : OutputNote, n.Opens H assetId c ∧ w.amount = n.amountFr := by
  obtain ⟨a, ha, -, hamount⟩ := exists_number h.amount_boolean
  have ha' : (UInt64.ofNatLT a ha).toNat = a := UInt64.toNat_ofNatLT
  have hw : w.amount = a := hamount
  have hc := h.commitment
  rw [h.commitment_eq, hw] at hc
  refine ⟨⟨UInt64.ofNatLT a ha, w.pubkey, w.blinding⟩, ?_, ?_⟩
  · rwa [OutputNote.Opens, OutputNote.amountFr, ha']
  · rw [OutputNote.amountFr, ha', hw]

/-- A note to spend whose path folds to some node, which is the root if the note holds value, gives wires that satisfy the
input constraints. -/
theorem InputConstraints.complete {n : InputNote} (h : n.Hashes H assetId pk c sig nf) (hfold : n.FoldsTo H c r)
    (hroot : n.amount ≠ 0 → r = root) : ∃ w, InputConstraints H root assetId nf w ∧ w.amount = n.amountFr := by
  obtain ⟨hpk, hc, hsig, hnf⟩ := h
  obtain ⟨amountBits, -, hab, haval⟩ := exists_wires n.amount.toNat_lt
  obtain ⟨idxBits, hbits, hib, hival⟩ := exists_wires n.leafIndex.toNat_lt
  have hmember : (r - root) * n.amountFr = 0 := by
    by_cases hzero : n.amount = 0
    · rw [InputNote.amountFr, amount_cast_eq_zero.mpr hzero, mul_zero]
    · rw [hroot hzero, sub_self, zero_mul]
  refine ⟨⟨amountBits, n.privkey, n.blinding, idxBits, n.siblings, pk, c, sig, nf, r⟩,
    ⟨hab, hib, hpk, ?_, ?_, ?_, rfl, ?_, ?_⟩, haval⟩
  · rwa [InputWires.amount, haval]
  · rwa [InputWires.leafIndex, hival]
  · rwa [InputWires.leafIndex, hival]
  · rwa [hbits, membershipFold_iff _ 32 _ _ _ _ n.siblings.property]
  · rwa [InputWires.amount, haval]

/-- Over a hash function the path of a note without value folds to some node, so every note to spend gives wires. -/
theorem InputConstraints.of_spends {n : InputNote} (h : n.Spends (.ofFun poseidon) root assetId nf) :
    ∃ w, InputConstraints (.ofFun poseidon) root assetId nf w ∧ w.amount = n.amountFr := by
  obtain ⟨pk, c, sig, hhashes, hfold⟩ := h
  by_cases hzero : n.amount = 0
  · obtain ⟨r, hr⟩ := fold_total c n.leafIndex.toNat n.siblings.val
    exact InputConstraints.complete hhashes hr (fun hne => absurd hzero hne)
  · exact InputConstraints.complete hhashes (hfold hzero) (fun _ => rfl)

/-- Over any hash relation, a note to create gives wires that satisfy the output constraints. -/
theorem OutputConstraints.complete {n : OutputNote} (h : n.Opens H assetId c) :
    ∃ w, OutputConstraints H assetId c w ∧ w.amount = n.amountFr := by
  obtain ⟨amountBits, -, hab, haval⟩ := exists_wires n.amount.toNat_lt
  refine ⟨⟨amountBits, n.pubkey, n.blinding, c⟩, ⟨hab, ?_, rfl⟩, haval⟩
  rwa [OutputWires.amount, haval]

/-! ## The whole transaction -/

/-- The integer relation between the notes of a transaction: two nullifiers that differ and no value made or lost. -/
structure Balanced (H : HashRel) (pub : PublicInputs) (extAmount : Int) (in0 in1 : InputNote) (out0 out1 : OutputNote) :
    Prop where
  spends0 : in0.Spends H pub.root pub.assetId pub.nullifier0
  spends1 : in1.Spends H pub.root pub.assetId pub.nullifier1
  opens0 : out0.Opens H pub.assetId pub.outCommitment0
  opens1 : out1.Opens H pub.assetId pub.outCommitment1
  nullifiers_ne : pub.nullifier0 ≠ pub.nullifier1
  balance : (in0.amount.toNat : Int) + in1.amount.toNat + extAmount = out0.amount.toNat + out1.amount.toNat

theorem balance_iff {pub : PublicInputs} {extAmount : Int64} (hext : pub.publicAmount = (extAmount.toInt : Fr))
    (a b c d : UInt64) :
    (0 + (a.toNat : Fr) + b.toNat + pub.publicAmount = 0 + (c.toNat : Fr) + d.toNat) ↔
      (a.toNat : Int) + b.toNat + extAmount.toInt = c.toNat + d.toNat := by
  rw [hext]
  exact balance_int a.toNat_lt b.toNat_lt c.toNat_lt d.toNat_lt extAmount.le_toInt extAmount.toInt_lt

/-- Every satisfying assignment carries a balanced set of notes. -/
theorem Satisfiable.sound {extAmount : Int64} (hext : pub.publicAmount = (extAmount.toInt : Fr)) (h : Satisfiable H pub) :
    ∃ in0 in1 out0 out1, Balanced H pub extAmount.toInt in0 in1 out0 out1 := by
  obtain ⟨a, -, hin0, hin1, hout0, hout1, hdiff, hbal⟩ := h
  obtain ⟨in0, hs0, ha0⟩ := hin0.sound
  obtain ⟨in1, hs1, ha1⟩ := hin1.sound
  obtain ⟨out0, ho0, hb0⟩ := hout0.sound
  obtain ⟨out1, ho1, hb1⟩ := hout1.sound
  refine ⟨in0, in1, out0, out1, hs0, hs1, ho0, ho1, ?_, ?_⟩
  · intro heq
    rw [heq, sub_self, zero_mul] at hdiff
    exact zero_ne_one hdiff
  · rw [ha0, ha1, hb0, hb1] at hbal
    exact (balance_iff hext _ _ _ _).mp hbal

/-- A balanced set of notes with wires for its two inputs gives a satisfying assignment. -/
theorem Satisfiable.complete {extAmount : Int64} (hext : pub.publicAmount = (extAmount.toInt : Fr))
    (h : Balanced H pub extAmount.toInt in0 in1 out0 out1)
    (hin0 : ∃ w, InputConstraints H pub.root pub.assetId pub.nullifier0 w ∧ w.amount = in0.amountFr)
    (hin1 : ∃ w, InputConstraints H pub.root pub.assetId pub.nullifier1 w ∧ w.amount = in1.amountFr) : Satisfiable H pub := by
  obtain ⟨w0, hw0, ha0⟩ := hin0
  obtain ⟨w1, hw1, ha1⟩ := hin1
  obtain ⟨v0, hv0, hb0⟩ := OutputConstraints.complete h.opens0
  obtain ⟨v1, hv1, hb1⟩ := OutputConstraints.complete h.opens1
  refine ⟨⟨w0, w1, v0, v1, _, (pub.nullifier0 - pub.nullifier1)⁻¹⟩, rfl, hw0, hw1, hv0, hv1, ?_, ?_⟩
  · exact mul_inv_cancel₀ (sub_ne_zero.mpr h.nullifiers_ne)
  · simp only [ha0, ha1, hb0, hb1]
    exact (balance_iff hext _ _ _ _).mpr h.balance

end TransactCircuitV3

end Paraloom
