import Paraloom.MerkleTree
import Paraloom.OffChain.ProofVerifier

/-!
# The two Poseidon hashes

The program hashes with a syscall over words, the node with a function over field elements. They are the same hash on the
words that encode field elements.
-/

namespace Paraloom

open LittleEndian

/-- The syscall is the circom Poseidon on canonical words, for every width it has parameters for. -/
def Ctx.PoseidonAgrees (Γ : Ctx) (poseidon : List Fr → Fr) : Prop :=
  ∀ xs : List Bytes32, xs ≠ [] → xs.length ≤ 12 → (∀ x ∈ xs, Canonical x) →
    Γ.solPoseidon xs = some (toBytesLe (poseidon (xs.map fromLeBytesModOrder)))

/-- A syscall that refuses what is not canonical, and otherwise hashes the lifts of the words. -/
theorem Ctx.poseidonAgrees_of_canonical {Γ : Ctx} (h : Γ.solPoseidon = fun xs =>
      if xs.all (Canonical ·) then some (toBytesLe (poseidon (xs.map fromLeBytesModOrder))) else none) :
    Γ.PoseidonAgrees poseidon := by
  intro xs _ _ hxs
  rw [h]
  exact if_pos (List.all_eq_true.mpr fun x hx => decide_eq_true (hxs x hx))

namespace PoseidonAux

variable {n : Nat}

theorem canonical_vec (h : n < frModulus) : Canonical (vec 32 n) := by
  rw [canonical_iff, vec, toNat_ofNat_of_lt (h.trans frModulus_lt)]
  exact h

/-- Sixteen bytes are below the order of the field. -/
theorem half_lt (h : bytes.length ≤ 16) : toNat bytes < frModulus := by
  have hbytes : toNat bytes < 256 ^ bytes.length := toNat_lt bytes
  have hlength : 256 ^ bytes.length ≤ 256 ^ 16 := Nat.pow_le_pow_right (by decide) h
  have hfield : 256 ^ 16 < frModulus := by decide
  omega

theorem u64_lt (amount : UInt64) : amount.toNat < frModulus := by
  have hamount := amount.toNat_lt
  have hfield : 2 ^ 64 < frModulus := by decide
  omega

end PoseidonAux

open PoseidonAux

variable {Γ : Ctx} {poseidon : List Fr → Fr}

theorem Ctx.PoseidonAgrees.mintToAsset (h : Γ.PoseidonAgrees poseidon) (mint : Pubkey) :
    mintToAsset Γ mint = .ok (OffChain.PoseidonCircom.mintToAsset poseidon (Γ.toBytes mint)) := by
  set b := Γ.toBytes mint with hb
  have hlo : toNat (b.val.take 16) < frModulus := half_lt (by simp)
  have hhi : toNat (b.val.drop 16) < frModulus := half_lt (by simp [b.property])
  have hhash := h [vec 32 (toNat (b.val.take 16)), vec 32 (toNat (b.val.drop 16))] (by simp) (by simp) (by
      intro x hx
      rcases List.mem_pair.mp hx with rfl | rfl
      · exact canonical_vec hlo
      · exact canonical_vec hhi)
  rw [Paraloom.mintToAsset, ← hb]
  simp only [poseidon2, Ctx.hashv, okOr, hhash]
  simp only [List.map_cons, List.map_nil, lift_vec (hlo.trans frModulus_lt), lift_vec (hhi.trans frModulus_lt)]
  rfl

theorem Ctx.PoseidonAgrees.commitment (h : Γ.PoseidonAgrees poseidon) (amount : UInt64) (hpubkey : Canonical pubkey)
    (hblinding : Canonical blinding) (hasset : Canonical asset) :
    commitment Γ amount pubkey blinding asset = .ok (toBytesLe (v3Commit poseidon (amount.toNat : Fr)
      (fromLeBytesModOrder pubkey) (fromLeBytesModOrder blinding) (fromLeBytesModOrder asset))) := by
  have hamount := u64_lt amount
  have hhash := h [vec 32 amount.toNat, pubkey, blinding, asset] (by simp) (by simp) (by
    intro x hx
    simp only [List.mem_cons, List.not_mem_nil, or_false] at hx
    rcases hx with rfl | rfl | rfl | rfl
    · exact canonical_vec hamount
    · exact hpubkey
    · exact hblinding
    · exact hasset)
  simp only [Paraloom.commitment, Ctx.hashv, okOr, hhash]
  simp only [List.map_cons, List.map_nil, lift_vec (hamount.trans frModulus_lt)]
  rfl

end Paraloom
