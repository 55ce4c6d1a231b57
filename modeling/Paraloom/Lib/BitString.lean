import Mathlib.Tactic.Ring

/-!
# Bit strings over a ring

The value of a list of ring elements weighted by powers of two, and the low bits of a number. Over a ring without zero
divisors the constraint `(1 - b) * b = 0` leaves two values for a wire, so a list of constrained wires is the bit string of
one number below two to its length.
-/

namespace BitString

open List

variable {R : Type*}

/-- The weighted sum of a list of wires, the first one with weight one. -/
def value [Semiring R] : List R → R
  | [] => 0
  | b :: bs => b + 2 * value bs

/-- The `width` low bits of a number, the lowest first. -/
def bits : (width : Nat) → Nat → List Nat
  | 0, _ => []
  | width + 1, n => n % 2 :: bits width (n / 2)

@[simp] theorem bits_length : (bits width n).length = width := by
  induction width generalizing n with
  | zero => rfl
  | succ width ih => simp [bits, ih]

/-- The weighted sum of the low bits of a number that fits the width is the number. -/
theorem value_bits [CommSemiring R] (h : n < 2 ^ width) : value ((bits width n).map (Nat.cast : Nat → R)) = n := by
  induction width generalizing n with
  | zero =>
    have h0 : n = 0 := by omega
    simp [bits, value, h0]
  | succ width ih =>
    have hhalf : n / 2 < 2 ^ width := by
      rw [Nat.pow_succ] at h
      omega
    have hsplit : n = n % 2 + 2 * (n / 2) := by omega
    rw [bits, map_cons, value, ih hhalf]
    conv_rhs => rw [hsplit]
    push_cast
    ring

/-- A low bit of a number satisfies the booleanity constraint. -/
theorem bits_boolean [CommRing R] (width n : Nat) : ∀ b ∈ (bits width n).map (Nat.cast : Nat → R), (1 - b) * b = 0 := by
  induction width generalizing n with
  | zero => simp [bits]
  | succ width ih =>
    intro b hb
    rw [bits, map_cons, mem_cons] at hb
    rcases hb with rfl | hb
    · rcases Nat.mod_two_eq_zero_or_one n with h | h <;> simp [h]
    · exact ih _ b hb

/-- Wires that satisfy the booleanity constraint are the low bits of one number of their width. -/
theorem exists_bits [CommRing R] [NoZeroDivisors R] (h : ∀ b ∈ bs, (1 - b) * b = 0) :
    ∃ n < 2 ^ bs.length, bs = (bits bs.length n).map (Nat.cast : Nat → R) := by
  induction bs with
  | nil => exact ⟨0, by simp, rfl⟩
  | cons b bs ih =>
    obtain ⟨n, hn, hbs⟩ := ih (fun c hc => h c (mem_cons_of_mem b hc))
    have hb : b = 0 ∨ b = 1 := by
      rcases mul_eq_zero.mp (h b mem_cons_self) with h1 | h0
      · exact .inr (sub_eq_zero.mp h1).symm
      · exact .inl h0
    rcases hb with rfl | rfl
    · refine ⟨2 * n, by rw [length_cons, Nat.pow_succ]; omega, ?_⟩
      rw [length_cons, bits, Nat.mul_mod_right, Nat.mul_div_cancel_left _ Nat.two_pos, map_cons, ← hbs, Nat.cast_zero]
    · refine ⟨2 * n + 1, by rw [length_cons, Nat.pow_succ]; omega, ?_⟩
      have hmod : (2 * n + 1) % 2 = 1 := by omega
      have hdiv : (2 * n + 1) / 2 = n := by omega
      rw [length_cons, bits, hmod, hdiv, map_cons, ← hbs, Nat.cast_one]

end BitString
