import Mathlib.NumberTheory.LucasPrimality

/-!
# Chains of Lucas certificates

A large prime is certified by a chain of links. A link names a number, a base and the prime factors of its predecessor,
all of them certified earlier in the chain. Lucas's criterion turns each link into a proof of primality, and the check of
a link is a computation small enough for the kernel.
-/

namespace LucasChain

/-- `base ^ exp % m` by repeated squaring, for exponents below `2 ^ fuel`. -/
def powMod (m : Nat) : (fuel : Nat) → (base exp : Nat) → Nat
  | 0, _, _ => 1 % m
  | fuel + 1, base, exp =>
    if exp % 2 = 1 then base * powMod m fuel (base * base % m) (exp / 2) % m
    else powMod m fuel (base * base % m) (exp / 2)

/-- Repeated squaring computes the power in the ring of residues. -/
theorem powMod_cast (fuel base exp : Nat) (h : exp < 2 ^ fuel) : (powMod m fuel base exp : ZMod m) = (base : ZMod m) ^ exp := by
  induction fuel generalizing base exp with
  | zero =>
    have h0 : exp = 0 := by omega
    simp [powMod, h0]
  | succ fuel ih =>
    have hhalf : exp / 2 < 2 ^ fuel := by
      rw [Nat.pow_succ] at h
      omega
    have hsq : ((base * base % m : Nat) : ZMod m) ^ (exp / 2) = (base : ZMod m) ^ (2 * (exp / 2)) := by
      rw [ZMod.natCast_mod, Nat.cast_mul, ← pow_two, ← pow_mul]
    unfold powMod
    split
    · rename_i hodd
      rw [ZMod.natCast_mod, Nat.cast_mul, ih _ _ hhalf, hsq, ← pow_succ']
      congr 1
      omega
    · rename_i heven
      rw [ih _ _ hhalf, hsq]
      congr 1
      omega

/-- One link: a number, a base of full order modulo it, and the prime factors of its predecessor with multiplicity. -/
structure Link where
  number : Nat
  base : Nat
  factors : List Nat

def Link.check (certified : List Nat) (l : Link) : Bool :=
  decide (1 < l.number ∧ l.number < 2 ^ 256 ∧ l.factors.prod = l.number - 1 ∧
    powMod l.number 256 l.base (l.number - 1) = 1 ∧
    ∀ q ∈ l.factors, q ∈ certified ∧ powMod l.number 256 l.base ((l.number - 1) / q) % l.number ≠ 1)

theorem Link.check_prime (hc : ∀ q ∈ certified, q.Prime) {l : Link} (h : l.check certified = true) : l.number.Prime := by
  obtain ⟨h1, hlt, hprod, hone, hq⟩ := of_decide_eq_true h
  have hcast : ∀ e, e ≤ l.number - 1 → (powMod l.number 256 l.base e : ZMod l.number) = (l.base : ZMod l.number) ^ e :=
    fun e he => powMod_cast _ _ _ (by omega)
  apply lucas_primality l.number (l.base : ZMod l.number)
  · rw [← hcast _ le_rfl, hone, Nat.cast_one]
  · intro q hqp hqd hpow
    rw [← hprod] at hqd
    obtain ⟨r, hr, hqr⟩ := (Prime.dvd_prod_iff hqp.prime).mp hqd
    have hrq : q = r := (Nat.prime_dvd_prime_iff_eq hqp (hc r (hq r hr).1)).mp hqr
    subst hrq
    have hcong : (powMod l.number 256 l.base ((l.number - 1) / q) : ZMod l.number) = (1 : Nat) := by
      rw [hcast _ (Nat.div_le_self _ _), hpow, Nat.cast_one]
    rw [ZMod.natCast_eq_natCast_iff', Nat.mod_eq_of_lt h1] at hcong
    exact (hq q hr).2 hcong

def check : (certified : List Nat) → List Link → Bool
  | _, [] => true
  | certified, l :: ls => l.check certified && check (l.number :: certified) ls

theorem check_prime (hc : ∀ q ∈ certified, q.Prime) {ls : List Link} (h : check certified ls = true) :
    ∀ l ∈ ls, l.number.Prime := by
  induction ls generalizing certified with
  | nil => simp
  | cons l ls ih =>
    rw [check, Bool.and_eq_true] at h
    have hl : l.number.Prime := l.check_prime hc h.1
    have hc' : ∀ q ∈ l.number :: certified, q.Prime := by
      intro q hq
      rcases List.mem_cons.mp hq with rfl | hq
      · exact hl
      · exact hc q hq
    intro k hk
    rcases List.mem_cons.mp hk with rfl | hk
    · exact hl
    · exact ih hc' h.2 k hk

end LucasChain
