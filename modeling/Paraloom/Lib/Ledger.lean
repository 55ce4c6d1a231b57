import Paraloom.Lib.Table
import Paraloom.Lib.Checked
import Mathlib.Algebra.Order.BigOperators.Group.Finset

/-!
# Ledgers

A ledger holds a 64-bit balance for every address, zero where nothing is recorded. The one operation is a move between two
addresses, which fails on an overdraft and on an overflow. A move exchanges balance between its two ends, leaves every
other address alone and keeps the supply, also when its two ends are one address.
-/

/-- Balances by address. -/
abbrev Ledger (K : Type) : Type := Table K Nat

namespace Ledger

open Table

variable {K : Type} [DecidableEq K]

def balance (l : Ledger K) (k : K) : Nat := (l.lookup k).getD 0

/-- The sum of all balances. -/
def supply (l : Ledger K) : Nat := total (fun _ n => n) l

def setBalance (l : Ledger K) (k : K) (n : Nat) : Ledger K := l.insert k n

/-- Take `n` from the balance of an address. -/
def debit (l : Ledger K) (a : K) (n : Nat) : Ledger K := setBalance l a (balance l a - n)

/-- Move `n` from `a` to `b`: nothing on an overdraft of `a` or an overflow of `b`. -/
def move (l : Ledger K) (a b : K) (n : Nat) : Option (Ledger K) :=
  if balance l a < n then none
  else if Checked.u64Max < balance (debit l a n) b + n then none
  else some (setBalance (debit l a n) b (balance (debit l a n) b + n))

@[simp] theorem balance_setBalance (k : K) (n : Nat) (k' : K) :
    balance (setBalance l k n) k' = if k' = k then n else balance l k' := by
  simp only [balance, setBalance, lookup_insert_if]
  split <;> rfl

theorem supply_setBalance (l : Ledger K) (k : K) (n : Nat) : supply (setBalance l k n) + balance l k = supply l + n := by
  cases h : l.lookup k with
  | none => simp [supply, setBalance, balance, h, total_insert_new _ n h]
  | some v => simp [supply, setBalance, balance, h, total_insert _ n h]

theorem move_some_iff {a b : K} : move l a b n = some l' ↔ n ≤ balance l a ∧ balance (debit l a n) b + n ≤ Checked.u64Max ∧
      setBalance (debit l a n) b (balance (debit l a n) b + n) = l' := by
  rw [← Nat.not_lt, ← Nat.not_lt]
  by_cases hfunds : balance l a < n
  · simp [move, hfunds]
  · by_cases hfits : Checked.u64Max < balance (debit l a n) b + n <;> simp [move, hfunds, hfits]

/-- What a transfer of `n` from `a` to `b` does: the source covers it, every address loses what it sent and gains what it got,
and the supply stays. -/
structure Moved (l : Ledger K) (a b : K) (n : Nat) (l' : Ledger K) : Prop where
  funds : n ≤ balance l a
  change : ∀ k, balance l' k + (if k = a then n else 0) = balance l k + (if k = b then n else 0)
  supply : supply l' = supply l

theorem move_moved {a b : K} (h : move l a b n = some l') : Moved l a b n l' := by
  obtain ⟨hfunds, -, rfl⟩ := move_some_iff.mp h
  refine ⟨hfunds, fun k => ?_, ?_⟩
  · simp only [balance_setBalance, debit]
    by_cases hka : k = a
    · by_cases hkb : k = b
      · subst hka; subst hkb; simp; omega
      · subst hka; simp [hkb]; omega
    · by_cases hkb : k = b
      · subst hkb; simp [hka]
      · simp [hka, hkb]
  · have hdebit := supply_setBalance l a (balance l a - n)
    have hcredit := supply_setBalance (debit l a n) b (balance (debit l a n) b + n)
    unfold debit at *
    omega

theorem Moved.refl (l : Ledger K) (a b : K) : Moved l a b 0 l := ⟨Nat.zero_le _, fun k => by simp, rfl⟩

namespace Moved

variable {l l' : Ledger K} {a b k : K} {n : Nat}

/-- Only the source can lose. -/
theorem le_balance (h : Moved l a b n l') (hk : k ≠ a) : balance l k ≤ balance l' k := by
  have := h.change k
  rw [if_neg hk] at this
  omega

theorem balance_of_ne (h : Moved l a b n l') (ha : k ≠ a) (hb : k ≠ b) : balance l' k = balance l k := by
  simpa [ha, hb] using h.change k

theorem balance_target (h : Moved l a b n l') (hab : b ≠ a) : balance l' b = balance l b + n := by
  simpa [hab] using h.change b

theorem balance_source (h : Moved l a b n l') (hab : a ≠ b) : balance l' a + n = balance l a := by
  simpa [hab] using h.change a

end Moved

theorem balance_le_supply (l : Ledger K) (k : K) : balance l k ≤ supply l := by
  cases h : l.lookup k with
  | none => simp [balance, h]
  | some n =>
    rw [balance, h]
    exact le_total (fun _ n => n) h

/-- In a ledger whose supply fits 64 bits a move that its source covers succeeds. -/
theorem exists_move {a : K} (b : K) (hsupply : supply l ≤ Checked.u64Max) (hfunds : n ≤ balance l a) :
    ∃ l', move l a b n = some l' := by
  refine ⟨_, move_some_iff.mpr ⟨hfunds, ?_, rfl⟩⟩
  have hdebit : supply (debit l a n) + balance l a = supply l + (balance l a - n) := supply_setBalance l a _
  have hle := balance_le_supply (debit l a n) b
  omega

/-- A table whose entries are covered by the balances of distinct addresses totals at most the supply. -/
theorem total_le_supply [DecidableEq J] {f : J → V → Nat} {g : J → K} (hg : Function.Injective g)
    (h : ∀ j v, t.lookup j = some v → f j v ≤ balance l (g j)) : total f t ≤ supply l := by
  have hkeys : ∀ j, j ∉ t.keys.toFinset → weight f t j = 0 := fun j hj =>
    weight_of_not_mem fun hmem => hj (List.mem_toFinset.mpr hmem)
  rw [total_eq_sum f t hkeys]
  calc ∑ j ∈ t.keys.toFinset, weight f t j
      ≤ ∑ j ∈ t.keys.toFinset, weight (fun _ n => n) l (g j) := by
        apply Finset.sum_le_sum
        intro j _
        cases hj : t.lookup j with
        | none => simp [weight, hj]
        | some v =>
          have hle := h j v hj
          cases hl : l.lookup (g j) <;> simp_all [weight, balance]
    _ = ∑ k ∈ t.keys.toFinset.image g, weight (fun _ n => n) l k :=
        (Finset.sum_image fun _ _ _ _ heq => hg heq).symm
    _ ≤ supply l := sum_weight_le_total _ l _

end Ledger
