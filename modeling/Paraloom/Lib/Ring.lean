import Mathlib

/-!
# Rings of recent values

A vector used as a ring: a new value goes into the slot after the newest one, round and round, so a slot is named by the age of
what it holds. A push makes every value one older, except for the oldest one, which it writes over.
-/

namespace Ring

variable {α : Type} {N : Nat} [NeZero N]

/-- The slot that was written an age ago, counted in pushes. -/
def slot (top : Fin N) (age : Nat) : Fin N := top - Fin.ofNat N age

/-- The value that was pushed an age ago. -/
def recent (values : List.Vector α N) (top : Fin N) (age : Nat) : α := values.get (slot top age)

@[simp] theorem slot_zero (top : Fin N) : slot top 0 = top := by
  simp [slot]

theorem slot_succ (top : Fin N) (age : Nat) : slot top (age + 1) = slot top age - 1 := by
  have hsum : Fin.ofNat N (age + 1) = Fin.ofNat N age + 1 := by
    ext
    simp [Fin.val_add]
  rw [slot, slot, hsum, sub_add_eq_sub_sub]

theorem slot_push (top : Fin N) : slot (top + 1) (age + 1) = slot top age := by
  rw [slot_succ, slot, slot, add_sub_right_comm, add_sub_cancel_right]

theorem slot_injOn (top : Fin N) (h : age < N) (h' : age' < N) (heq : slot top age = slot top age') : age = age' := by
  have hval := congrArg Fin.val (sub_right_injective heq)
  rwa [Fin.val_ofNat, Fin.val_ofNat, Nat.mod_eq_of_lt h, Nat.mod_eq_of_lt h'] at hval

theorem recent_push_zero (values : List.Vector α N) (top : Fin N) (x : α) :
    recent (values.set (top + 1) x) (top + 1) 0 = x := by
  rw [recent, slot_zero, List.Vector.get_set_same]

theorem recent_push_succ (values : List.Vector α N) (top : Fin N) (x : α) (h : age + 1 < N) :
    recent (values.set (top + 1) x) (top + 1) (age + 1) = recent values top age := by
  have hne : slot (top + 1) (age + 1) ≠ top + 1 := by
    intro heq
    rw [← slot_zero (top + 1)] at heq
    exact absurd (slot_injOn (top + 1) h (Nat.pos_of_neZero N) (by rwa [slot_zero] at heq ⊢)) (Nat.succ_ne_zero age)
  rw [recent, List.Vector.get_set_of_ne hne.symm, slot_push, recent]

end Ring
