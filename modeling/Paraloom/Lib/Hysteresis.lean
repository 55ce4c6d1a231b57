import Mathlib.Order.Basic

/-!
# Absences with a limit

A member is looked for once a tick. While it is there its age is zero, and with every tick it is away it gets one older, until
the limit is reached and it is given up. The age before a tick is the number of ticks since the member was last there, which
says when it is given up by the trace of its presence alone.
-/

namespace Hysteresis

/-- The age after a tick; a member that is not followed has none. -/
def next (limit : Nat) (age : Option Nat) (present : Prop) [Decidable present] : Option Nat :=
  if present then some 0 else age.bind fun a => if limit ≤ a + 1 then none else some (a + 1)

/-- At this tick the member is given up. -/
def Dropped (limit : Nat) (age : Option Nat) (present : Prop) : Prop := ¬present ∧ ∃ a, age = some a ∧ limit ≤ a + 1

/-- The member was last there at tick `j`, looking back from tick `k`. -/
structure LastSeen (present : Nat → Prop) (j k : Nat) : Prop where
  before : j < k
  seen : present j
  absent : ∀ i, j < i → i < k → ¬present i

variable {present : Nat → Prop}

theorem LastSeen.unique (h : LastSeen present j k) (h' : LastSeen present j' k) : j = j' := by
  rcases Nat.lt_trichotomy j j' with hlt | heq | hgt
  · exact absurd h'.seen (h.absent j' hlt h'.before)
  · exact heq
  · exact absurd h.seen (h'.absent j hgt h.before)

theorem LastSeen.now (h : present k) : LastSeen present k (k + 1) where
  before := Nat.lt_succ_self k
  seen := h
  absent := fun _ hlt hgt => absurd hgt (by omega)

theorem LastSeen.later (h : LastSeen present j k) (habsent : ¬present k) : LastSeen present j (k + 1) where
  before := Nat.lt_succ_of_lt h.before
  seen := h.seen
  absent := by
    intro i hlt hgt
    rcases Nat.lt_succ_iff_lt_or_eq.mp hgt with hi | rfl
    · exact h.absent i hlt hi
    · exact habsent

theorem LastSeen.earlier (h : LastSeen present j (k + 1)) (habsent : ¬present k) : LastSeen present j k where
  before := Nat.lt_of_le_of_ne (Nat.le_of_lt_succ h.before) fun heq => habsent (heq ▸ h.seen)
  seen := h.seen
  absent := fun i hlt hgt => h.absent i hlt (Nat.lt_succ_of_lt hgt)

/-- The age before each tick, of a member that is not followed at first. -/
def ages (limit : Nat) (present : Nat → Prop) [DecidablePred present] : Nat → Option Nat
  | 0 => none
  | k + 1 => next limit (ages limit present k) (present k)

variable {limit : Nat} [DecidablePred present]

/-- The age counts the ticks since the member was last there, and stays below the limit. -/
theorem ages_eq_some_iff (k a : Nat) :
    ages limit present k = some a ↔ a < max limit 1 ∧ ∃ j, LastSeen present j k ∧ k = j + a + 1 := by
  induction k generalizing a with
  | zero => simp [ages]
  | succ k ih =>
    by_cases hnow : present k
    · rw [ages, next, if_pos hnow, Option.some.injEq]
      constructor
      · rintro rfl
        exact ⟨by omega, k, LastSeen.now hnow, rfl⟩
      · rintro ⟨-, j, hseen, hk⟩
        have hj := hseen.unique (LastSeen.now hnow)
        omega
    · rw [ages, next, if_neg hnow, Option.bind_eq_some_iff]
      constructor
      · rintro ⟨b, hb, hnext⟩
        obtain ⟨-, j, hseen, hk⟩ := (ih b).mp hb
        split at hnext
        · cases hnext
        · obtain rfl := Option.some.inj hnext
          exact ⟨by omega, j, hseen.later hnow, by omega⟩
      · rintro ⟨hlimit, j, hseen, hk⟩
        have hearlier := hseen.earlier hnow
        have hbefore := hearlier.before
        refine ⟨a - 1, (ih (a - 1)).mpr ⟨by omega, j, hearlier, by omega⟩, ?_⟩
        rw [if_neg (by omega), show a - 1 + 1 = a by omega]

/-- A member is given up when it has been away for as many ticks as the limit, and for one at least. -/
theorem dropped_iff (k : Nat) : Dropped limit (ages limit present k) (present k) ↔
      ∃ j < k, present j ∧ (∀ i, j < i → i ≤ k → ¬present i) ∧ k - j = max limit 1 := by
  constructor
  · rintro ⟨hnow, a, hage, hlimit⟩
    obtain ⟨hlt, j, hseen, hk⟩ := (ages_eq_some_iff k a).mp hage
    have hlater := hseen.later hnow
    exact ⟨j, hseen.before, hseen.seen, fun i hi hik => hlater.absent i hi (Nat.lt_succ_of_le hik), by omega⟩
  · rintro ⟨j, hjk, hj, habsent, hk⟩
    have hseen : LastSeen present j k := ⟨hjk, hj, fun i hi hik => habsent i hi (Nat.le_of_lt hik)⟩
    exact ⟨habsent k hjk (Nat.le_refl k), k - j - 1, (ages_eq_some_iff k _).mpr ⟨by omega, j, hseen, by omega⟩, by omega⟩

end Hysteresis
