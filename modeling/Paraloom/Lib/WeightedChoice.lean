import Mathlib.Algebra.BigOperators.Group.List.Basic
import Mathlib.Algebra.Ring.Nat

/-!
# Choice by cumulative weight

A list of weighted elements is walked up to the first element at which the sum of the weights so far exceeds a value. Each
element owns an interval of values as long as its weight. One element is chosen in every order exactly when its weight exceeds
both the value and all that the value leaves of the total.
-/

namespace WeightedChoice

open List

variable {α : Type} (weight : α → Nat)

/-- The first element at which the sum of the weights exceeds the value. -/
def choose (value : Nat) : (cumulative : Nat) → List α → Option α
  | _, [] => none
  | cumulative, a :: as =>
    if value < cumulative + weight a then some a else choose value (cumulative + weight a) as

def total (as : List α) : Nat := (as.map weight).sum

variable {weight} {value cumulative : Nat} {a : α} {as bs : List α}

theorem total_append : total weight (as ++ bs) = total weight as + total weight bs := by
  simp [total]

theorem total_cons : total weight (a :: as) = weight a + total weight as := by
  simp [total]

theorem total_perm (h : as.Perm bs) : total weight as = total weight bs := (h.map weight).sum_eq

theorem exists_choose (hvalue : cumulative ≤ value) (h : value < cumulative + total weight as) :
    ∃ a, choose weight value cumulative as = some a := by
  induction as generalizing cumulative with
  | nil => exact absurd h (Nat.not_lt.mpr hvalue)
  | cons b as ih =>
    rw [choose]
    split
    · exact ⟨b, rfl⟩
    · rename_i hge
      rw [total_cons, ← Nat.add_assoc] at h
      exact ih (Nat.le_of_not_lt hge) h

/-- The chosen element, and the interval that it owns. -/
theorem choose_some (h : choose weight value cumulative as = some a) (hvalue : cumulative ≤ value) :
    ∃ before after, as = before ++ a :: after ∧ cumulative + total weight before ≤ value ∧
      value < cumulative + total weight before + weight a := by
  induction as generalizing cumulative with
  | nil => cases h
  | cons b as ih =>
    rw [choose] at h
    split at h
    · rename_i hlt
      obtain rfl := Option.some.inj h
      exact ⟨[], as, rfl, hvalue, hlt⟩
    · rename_i hge
      obtain ⟨before, after, rfl, hbefore, hinterval⟩ := ih h (Nat.le_of_not_lt hge)
      refine ⟨b :: before, after, rfl, ?_, ?_⟩
      · rwa [total_cons, ← Nat.add_assoc]
      · rwa [total_cons, ← Nat.add_assoc]

theorem mem_of_choose (h : choose weight value 0 as = some a) : a ∈ as := by
  obtain ⟨before, after, rfl, -, -⟩ := choose_some h (Nat.zero_le _)
  exact mem_append_right _ (mem_cons_self ..)

/-- An element whose interval contains the value is chosen. -/
theorem choose_of_interval (hbefore : cumulative + total weight as ≤ value)
    (hinterval : value < cumulative + total weight as + weight a) :
    choose weight value cumulative (as ++ a :: bs) = some a := by
  induction as generalizing cumulative with
  | nil =>
    rw [nil_append, choose]
    exact if_pos hinterval
  | cons b as ih =>
    rw [total_cons, ← Nat.add_assoc] at hbefore hinterval
    rw [cons_append, choose, if_neg (by omega)]
    exact ih hbefore hinterval

/-- The choice does not look behind the value. -/
theorem choose_append_of_lt (hvalue : cumulative ≤ value) (h : value < cumulative + total weight as) :
    choose weight value cumulative (as ++ bs) = choose weight value cumulative as := by
  induction as generalizing cumulative with
  | nil => exact absurd h (Nat.not_lt.mpr hvalue)
  | cons b as ih =>
    rw [cons_append, choose, choose]
    split
    · rfl
    · rename_i hge
      rw [total_cons, ← Nat.add_assoc] at h
      exact ih (Nat.le_of_not_lt hge) h

/-- What makes the choice the same in every order. -/
theorem choose_perm_iff (hnodup : as.Nodup) (hvalue : value < total weight as) :
    (∀ bs cs : List α, bs.Perm as → cs.Perm as → choose weight value 0 bs = choose weight value 0 cs) ↔
      ∃ a ∈ as, value < weight a ∧ total weight as ≤ value + weight a := by
  constructor
  · intro hsame
    obtain ⟨a, ha⟩ := exists_choose (Nat.zero_le value) (by rwa [Nat.zero_add])
    obtain ⟨before, after, rfl, -, -⟩ := choose_some ha (Nat.zero_le _)
    have hrest : a ∉ before ++ after := (nodup_cons.mp (perm_middle.nodup_iff.mp hnodup)).1
    have hfirst : (a :: (before ++ after)).Perm (before ++ a :: after) := perm_middle.symm
    have hlast : (before ++ after ++ [a]).Perm (before ++ a :: after) :=
      (perm_append_singleton a (before ++ after)).trans hfirst
    refine ⟨a, mem_append_right _ (mem_cons_self ..), ?_, ?_⟩
    · -- as the first of all it is chosen, so the value is below its weight
      by_contra hge
      have hchoose := (hsame _ _ hfirst (List.Perm.refl _)).trans ha
      rw [choose, Nat.zero_add, if_neg hge] at hchoose
      obtain ⟨_, _, hsplit, -, -⟩ := choose_some hchoose (Nat.le_of_not_lt hge)
      exact hrest (hsplit ▸ mem_append_right _ (mem_cons_self ..))
    · -- as the last of all it is chosen, so the others do not reach the value
      have htotal : total weight (before ++ a :: after) = total weight (before ++ after) + weight a := by
        rw [← total_perm hlast, total_append, total_cons]
        rfl
      rw [htotal]
      refine Nat.add_le_add_right (Nat.le_of_not_lt fun hlt => hrest ?_) _
      have hchoose := (hsame _ _ hlast (List.Perm.refl _)).trans ha
      rw [choose_append_of_lt (Nat.zero_le value) (by rwa [Nat.zero_add])] at hchoose
      exact mem_of_choose hchoose
  · rintro ⟨a, ha, hlt, hle⟩ bs cs hbs hcs
    have hchosen : ∀ ds : List α, ds.Perm as → choose weight value 0 ds = some a := by
      intro ds hds
      obtain ⟨before, after, rfl⟩ := append_of_mem (hds.mem_iff.mpr ha)
      have htotal : total weight as = total weight before + (weight a + total weight after) := by
        rw [← total_perm hds, total_append, total_cons]
      refine choose_of_interval ?_ ?_
      · omega
      · omega
    rw [hchosen bs hbs, hchosen cs hcs]

end WeightedChoice
