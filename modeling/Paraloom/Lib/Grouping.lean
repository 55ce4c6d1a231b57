import Paraloom.Lib.Table

/-!
# Groups of a list

The elements of a list grouped by a key, and the largest of a list under a weight, the last one where several are largest. A group
holds the elements with its key in the order of the list.
-/

namespace Grouping

open List

variable {α K : Type}

/-- The largest element under a weight, the last of them. -/
def maxByKey (weight : α → Nat) : List α → Option α
  | [] => none
  | x :: xs => some (xs.foldl (fun best y => if weight y < weight best then best else y) x)

theorem maxByKey_isSome (h : xs ≠ []) : ∃ x, maxByKey weight xs = some x := by
  cases xs with
  | nil => exact absurd rfl h
  | cons x xs => exact ⟨_, rfl⟩

/-- The largest element is one of the list, and no other weighs more. -/
theorem maxByKey_spec (h : maxByKey weight xs = some best) : best ∈ xs ∧ ∀ y ∈ xs, weight y ≤ weight best := by
  cases xs with
  | nil => cases h
  | cons x xs =>
    obtain rfl := Option.some.inj h
    clear h
    induction xs generalizing x with
    | nil => simp
    | cons y ys ih =>
      rw [foldl_cons]
      obtain ⟨hmem, hle⟩ := ih (if weight y < weight x then x else y)
      split at hmem
      · rename_i hlt
        rw [if_pos hlt] at hle ⊢
        refine ⟨?_, ?_⟩
        · rcases mem_cons.mp hmem with heq | hmem
          · exact mem_cons.mpr (.inl heq)
          · exact mem_cons_of_mem _ (mem_cons_of_mem _ hmem)
        · have hx := hle x mem_cons_self
          intro z hz
          rcases mem_cons.mp hz with rfl | hz
          · exact hx
          · rcases mem_cons.mp hz with rfl | hz
            · exact hlt.le.trans hx
            · exact hle z (mem_cons_of_mem _ hz)
      · rename_i hnlt
        rw [if_neg hnlt] at hle ⊢
        refine ⟨mem_cons_of_mem _ hmem, ?_⟩
        have hy := hle y mem_cons_self
        intro z hz
        rcases mem_cons.mp hz with rfl | hz
        · exact (Nat.not_lt.mp hnlt).trans hy
        · rcases mem_cons.mp hz with rfl | hz
          · exact hy
          · exact hle z (mem_cons_of_mem _ hz)

variable [DecidableEq K]

def groupBy (key : α → K) (xs : List α) : Table K (List α) :=
  xs.foldl (fun groups x => groups.insert (key x) ((groups.lookup (key x)).getD [] ++ [x])) ∅

theorem groupBy_concat (key : α → K) (xs : List α) : groupBy key (xs ++ [x]) =
    (groupBy key xs).insert (key x) (((groupBy key xs).lookup (key x)).getD [] ++ [x]) := by
  rw [groupBy, foldl_append]
  rfl

theorem lookup_groupBy (key : α → K) (xs : List α) (k : K) : ((groupBy key xs).lookup k).getD [] = xs.filter (key · = k) := by
  induction xs using reverseRecOn with
  | nil => rfl
  | append_singleton xs x ih =>
    rw [groupBy_concat, filter_append]
    by_cases hk : k = key x
    · subst hk
      rw [AList.lookup_insert, Option.getD_some, ih, filter_singleton]
      simp
    · rw [AList.lookup_insert_ne hk, ih, filter_singleton]
      simp [Ne.symm hk]

theorem groupBy_ne_nil {k : K} (h : (groupBy key xs).lookup k = some group) : group ≠ [] := by
  induction xs using reverseRecOn with
  | nil => cases h
  | append_singleton xs x ih =>
    rw [groupBy_concat] at h
    by_cases hk : k = key x
    · subst hk
      rw [AList.lookup_insert] at h
      rw [← Option.some.inj h]
      exact concat_ne_nil _ _
    · rw [AList.lookup_insert_ne hk] at h
      exact ih h

/-- The groups are the non-empty sublists of the elements with one key. -/
theorem lookup_groupBy_iff {k : K} : (groupBy key xs).lookup k = some group ↔ group = xs.filter (key · = k) ∧ group ≠ [] := by
  have hgroup := lookup_groupBy key xs k
  constructor
  · intro h
    rw [h, Option.getD_some] at hgroup
    exact ⟨hgroup, groupBy_ne_nil h⟩
  · rintro ⟨rfl, hne⟩
    cases hlookup : (groupBy key xs).lookup k with
    | none =>
      rw [hlookup, Option.getD_none] at hgroup
      exact absurd hgroup.symm hne
    | some group =>
      rw [hlookup, Option.getD_some] at hgroup
      rw [hgroup]

variable {key : α → K} {xs : List α}

theorem largest_group {order : Table.Order K (List α)} {group : List α}
    (h : maxByKey (·.2.length) (order.visit (groupBy key xs)) = some ⟨k, group⟩) :
    group = xs.filter (key · = k) ∧ group ≠ [] ∧ ∀ k', (xs.filter (key · = k')).length ≤ group.length := by
  obtain ⟨hmem, hmax⟩ := maxByKey_spec h
  have hlookup : (groupBy key xs).lookup k = some group :=
    AList.mem_lookup_iff.mpr ((order.visit_perm _).mem_iff.mp hmem)
  obtain ⟨hgroup, hne⟩ := lookup_groupBy_iff.mp hlookup
  refine ⟨hgroup, hne, ?_⟩
  intro k'
  by_cases hempty : xs.filter (key · = k') = []
  · rw [hempty]
    exact Nat.zero_le _
  · have hother := lookup_groupBy_iff.mpr ⟨rfl, hempty⟩
    exact hmax _ ((order.visit_perm _).mem_iff.mpr (AList.mem_lookup_iff.mp hother))

theorem exists_largest_group (order : Table.Order K (List α)) (h : xs ≠ []) :
    ∃ group, maxByKey (·.2.length) (order.visit (groupBy key xs)) = some group := by
  obtain ⟨x, hx⟩ := exists_mem_of_ne_nil xs h
  have hgroup : xs.filter (key · = key x) ≠ [] := ne_nil_of_mem (mem_filter.mpr ⟨hx, by simp⟩)
  have hmem := AList.mem_lookup_iff.mp (lookup_groupBy_iff.mpr ⟨rfl, hgroup⟩)
  exact maxByKey_isSome (ne_nil_of_mem ((order.visit_perm _).mem_iff.mpr hmem))

/-- Two groups together have at most all the elements. -/
theorem length_add_length_le (h : k ≠ k') : (xs.filter (key · = k)).length + (xs.filter (key · = k')).length ≤ xs.length := by
  induction xs with
  | nil => simp
  | cons x xs ih =>
    by_cases hk : key x = k
    · have hk' : key x ≠ k' := fun e => h (hk.symm.trans e)
      rw [filter_cons_of_pos (by simpa using hk), filter_cons_of_neg (by simpa using hk'), length_cons, length_cons]
      omega
    · rw [filter_cons_of_neg (by simpa using hk), length_cons]
      have hle : ((x :: xs).filter (key · = k')).length ≤ (xs.filter (key · = k')).length + 1 := by
        rw [filter_cons]
        split <;> simp
      omega

end Grouping
