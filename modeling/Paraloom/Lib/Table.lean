import Mathlib.Algebra.BigOperators.Group.Finset.Basic
import Mathlib.Data.List.AList
import Mathlib.Algebra.Order.BigOperators.Group.List
import Mathlib.Algebra.Order.Ring.Nat

/-!
# Finite tables and their totals

A finite map from keys to values, and the sum of a weight over its entries. Writing one entry changes the total by the
difference of that entry's weights, which is all an accounting argument needs to know about the table.
-/

/-- A finite map from `K` to `V`. -/
abbrev Table (K V : Type) : Type := AList (fun _ : K => V)

namespace Table

open List

/-- An order in which a map iterates over its entries: any arrangement of them. -/
structure Order (K V : Type) where
  visit : Table K V → List (Sigma fun _ : K => V)
  visit_perm : ∀ t, (visit t).Perm t.entries

variable {K V : Type}

def total (f : K → V → Nat) (t : Table K V) : Nat := (t.entries.map fun e => f e.1 e.2).sum

@[simp] theorem total_empty (f : K → V → Nat) : total f (∅ : Table K V) = 0 := rfl

def mapValues {W : Type} (f : V → W) (t : Table K V) : Table K W where
  entries := t.entries.map fun e => ⟨e.1, f e.2⟩
  nodupKeys := by
    have hkeys : (t.entries.map fun e => (⟨e.1, f e.2⟩ : Sigma fun _ : K => W)).keys = t.entries.keys := by
      simp [keys]
    rw [List.NodupKeys, hkeys]
    exact t.nodupKeys

variable [DecidableEq K]

section Total

variable (f : K → V → Nat)
include f

theorem total_erase (h : t.lookup k = some v) : total f (t.erase k) + f k v = total f t := by
  -- the erased list, entry by entry: the first entry with the key is the one the lookup found
  have hlist : ∀ es : List (Sigma fun _ : K => V), es.dlookup k = some v →
      ((es.kerase k).map fun e => f e.1 e.2).sum + f k v = (es.map fun e => f e.1 e.2).sum := by
    intro es hes
    induction es with
    | nil => simp at hes
    | cons e es ih =>
      by_cases hk : k = e.1
      · subst hk
        rw [dlookup_cons_eq, Option.some.injEq] at hes
        simp [hes, Nat.add_comm]
      · rw [dlookup_cons_ne _ _ hk] at hes
        rw [kerase_cons_ne hk]
        simp only [map_cons, sum_cons]
        rw [Nat.add_assoc, ih hes]
  exact hlist t.entries h

theorem total_insert (w : V) (h : t.lookup k = some v) : total f (t.insert k w) + f k v = total f t + f k w := by
  have herase := total_erase f h
  have hcons : total f (t.insert k w) = f k w + total f (t.erase k) := by
    rw [total, AList.entries_insert, map_cons, sum_cons]
    rfl
  omega

theorem total_insert_new (w : V) (h : t.lookup k = none) : total f (t.insert k w) = total f t + f k w := by
  rw [total, AList.entries_insert_of_notMem (AList.lookup_eq_none.mp h)]
  simp [total, Nat.add_comm]

theorem total_erase_le (t : Table K V) (k : K) : total f (t.erase k) ≤ total f t := by
  cases h : t.lookup k with
  | none =>
    have hsame : t.erase k = t := AList.ext (kerase_of_notMem_keys (AList.lookup_eq_none.mp h))
    rw [hsame]
  | some v =>
    have := total_erase f h
    omega

theorem total_insert_le (t : Table K V) (k : K) (w : V) : total f (t.insert k w) ≤ total f t + f k w := by
  cases h : t.lookup k with
  | none => rw [total_insert_new f w h]
  | some v =>
    have := total_insert f w h
    omega

theorem le_total (h : t.lookup k = some v) : f k v ≤ total f t := by
  have := total_erase f h
  omega

end Total

/-- A total is at most another when every entry is. -/
theorem total_le_total {t : Table K V} (h : ∀ k v, t.lookup k = some v → f k v ≤ g k v) : total f t ≤ total g t := by
  unfold total
  apply sum_le_sum
  intro e he
  exact h e.1 e.2 (AList.mem_lookup_iff.mpr he)

theorem total_eq_zero {t : Table K V} (h : ∀ k v, t.lookup k = some v → f k v = 0) : total f t = 0 := by
  have hle : total f t ≤ total (fun _ _ => 0) t := total_le_total (fun k v hv => (h k v hv).le)
  simpa [total] using hle

/-- The weight of a key: of its entry, or zero where there is none. -/
def weight (f : K → V → Nat) (t : Table K V) (k : K) : Nat := (t.lookup k).elim 0 (f k)

theorem weight_of_not_mem {k : K} (h : k ∉ t) : weight f t k = 0 := by
  simp [weight, AList.lookup_eq_none.mpr h]

theorem sum_weight_le_total (f : K → V → Nat) (t : Table K V) (A : Finset K) : ∑ k ∈ A, weight f t k ≤ total f t := by
  induction A using Finset.induction_on generalizing t with
  | empty => simp
  | insert k A hk ih =>
    rw [Finset.sum_insert hk]
    cases h : t.lookup k with
    | none => simpa [weight, h] using ih t
    | some v =>
      have hrest : ∑ j ∈ A, weight f t j = ∑ j ∈ A, weight f (t.erase k) j := by
        apply Finset.sum_congr rfl
        intro j hj
        have hne : j ≠ k := fun e => hk (e ▸ hj)
        rw [weight, weight, AList.lookup_erase_ne hne]
      have herase := total_erase f h
      have hle := ih (t.erase k)
      simp only [weight, h, Option.elim_some] at hrest hle ⊢
      omega

/-- A total as a sum over any set of keys outside of which nothing weighs. -/
theorem total_eq_sum (f : K → V → Nat) (t : Table K V) (hA : ∀ k, k ∉ A → weight f t k = 0) :
    total f t = ∑ k ∈ A, weight f t k := by
  have hentries : total f t = (t.keys.map (weight f t)).sum := by
    unfold total AList.keys keys
    rw [map_map]
    congr 1
    apply map_congr_left
    intro e he
    have hlookup : t.lookup e.1 = some e.2 := AList.mem_lookup_iff.mpr he
    simp [weight, hlookup]
  rw [hentries, ← sum_toFinset _ t.keys_nodup]
  -- both sums are the sum over the union
  calc ∑ k ∈ t.keys.toFinset, weight f t k
      = ∑ k ∈ t.keys.toFinset ∪ A, weight f t k := by
        refine Finset.sum_subset Finset.subset_union_left fun k _ hk => weight_of_not_mem ?_
        exact fun hmem => hk (mem_toFinset.mpr hmem)
    _ = ∑ k ∈ A, weight f t k :=
        (Finset.sum_subset Finset.subset_union_right fun k _ hk => hA k hk).symm

/-- Two tables in which every key weighs the same have the same total. -/
theorem total_congr {g : K → W → Nat} (h : ∀ k, weight f t k = weight g t' k) : total f t = total g t' := by
  have hleft : ∀ k, k ∉ t.keys.toFinset → weight f t k = 0 := fun k hk =>
    weight_of_not_mem fun hmem => hk (mem_toFinset.mpr hmem)
  rw [total_eq_sum f t hleft, total_eq_sum g t' fun k hk => (h k).symm.trans (hleft k hk)]
  exact Finset.sum_congr rfl fun k _ => h k

theorem total_update {k : K} (h : t.lookup k = some v) (hsame : ∀ k', k' ≠ k → g k' = f k') :
    total g t + f k v = total f t + g k v := by
  have hrest : total g (t.erase k) = total f (t.erase k) := by
    refine total_congr fun k' => ?_
    by_cases hk : k' = k
    · rw [hk, weight, weight, AList.lookup_erase, Option.elim_none, Option.elim_none]
    · rw [weight, weight, hsame k' hk]
  have hf := total_erase f h
  have hg := total_erase g h
  omega

theorem lookup_insert_if (t : Table K V) (k : K) (v : V) (k' : K) :
    (t.insert k v).lookup k' = if k' = k then some v else t.lookup k' := by
  split
  · rename_i h
    rw [h, AList.lookup_insert]
  · rename_i h
    rw [AList.lookup_insert_ne h]

/-- What is found after a write is what was written, or it was there under another key. -/
theorem lookup_insert_eq_some {t : Table K V} :
    (t.insert k v).lookup k' = some w ↔ k' = k ∧ w = v ∨ k' ≠ k ∧ t.lookup k' = some w := by
  rw [lookup_insert_if]
  by_cases hk : k' = k
  · simp [hk, eq_comm]
  · simp [hk]

theorem lookup_erase_if (t : Table K V) (k k' : K) : (t.erase k).lookup k' = if k' = k then none else t.lookup k' := by
  split
  · rename_i h
    rw [h, AList.lookup_erase]
  · rename_i h
    rw [AList.lookup_erase_ne h]

theorem lookup_mapValues (f : V → W) (t : Table K V) (k : K) : (t.mapValues f).lookup k = (t.lookup k).map f := by
  have hlist : ∀ es : List (Sigma fun _ : K => V),
      (es.map fun e => (⟨e.1, f e.2⟩ : Sigma fun _ : K => W)).dlookup k = (es.dlookup k).map f := by
    intro es
    induction es with
    | nil => rfl
    | cons e es ih =>
      obtain ⟨k', v⟩ := e
      by_cases hk : k = k'
      · subst hk
        simp
      · rw [map_cons, dlookup_cons_ne _ _ hk, dlookup_cons_ne _ _ hk, ih]
  exact hlist t.entries

theorem lookup_foldl_insert (key : E → K) (value : E → V) (k : K) : ∀ (l : List E) (t : Table K V),
    (l.foldl (fun t e => t.insert (key e) (value e)) t).lookup k =
      ((l.reverse.find? fun e => key e = k).map value).or (t.lookup k)
  | [], _ => by simp
  | e :: l, t => by
    rw [foldl_cons, lookup_foldl_insert key value k l, lookup_insert_if, reverse_cons, find?_append, find?_singleton]
    cases l.reverse.find? fun e => key e = k with
    | some _ => rfl
    | none =>
      by_cases hk : key e = k
      · simp [hk]
      · simp [hk, Ne.symm hk]

theorem lookup_foldl_erase : ∀ (ks : List K) (t : Table K V),
    (ks.foldl (fun t k => t.erase k) t).lookup k = if k ∈ ks then none else t.lookup k
  | [], t => by simp
  | k' :: ks, t => by
    rw [foldl_cons, lookup_foldl_erase ks, lookup_erase_if]
    by_cases hk : k = k'
    · simp [hk]
    · simp [hk]

end Table
