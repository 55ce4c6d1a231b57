import Mathlib.Data.List.Lex
import Mathlib.Data.List.Perm.Basic
import Mathlib.Order.Lattice

/-!
# Ordered key-value columns

A column keeps its entries in the order of their keys, one entry to a key, and is read at a key or in order from a key on. Two
columns that read the same are the same. Over keys in dictionary order the keys with a given beginning are neighbours, so a
scan that stops at the first other key finds all of them.
-/

/-- A column: entries in strictly increasing order of their keys. -/
structure Column (κ ν : Type) [LinearOrder κ] where
  entries : List (κ × ν)
  sorted : entries.Pairwise fun e e' => e.1 < e'.1

namespace Column

open List

variable {κ ν : Type} [LinearOrder κ]

/-- The column without entries. -/
def empty : Column κ ν := ⟨[], List.Pairwise.nil⟩

/-- The value at a key. -/
def get (c : Column κ ν) (k : κ) : Option ν := (c.entries.find? fun e => e.1 = k).map Prod.snd

/-- An entry put in its place, instead of the entry of its key if there is one. -/
def place (k : κ) (v : ν) : List (κ × ν) → List (κ × ν)
  | [] => [(k, v)]
  | e :: es => if k < e.1 then (k, v) :: e :: es else if k = e.1 then (k, v) :: es else e :: place k v es

theorem mem_place {x : κ × ν} (h : x ∈ place k v es) : x = (k, v) ∨ x ∈ es := by
  induction es with
  | nil => simpa [place] using h
  | cons e es ih =>
    unfold place at h
    split at h
    · simpa using h
    · split at h
      · rcases mem_cons.mp h with rfl | h
        · exact .inl rfl
        · exact .inr (mem_cons_of_mem e h)
      · rcases mem_cons.mp h with rfl | h
        · exact .inr mem_cons_self
        · rcases ih h with rfl | h
          · exact .inl rfl
          · exact .inr (mem_cons_of_mem e h)

theorem place_sorted {es : List (κ × ν)} (h : es.Pairwise fun e e' => e.1 < e'.1) :
    (place k v es).Pairwise fun e e' => e.1 < e'.1 := by
  induction es with
  | nil => simp [place]
  | cons e es ih =>
    obtain ⟨he, hes⟩ := pairwise_cons.mp h
    unfold place
    split
    · rename_i hlt
      refine pairwise_cons.mpr ⟨fun x hx => ?_, h⟩
      rcases mem_cons.mp hx with rfl | hx
      · exact hlt
      · exact hlt.trans (he x hx)
    · split
      · rename_i _ heq
        exact pairwise_cons.mpr ⟨fun x hx => by rw [heq]; exact he x hx, hes⟩
      · rename_i hge hne
        refine pairwise_cons.mpr ⟨fun x hx => ?_, ih hes⟩
        rcases mem_place hx with rfl | hx
        · exact lt_of_le_of_ne (not_lt.mp hge) (Ne.symm hne)
        · exact he x hx

/-- Write a value at a key. -/
def put (c : Column κ ν) (k : κ) (v : ν) : Column κ ν := ⟨place k v c.entries, place_sorted c.sorted⟩

/-- A batch of writes, in order. -/
def putAll (c : Column κ ν) (kvs : List (κ × ν)) : Column κ ν := kvs.foldl (fun c kv => c.put kv.1 kv.2) c

@[simp] theorem get_empty (k : κ) : (empty : Column κ ν).get k = none := rfl

/-- A search that looks for a key reads the column there. -/
theorem map_find (c : Column κ ν) (hp : ∀ e, p e = true ↔ e.1 = k) : (c.entries.find? p).map Prod.snd = c.get k := by
  have hsame : p = fun e => decide (e.1 = k) := by
    funext e
    rw [Bool.eq_iff_iff, hp, decide_eq_true_iff]
  rw [hsame, get]

theorem get_put (c : Column κ ν) (k k' : κ) (v : ν) : (c.put k v).get k' = if k' = k then some v else c.get k' := by
  have hfind : ∀ es : List (κ × ν), es.Pairwise (fun e e' => e.1 < e'.1) →
      ((place k v es).find? fun e => e.1 = k').map Prod.snd =
        if k' = k then some v else (es.find? fun e => e.1 = k').map Prod.snd := by
    intro es
    induction es with
    | nil =>
      intro _
      by_cases hk : k = k' <;> simp [place, hk, eq_comm]
    | cons e es ih =>
      intro hes
      obtain ⟨he, hes⟩ := pairwise_cons.mp hes
      unfold place
      split
      · by_cases hk : k' = k
        · simp [hk]
        · simp [hk, Ne.symm hk]
      · split
        · rename_i heq
          by_cases hk : k' = k
          · simp [hk]
          · simp [hk, Ne.symm hk, heq ▸ Ne.symm hk]
        · rename_i hne
          by_cases hk : e.1 = k'
          · subst hk
            simp [Ne.symm hne]
          · simpa [hk] using ih hes
  exact hfind c.entries c.sorted

theorem mem_entries_iff (c : Column κ ν) : (k, v) ∈ c.entries ↔ c.get k = some v := by
  have hmem : ∀ es : List (κ × ν), es.Pairwise (fun e e' => e.1 < e'.1) →
      ((k, v) ∈ es ↔ (es.find? fun e => e.1 = k).map Prod.snd = some v) := by
    intro es
    induction es with
    | nil => simp
    | cons e es ih =>
      intro hes
      obtain ⟨he, hes⟩ := pairwise_cons.mp hes
      by_cases hk : e.1 = k
      · have hnot : (k, v) ∉ es := fun h => absurd (he _ h) (by simp [hk])
        obtain ⟨k', v'⟩ := e
        obtain rfl : k' = k := hk
        simp [hnot, eq_comm]
      · have hne : (k, v) ≠ e := fun h => hk (by rw [← h])
        simp [hk, hne, ih hes]
  exact hmem c.entries c.sorted

theorem nodup_entries (c : Column κ ν) : c.entries.Nodup :=
  c.sorted.imp fun h heq => absurd h (by simp [heq])

theorem ext_get {c c' : Column κ ν} (h : ∀ k, c.get k = c'.get k) : c = c' := by
  have hperm : c.entries.Perm c'.entries := by
    refine (perm_ext_iff_of_nodup c.nodup_entries c'.nodup_entries).mpr ?_
    rintro ⟨k, v⟩
    rw [mem_entries_iff, mem_entries_iff, h]
  have hentries := hperm.eq_of_pairwise (fun _ _ _ _ hlt hgt => absurd hgt hlt.not_gt) c.sorted c'.sorted
  cases c
  cases c'
  cases hentries
  rfl

/-! ## Scans -/

def seek (c : Column κ ν) (k : κ) : List (κ × ν) := c.entries.dropWhile fun e => e.1 < k

/-- The entries from a beginning on, up to the first key without it. -/
def scanPrefix {β : Type} [LinearOrder β] (c : Column (List β) ν) (start : List β) : List (List β × ν) :=
  (c.seek start).takeWhile fun e => start.isPrefixOf e.1

section Bytes

variable {β : Type} [LinearOrder β]

/-- A beginning of a string is not greater than the string. -/
theorem le_of_isPrefix {p k : List β} (h : p <+: k) : p ≤ k := by
  obtain ⟨t, rfl⟩ := h
  induction p with
  | nil => exact not_lt.mp (not_lt_nil _)
  | cons b p ih => exact not_lt.mp fun hlt => not_lt.mpr ih (cons_lt_cons_iff.mp hlt |>.resolve_left (lt_irrefl b)).2

/-- A string between a beginning and a string with that beginning has it too. -/
theorem isPrefix_of_between {p k k' : List β} (hpk : p ≤ k) (hkk' : k ≤ k') (h : p <+: k') : p <+: k := by
  induction p generalizing k k' with
  | nil => exact nil_prefix
  | cons b p ih =>
    obtain ⟨t, rfl⟩ := h
    cases k with
    | nil => exact absurd hpk (not_le.mpr (nil_lt_cons b p))
    | cons x xs =>
      rw [← not_lt, cons_lt_cons_iff] at hpk
      rw [cons_append, ← not_lt, cons_lt_cons_iff] at hkk'
      push Not at hpk hkk'
      obtain rfl : b = x := le_antisymm hpk.1 hkk'.1
      exact cons_prefix_cons.mpr ⟨rfl, ih (hpk.2 rfl) (hkk'.2 rfl) (prefix_append p t)⟩

/-- A scan finds every entry with the beginning, and no other. -/
theorem scanPrefix_eq (c : Column (List β) ν) : c.scanPrefix start = c.entries.filter fun e => start.isPrefixOf e.1 := by
  -- from the first key that is not below the beginning, the keys with it come first
  have htake : ∀ es : List (List β × ν), es.Pairwise (fun e e' => e.1 < e'.1) → (∀ e ∈ es, start ≤ e.1) →
      (es.takeWhile fun e => start.isPrefixOf e.1) = es.filter fun e => start.isPrefixOf e.1 := by
    intro es
    induction es with
    | nil => simp
    | cons e es ih =>
      intro hes hge
      obtain ⟨he, hes⟩ := pairwise_cons.mp hes
      by_cases hp : start <+: e.1
      · simp [hp, ih hes fun x hx => hge x (mem_cons_of_mem e hx)]
      · have hnone : ∀ x ∈ es, ¬ start <+: x.1 :=
          fun x hx hpx => hp (isPrefix_of_between (hge e mem_cons_self) (he x hx).le hpx)
        simpa [hp] using hnone
  have hdrop : ∀ es : List (List β × ν), es.Pairwise (fun e e' => e.1 < e'.1) →
      ((es.dropWhile fun e => e.1 < start).takeWhile fun e => start.isPrefixOf e.1) =
        es.filter fun e => start.isPrefixOf e.1 := by
    intro es
    induction es with
    | nil => simp
    | cons e es ih =>
      intro hes
      by_cases hlt : e.1 < start
      · have hp : ¬ start <+: e.1 := fun hp => absurd hlt (not_lt.mpr (le_of_isPrefix hp))
        simpa [hlt, hp] using ih (pairwise_cons.mp hes).2
      · rw [dropWhile_cons_of_neg (by simpa using hlt)]
        refine htake _ hes fun x hx => ?_
        rcases mem_cons.mp hx with rfl | hx
        · exact not_lt.mp hlt
        · exact (not_lt.mp hlt).trans ((pairwise_cons.mp hes).1 x hx).le
  rw [scanPrefix, seek]
  convert hdrop c.entries c.sorted

theorem scanPrefix_sorted (c : Column (List β) ν) (start : List β) : (c.scanPrefix start).Pairwise fun e e' => e.1 < e'.1 := by
  rw [scanPrefix_eq]
  exact c.sorted.filter _

theorem isPrefix_of_mem_scanPrefix {c : Column (List β) ν} (he : e ∈ c.scanPrefix start) : start <+: e.1 := by
  rw [scanPrefix_eq, mem_filter] at he
  exact isPrefixOf_iff_prefix.mp he.2

theorem find_scanPrefix (c : Column (List β) ν) (hk : start <+: k) :
    ((c.scanPrefix start).find? fun e => e.1 = k).map Prod.snd = c.get k := by
  rw [scanPrefix_eq, find?_filter, ← c.map_find]
  intro e
  rw [decide_eq_true_iff, decide_eq_true_iff, isPrefixOf_iff_prefix, and_iff_right_iff_imp]
  rintro rfl
  exact hk

end Bytes

end Column

/-- Bytes in their usual order. -/
instance byteLinearOrder : LinearOrder UInt8 where
  le_refl := UInt8.le_refl
  le_trans _ _ _ := UInt8.le_trans
  lt_iff_le_not_ge _ _ := by
    rw [UInt8.lt_iff_toNat_lt, UInt8.le_iff_toNat_le, UInt8.le_iff_toNat_le]
    omega
  le_antisymm _ _ := UInt8.le_antisymm
  le_total := UInt8.le_total
  toDecidableEq := inferInstance
  toDecidableLE := inferInstance
  toDecidableLT := inferInstance
