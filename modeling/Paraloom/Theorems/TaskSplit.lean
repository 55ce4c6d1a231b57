import Mathlib
import Paraloom.OffChain.Coordinator

/-!
# A task is split into a partition

The loop of `split_task` cuts the range of a task into pieces of the same size, the last of them shorter, and goes on without a
piece once the range is used up.
-/

namespace Paraloom.OffChain

open Checked List

/-- The first and the last number of a task. -/
def Task.range (task : Task) : Nat × Nat :=
  match task.taskType with
  | .hashCalculation start stop _ => (start.toNat, stop.toNat)

namespace TaskSplitAux

/-- The ranges follow each other from `current` to `stop`, none of them empty or above the size. -/
def Tiles (stop size : Nat) : (current : Nat) → List (Nat × Nat) → Prop
  | current, [] => current = stop + 1
  | current, r :: rs => r.1 = current ∧ r.1 ≤ r.2 ∧ r.2 < r.1 + size ∧ Tiles stop size (r.2 + 1) rs

/-- The loop, by induction on the turns that are left: they suffice for the rest of the range, and only the sum of the first
turn is taken when there is one validator. -/
theorem splitFrom_tiles (current : Nat) (hstop : stop < 2 ^ 63) (hsize : 0 < size) (hcurrent : current ≤ stop + 1)
    (hfirst : indices ≠ [] → current + size ≤ u64Max) (hlater : 2 ≤ indices.length → stop + 1 + size ≤ u64Max)
    (hcover : stop + 1 - current ≤ indices.length * size) :
    ∃ ranges, splitFrom stop size indices current = some ranges ∧ Tiles stop size current (ranges.map (·.2)) ∧
      (ranges.map (·.1)).Sublist indices := by
  induction indices generalizing current with
  | nil =>
    rw [length_nil, Nat.zero_mul] at hcover
    have hdone : current = stop + 1 := by omega
    exact ⟨[], rfl, hdone, .slnil⟩
  | cons i indices ih =>
    have hend : (checkedAdd current size).bind (checkedSub · 1) = some (current + size - 1) := by
      rw [checkedAdd, if_pos (hfirst (by simp)), Option.bind_some, checkedSub, if_pos (by omega)]
    have hrest : indices ≠ [] → stop + 1 + size ≤ u64Max := by
      intro hne
      refine hlater ?_
      have := length_pos_iff.mpr hne
      rw [length_cons]
      omega
    have hlater' : 2 ≤ indices.length → stop + 1 + size ≤ u64Max := fun h => hlater (by rw [length_cons]; omega)
    rw [length_cons, Nat.succ_mul] at hcover
    rw [splitFrom, hend, Option.bind_eq_bind, Option.bind_some]
    by_cases hopen : current ≤ stop
    · have hnext : checkedAdd (min (current + size - 1) stop) 1 = some (min (current + size - 1) stop + 1) := by
        rw [checkedAdd, if_pos]
        unfold u64Max
        omega
      obtain ⟨ranges, hranges, htiles, hindices⟩ := ih (min (current + size - 1) stop + 1) (by omega)
        (fun hne => by have := hrest hne; omega) hlater' (by omega)
      refine ⟨(i, current, min (current + size - 1) stop) :: ranges, ?_, ⟨rfl, ?_, ?_, htiles⟩, hindices.cons_cons i⟩
      · simp [hopen, hnext, hranges]
      · dsimp only
        omega
      · dsimp only
        omega
    · obtain ⟨ranges, hranges, htiles, hindices⟩ := ih current hcurrent (fun hne => by have := hrest hne; omega)
        hlater' (by omega)
      exact ⟨ranges, by simp [hopen, hranges], htiles, hindices.cons i⟩

variable {stop size current : Nat} {rs : List (Nat × Nat)}

section Tiles

variable (h : Tiles stop size current rs)
include h

theorem Tiles.le : current ≤ stop + 1 := by
  induction rs generalizing current with
  | nil => exact Nat.le_of_eq h
  | cons r rs ih =>
    obtain ⟨rfl, hle, -, hrest⟩ := h
    have := ih hrest
    omega

theorem Tiles.mem_iff (n : Nat) : (∃ r ∈ rs, r.1 ≤ n ∧ n ≤ r.2) ↔ current ≤ n ∧ n ≤ stop := by
  induction rs generalizing current with
  | nil =>
    obtain rfl : current = stop + 1 := h
    simp only [not_mem_nil, false_and, exists_false, false_iff]
    omega
  | cons r rs ih =>
    obtain ⟨rfl, hle, -, hrest⟩ := h
    have hnext := hrest.le
    simp only [mem_cons, exists_eq_or_imp, ih hrest]
    omega

theorem Tiles.bounds : ∀ r ∈ rs, current ≤ r.1 ∧ r.1 ≤ r.2 ∧ r.2 < r.1 + size ∧ r.2 ≤ stop := by
  induction rs generalizing current with
  | nil => simp
  | cons r rs ih =>
    obtain ⟨rfl, hle, hsize, hrest⟩ := h
    have hnext := hrest.le
    rintro r' (_ | ⟨_, hr'⟩)
    · exact ⟨le_rfl, hle, hsize, by omega⟩
    · obtain ⟨hfrom, hbounds⟩ := ih hrest r' hr'
      exact ⟨by omega, hbounds⟩

theorem Tiles.pairwise : rs.Pairwise fun r r' => r.2 < r'.1 := by
  induction rs generalizing current with
  | nil => exact .nil
  | cons r rs ih =>
    obtain ⟨rfl, -, -, hrest⟩ := h
    exact pairwise_cons.mpr ⟨fun r' hr' => (hrest.bounds r' hr').1, ih hrest⟩

theorem Tiles.consecutive : rs.IsChain fun r r' => r'.1 = r.2 + 1 := by
  induction rs generalizing current with
  | nil => exact .nil
  | cons r rs ih =>
    cases rs with
    | nil => exact .singleton r
    | cons r' rs => exact .cons_cons h.2.2.2.1 (ih h.2.2.2)

end Tiles

/-- The number of a chunk is read off its id. -/
theorem chunkId_inj {id : TaskId} {i j : Nat} (h : id ++ "-chunk-" ++ toString i = id ++ "-chunk-" ++ toString j) : i = j :=
  Nat.repr_inj.mp ((String.append_right_inj _).mp h)

/-- A share is not empty, as many as there are validators suffice, and with two of them a share and the whole range fit. -/
theorem share_bounds (total n : Nat) (htotal : 0 < total) (hn : 0 < n) :
    0 < (total + n - 1) / n ∧ (total + n - 1) / n ≤ total ∧ total ≤ n * ((total + n - 1) / n) ∧
      (2 ≤ n → 2 * ((total + n - 1) / n) ≤ total + 1) := by
  have hdiv := Nat.div_add_mod (total + n - 1) n
  have hmod := Nat.mod_lt (total + n - 1) hn
  have hpos : 0 < (total + n - 1) / n := Nat.div_pos (by omega) hn
  obtain ⟨size, hsize⟩ : ∃ size, (total + n - 1) / n = size + 1 := ⟨_, (Nat.sub_add_cancel hpos).symm⟩
  rw [hsize, Nat.mul_succ] at hdiv
  rw [hsize, Nat.mul_succ]
  have hone : size ≤ n * size := Nat.le_mul_of_pos_left size hn
  refine ⟨Nat.succ_pos size, by omega, by omega, fun htwo => ?_⟩
  have hdouble : 2 * size ≤ n * size := Nat.mul_le_mul_right size htwo
  omega

/-- The share of a validator, rounded up. -/
def share (validators : List NodeId) (start stop : UInt64) : Nat :=
  (stop.toNat - start.toNat + 1 + max validators.length 1 - 1) / max validators.length 1

/-- The chunks tile the range, and their ids are numbered by some of the turns of the loop, in order. -/
theorem splitTask_tiles (id : TaskId) (createdAt : UInt64) (algorithm : String) (clock : Nat → UInt64) {start stop : UInt64}
    (hle : start.toNat ≤ stop.toNat) (hstop : stop.toNat < 2 ^ 63) :
    ∃ (chunks : List Task) (indices : List Nat), splitTask validators (.new id createdAt
        (.hashCalculation start stop algorithm)) clock = some chunks ∧
      Tiles stop.toNat (share validators start stop) start.toNat (chunks.map Task.range) ∧
      indices.Sublist (range (max validators.length 1)) ∧
      chunks.map (·.id) = indices.map fun i => id ++ "-chunk-" ++ toString i := by
  obtain ⟨hpos, hshare, hcover, htwo⟩ := share_bounds (stop.toNat - start.toNat + 1) (max validators.length 1)
    (Nat.succ_pos _) (by omega)
  rw [← share] at hpos hshare hcover htwo
  have htotal : (checkedSub stop.toNat start.toNat).bind (checkedAdd · 1) = some (stop.toNat - start.toNat + 1) := by
    rw [checkedSub, if_pos hle, Option.bind_some, checkedAdd, if_pos]
    unfold u64Max
    omega
  obtain ⟨ranges, hranges, htiles, hindices⟩ := splitFrom_tiles start.toNat hstop hpos (by omega) (fun _ => by unfold u64Max; omega)
    (fun h => by rw [length_range] at h; have := htwo h; unfold u64Max; omega) (by rw [length_range]; omega)
  refine ⟨ranges.map fun r => .new (id ++ "-chunk-" ++ toString r.1) (clock r.1)
    (.hashCalculation (.ofNat r.2.1) (.ofNat r.2.2) algorithm), ranges.map (·.1), ?_, ?_, hindices, ?_⟩
  · simp only [splitTask, Task.new, Option.bind_eq_bind, Option.pure_def]
    rw [← Option.bind_assoc, htotal, Option.bind_some, ← share, hranges, Option.bind_some]
  · have hsame : ∀ r ∈ ranges, UInt64.toNat (.ofNat r.2.1) = r.2.1 ∧ UInt64.toNat (.ofNat r.2.2) = r.2.2 := by
      intro r hr
      have hbounds := htiles.bounds r.2 (mem_map_of_mem hr)
      have hfits : r.2.2 < UInt64.size := by unfold UInt64.size; omega
      exact ⟨UInt64.toNat_ofNat_of_lt' (by omega), UInt64.toNat_ofNat_of_lt' hfits⟩
    rw [map_map, map_congr_left (g := (·.2)) fun r hr => Prod.ext (hsame r hr).1 (hsame r hr).2]
    exact htiles
  · simp only [map_map]
    rfl

end TaskSplitAux

open TaskSplitAux in
/-- A task over a range below `2 ^ 63` is split without an overflow, for every number of validators: into at least one chunk and
at most one for each validator, which are consecutive, not empty, disjoint, make up the range, and have no more numbers than a
validator's share rounded up. Their ids are distinct. -/
theorem task_split_partitions (validators : List NodeId) (id : TaskId) (createdAt : UInt64) (start stop : UInt64)
    (algorithm : String) (clock : Nat → UInt64) (hle : start ≤ stop) (hstop : stop.toNat < 2 ^ 63) :
    ∃ chunks, splitTask validators (.new id createdAt (.hashCalculation start stop algorithm)) clock = some chunks ∧
      1 ≤ chunks.length ∧ chunks.length ≤ max 1 validators.length ∧
      (∀ chunk ∈ chunks, chunk.range.1 ≤ chunk.range.2 ∧ chunk.range.2 - chunk.range.1 + 1 ≤
        (stop.toNat - start.toNat + 1) ⌈/⌉ max 1 validators.length) ∧
      chunks.IsChain (fun a b => b.range.1 = a.range.2 + 1) ∧
      chunks.Pairwise (fun a b => Disjoint (Set.Icc a.range.1 a.range.2) (Set.Icc b.range.1 b.range.2)) ∧
      (∀ n, (∃ chunk ∈ chunks, n ∈ Set.Icc chunk.range.1 chunk.range.2) ↔ n ∈ Set.Icc start.toNat stop.toNat) ∧
      (chunks.map (·.id)).Nodup := by
  obtain ⟨chunks, indices, hsplit, htiles, hindices, hids⟩ :=
    splitTask_tiles id createdAt algorithm clock (UInt64.le_iff_toNat_le.mp hle) hstop
  have hlength : chunks.length = indices.length := by simpa using congrArg length hids
  refine ⟨chunks, hsplit, ?_, ?_, ?_, isChain_map _ |>.mp htiles.consecutive, ?_, ?_, ?_⟩
  · refine length_pos_iff.mpr ?_
    rintro rfl
    have hempty : start.toNat = stop.toNat + 1 := htiles
    have := UInt64.le_iff_toNat_le.mp hle
    omega
  · rw [hlength, max_comm]
    simpa using hindices.length_le
  · intro chunk hchunk
    have hbounds := htiles.bounds _ (mem_map_of_mem hchunk)
    rw [Nat.ceilDiv_eq_add_pred_div, max_comm, ← share]
    omega
  · refine (pairwise_map.mp htiles.pairwise).imp fun h => Set.disjoint_left.mpr fun n ha hb => ?_
    exact absurd (hb.1.trans ha.2) (Nat.not_le.mpr h)
  · intro n
    simpa using htiles.mem_iff n
  · rw [hids]
    exact (hindices.nodup nodup_range).map fun _ _ => chunkId_inj

/-- Three numbers among five validators: three chunks of one number. -/
theorem task_split_partitions_short : ∃ chunks, splitTask [[1], [2], [3], [4], [5]] (.new "job" 0 (.hashCalculation 7 9 "sha256"))
    (fun _ => 0) = some chunks ∧ chunks.map (·.range) = [(7, 7), (8, 8), (9, 9)] ∧ (chunks.map (·.id)).Nodup := by
  obtain ⟨chunks, hsplit, -, -, -, -, -, -, hids⟩ :=
    task_split_partitions [[1], [2], [3], [4], [5]] "job" 0 7 9 "sha256" (fun _ => 0) (by decide) (by decide)
  refine ⟨chunks, hsplit, ?_, hids⟩
  obtain rfl := Option.some.inj (hsplit.symm.trans (by rfl : _ = some _))
  rfl

end Paraloom.OffChain
