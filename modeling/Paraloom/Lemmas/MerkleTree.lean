import Mathlib.Data.Vector.Mem
import Paraloom.MerkleTree

/-!
# The incremental tree is the tree over its leaves

The loop of `append` carries one node: the node of the new tree at the height it has reached, above the appended leaf. The
working set it leaves behind is right for the new number of leaves, so a run of appends keeps the root of the complete tree.
-/

namespace Paraloom

open Checked List.Vector

namespace IncrementalMerkleTree

open HashTree

variable {α : Type} {hash : α → α → Result α}
/-- The pair relation of a hash that may fail. -/
def PairHash (hash : α → α → Result α) (a b r : α) : Prop := hash a b = .ok r

/-- One run of the loop. `current` is the node of the new tree at height `i` and position `m`, the old and the new leaves
agree left of it and the new leaves are empty right of it. The loop then ends in the node above it, and the working set it
returns fits both counts the height may have after the append: `m` nodes, or `m + 1` when the leaf completed one. It holds the
last left node of every height. -/
theorem climb_spec {zeros filled filled' : List.Vector α n} {current root : α} (hz : EmptyTable (PairHash hash) z i zeros.val)
    (hf : Frontier (PairHash hash) f i m filled.val) (hc : Node (PairHash hash) f' i m current)
    (hleft : ∀ k, k < m * 2 ^ i → f k = f' k) (hright : ∀ k, (m + 1) * 2 ^ i ≤ k → f' k = z)
    (h : climb hash zeros filled m current = .ok (root, filled')) :
    Node (PairHash hash) f' (i + n) (m / 2 ^ n) root ∧
      (∀ m', m' = m ∨ m' = m + 1 → Frontier (PairHash hash) f' i m' filled'.val) ∧
      LastLeft (PairHash hash) f' i m filled'.val := by
  induction n generalizing i m current root with
  | zero =>
    rw [climb, return_ok_iff, Prod.mk.injEq] at h
    obtain ⟨rfl, rfl⟩ := h
    exact ⟨by simpa using hc, fun _ _ => trivial, trivial⟩
  | succ n ih =>
    obtain ⟨z₀, zs, rfl⟩ := zeros.exists_eq_cons
    obtain ⟨x, xs, rfl⟩ := filled.exists_eq_cons
    rw [cons_val] at hz hf
    obtain ⟨hz₀, hzs⟩ := hz
    obtain ⟨hx, hxs⟩ := hf
    have hup : i + 1 + n = i + (n + 1) := by omega
    have hdiv : m / 2 / 2 ^ n = m / 2 ^ (n + 1) := by rw [Nat.div_div_eq_div_mul, Nat.pow_succ']
    have hpow : m / 2 * 2 ^ (i + 1) = 2 * (m / 2) * 2 ^ i := by ring
    have hpow' : (m / 2 + 1) * 2 ^ (i + 1) = (2 * (m / 2) + 1 + 1) * 2 ^ i := by ring
    have hsucc : (m + 1) * 2 ^ i = m * 2 ^ i + 2 ^ i := by ring
    have hpos : 0 < 2 ^ i := Nat.two_pow_pos i
    rw [climb] at h
    split at h
    · rename_i heven
      simp only [head_cons, tail_cons, seq_ok_iff, return_ok_iff, Prod.mk.injEq] at h
      obtain ⟨next, hnext, r, hr, rfl, rfl⟩ := h
      have hm : 2 * (m / 2) = m := by omega
      rw [hm] at hpow hpow'
      -- the right sibling is the root of an empty subtree
      have hnode : Node (PairHash hash) f' (i + 1) (m / 2) next :=
        ⟨current, z₀, by rwa [hm], by rw [hm]; exact hz₀.node hright, hnext⟩
      obtain ⟨hroot, hfront, hlast⟩ := ih hzs hxs hnode (fun k hk => hleft k (by omega)) (fun k hk => hright k (by
        have : (m + 1 + 1) * 2 ^ i = m * 2 ^ i + 2 ^ i + 2 ^ i := by ring
        omega)) hr
      rw [hup, hdiv] at hroot
      refine ⟨hroot, ?_, by rwa [hm], hlast⟩
      rintro m' (rfl | rfl)
      · exact ⟨fun hodd => by omega, hfront _ (.inl rfl)⟩
      · exact ⟨fun _ => by simpa using hc, hfront _ (.inl (by omega))⟩
    · rename_i hodd
      simp only [head_cons, tail_cons, seq_ok_iff, return_ok_iff, Prod.mk.injEq] at h
      obtain ⟨next, hnext, r, hr, rfl, rfl⟩ := h
      have hm : 2 * (m / 2) = m - 1 := by omega
      have hm' : m - 1 + 1 = m := by omega
      have hpred : m * 2 ^ i = (m - 1) * 2 ^ i + 2 ^ i := by rw [← Nat.succ_mul, Nat.succ_eq_add_one, hm']
      rw [hm] at hpow hpow'
      rw [hm'] at hpow'
      -- the left sibling is the stored node, which lies below the appended leaf
      have hsib : Node (PairHash hash) f' i (m - 1) x := by
        apply (hx (by omega)).congr
        intro k _ hk
        rw [hm'] at hk
        exact hleft k hk
      have hnode : Node (PairHash hash) f' (i + 1) (m / 2) next :=
        ⟨x, current, by rwa [hm], by rwa [hm, hm'], hnext⟩
      obtain ⟨hroot, hfront, hlast⟩ := ih hzs hxs hnode (fun k hk => hleft k (by omega)) (fun k hk => hright k (by omega)) hr
      rw [hup, hdiv] at hroot
      refine ⟨hroot, ?_, by rwa [hm], hlast⟩
      rintro m' (rfl | rfl)
      · exact ⟨fun _ => hsib, hfront _ (.inl rfl)⟩
      · exact ⟨fun heven => by omega, hfront _ (.inr (by omega))⟩

/-! ## Whole runs of appends -/

/-- The zero table holds the empty-subtree roots of the hash. -/
structure ZeroTable (hash : α → α → Result α) (z : α) (zeros : List.Vector α treeDepth) (emptyRoot : α) : Prop where
  siblings : EmptyTable (PairHash hash) z 0 zeros.val
  root : EmptyNode (PairHash hash) z treeDepth emptyRoot

/-- `r` is the root of the complete tree over the leaves. -/
def IsRoot (hash : α → α → Result α) (z : α) (leaves : List α) (r : α) : Prop :=
  Node (PairHash hash) (padded z leaves) treeDepth 0 r

/-- The account holds the tree over the leaves: its root is the root of the complete tree, its working set is what the next
append needs, and every used slot of its ring is the root over some first part of the leaves. -/
structure Represents (hash : α → α → Result α) (z : α) (t : IncrementalMerkleTree α) (leaves : List α) : Prop where
  nextIndex : t.nextIndex = leaves.length
  capacity : leaves.length ≤ 2 ^ treeDepth
  frontier : Frontier (PairHash hash) (padded z leaves) 0 leaves.length t.filledSubtrees.val
  root : IsRoot hash z leaves t.root
  history : ∀ r ∈ t.rootHistory.val, r = z ∨ ∃ k ≤ leaves.length, IsRoot hash z (leaves.take k) r

theorem represents_init (hzero : ZeroTable hash z zeros emptyRoot) : Represents hash z (init z zeros emptyRoot) [] := by
  have hroot : IsRoot hash z [] emptyRoot := hzero.root.node (fun k _ => padded_of_length_le (Nat.zero_le k))
  refine ⟨rfl, Nat.zero_le _, Frontier.empty _ _ _, hroot, ?_⟩
  intro r hr
  obtain ⟨i, rfl⟩ := (mem_iff_get r _).mp hr
  rw [init, get_set_eq_if]
  split
  · exact .inr ⟨0, Nat.le_refl 0, hroot⟩
  · exact .inl (get_replicate _ _)

theorem append_ok_iff : append hash zeros t leaf = .ok (t', r) ↔ t.nextIndex < 2 ^ treeDepth ∧ t.nextIndex + 1 ≤ u64Max ∧
      ∃ filled, climb hash zeros t.filledSubtrees t.nextIndex leaf = .ok (r, filled) ∧
        t' = ⟨t.nextIndex + 1, t.rootIndex + 1, r, filled, t.rootHistory.set (t.rootIndex + 1) r⟩ := by
  simp only [append, seq_ok_iff, require_ok_iff, okOr_ok_iff, checkedAdd_some_iff, return_ok_iff, Prod.mk.injEq, Prod.exists]
  constructor
  · rintro ⟨_, hcap, root, filled, hclimb, _, ⟨hfits, rfl⟩, rfl, rfl⟩
    exact ⟨hcap, hfits, filled, hclimb, rfl⟩
  · rintro ⟨hcap, hfits, filled, hclimb, rfl⟩
    exact ⟨(), hcap, r, filled, hclimb, _, ⟨hfits, rfl⟩, rfl, rfl⟩

/-- An append turns a tree over the leaves into the tree over the leaves and the new one, and returns its root. -/
theorem Represents.append (hzero : ZeroTable hash z zeros emptyRoot) (ht : Represents hash z t leaves)
    (h : IncrementalMerkleTree.append hash zeros t leaf = .ok (t', r)) :
    Represents hash z t' (leaves ++ [leaf]) ∧ IsRoot hash z (leaves ++ [leaf]) r := by
  obtain ⟨hcap, -, filled, hclimb, rfl⟩ := append_ok_iff.mp h
  rw [ht.nextIndex] at hcap hclimb
  have hleaf : Node (PairHash hash) (padded z (leaves ++ [leaf])) 0 leaves.length leaf :=
    (padded_append_length z leaf leaves).symm
  obtain ⟨hroot, hfront, -⟩ := climb_spec hzero.siblings ht.frontier hleaf
    (fun k hk => (padded_append_left (by simpa using hk)).symm)
    (fun k hk => padded_of_length_le (by simpa using hk)) hclimb
  rw [Nat.zero_add, Nat.div_eq_of_lt hcap] at hroot
  have hlen : (leaves ++ [leaf]).length = leaves.length + 1 := by simp
  refine ⟨⟨by rw [hlen, ← ht.nextIndex], by rw [hlen]; exact hcap, ?_, hroot, ?_⟩, hroot⟩
  · rw [hlen]
    exact hfront _ (.inr rfl)
  · intro x hx
    obtain ⟨i, rfl⟩ := (mem_iff_get x _).mp hx
    rw [get_set_eq_if]
    split
    · exact .inr ⟨leaves.length + 1, hlen.ge, by rwa [← hlen, List.take_length]⟩
    · rcases ht.history _ ((mem_iff_get _ _).mpr ⟨i, rfl⟩) with hz | ⟨k, hk, hr⟩
      · exact .inl hz
      · exact .inr ⟨k, by omega, by rwa [List.take_append_of_le_length hk]⟩

theorem isKnownRoot_mem [DecidableEq α] {root : α} (h : isKnownRoot empty t root = true) :
    root ≠ empty ∧ root ∈ t.rootHistory.val := by
  have hsearch : ∀ fuel i, searchRoot t root t.rootIndex fuel i = true → root ∈ t.rootHistory.val := by
    intro fuel
    induction fuel with
    | zero => intro i hi; simp [searchRoot] at hi
    | succ fuel ih =>
      intro i hi
      unfold searchRoot at hi
      split at hi
      · rename_i hfound
        exact (mem_iff_get _ _).mpr ⟨i, hfound⟩
      · split at hi
        · cases hi
        · exact ih _ hi
  unfold isKnownRoot at h
  split at h
  · cases h
  · rename_i hne
    exact ⟨hne, hsearch _ _ h⟩

/-- A root that a tree over the leaves knows is the root over some first part of them. -/
theorem Represents.of_isKnownRoot [DecidableEq α] {root : α}
    (ht : Represents hash z t leaves) (h : isKnownRoot z t root = true) :
    ∃ k ≤ leaves.length, IsRoot hash z (leaves.take k) root := by
  obtain ⟨hne, hmem⟩ := isKnownRoot_mem h
  rcases ht.history root hmem with hz | hk
  · exact absurd hz hne
  · exact hk

/-! ## Pair hashes that never fail -/

/-- A pair hash that never fails, as the hash of a tree. -/
def total (H : α → α → α) (a b : α) : Result α := .ok (H a b)

theorem pairHash_total (H : α → α → α) (a b r : α) : PairHash (total H) a b r ↔ H a b = r := by
  rw [PairHash, total, Except.ok.injEq]

theorem climb_total (H : α → α → α) (zeros filled : List.Vector α n) (m : Nat) (current : α) :
    ∃ root filled', climb (total H) zeros filled m current = .ok (root, filled') := by
  induction n generalizing m current with
  | zero => exact ⟨current, .nil, rfl⟩
  | succ n ih =>
    unfold climb
    split
    · obtain ⟨root, filled', h⟩ := ih zeros.tail filled.tail (m / 2) (H current zeros.head)
      exact ⟨root, _, by rw [total, seq_ok_iff]; exact ⟨_, rfl, by rw [h]; rfl⟩⟩
    · obtain ⟨root, filled', h⟩ := ih zeros.tail filled.tail (m / 2) (H filled.head current)
      exact ⟨root, _, by rw [total, seq_ok_iff]; exact ⟨_, rfl, by rw [h]; rfl⟩⟩

/-- A zero table of a pair hash: the empty leaf, and then at every height the hash of two empty subtrees. -/
structure ZeroHashes (H : α → α → α) (z : α) (zeros : List.Vector α (treeDepth + 1)) : Prop where
  leaf : zeros.get 0 = z
  succ : ∀ k : Fin treeDepth, zeros.get k.succ = H (zeros.get k.castSucc) (zeros.get k.castSucc)

/-- The zero table of a pair hash. -/
def zerosOf (H : α → α → α) (z : α) : List.Vector α (treeDepth + 1) :=
  List.Vector.ofFn fun k => (fun x => H x x)^[k] z

theorem zeroHashes_zerosOf (H : α → α → α) (z : α) : ZeroHashes H z (zerosOf H z) := by
  refine ⟨?_, ?_⟩
  · rw [zerosOf, get_ofFn]
    rfl
  · intro k
    rw [zerosOf, get_ofFn, get_ofFn, Fin.val_succ, Function.iterate_succ_apply']
    rfl

/-- The first entries of a zero table, the empty siblings of the heights. -/
def siblings (zeros : List.Vector α (treeDepth + 1)) : List.Vector α treeDepth :=
  List.Vector.ofFn fun k => zeros.get k.castSucc

def emptyRoot (zeros : List.Vector α (treeDepth + 1)) : α := zeros.get (Fin.last treeDepth)

theorem ZeroHashes.zeroTable (hzero : ZeroHashes H z zeros) : ZeroTable (total H) z (siblings zeros) (emptyRoot zeros) := by
  have hempty : ∀ k : Fin (treeDepth + 1), EmptyNode (PairHash (total H)) z k (zeros.get k) := by
    intro k
    induction k using Fin.induction with
    | zero => exact hzero.leaf
    | succ k ih => exact ih.succ ((pairHash_total H _ _ _).mpr (hzero.succ k).symm)
  have hval : (siblings zeros).val = List.ofFn fun k : Fin treeDepth => zeros.get k.castSucc :=
    toList_ofFn _
  refine ⟨?_, hempty (Fin.last treeDepth)⟩
  rw [hval]
  refine EmptyTable.of_forall fun k hk => ?_
  rw [List.getElem_ofFn, Nat.zero_add]
  rw [List.length_ofFn] at hk
  exact hempty (Fin.castSucc ⟨k, hk⟩)

def build (hash : α → α → Result α) (z : α) (zeros : List.Vector α (treeDepth + 1)) (leaves : List α) :
    Result (IncrementalMerkleTree α) :=
  leaves.foldlM (fun t leaf => return (← append hash (siblings zeros) t leaf).1) (init z (siblings zeros) (emptyRoot zeros))

theorem build_concat (h : build hash z zeros leaves = .ok t) (happ : append hash (siblings zeros) t leaf = .ok (t', r)) :
    build hash z zeros (leaves ++ [leaf]) = .ok t' := by
  rw [build] at h
  rw [build, List.foldlM_append, h, seq_ok_iff]
  exact ⟨t, rfl, by rw [List.foldlM_cons, happ]; rfl⟩

/-- Where the tree is not full an append returns the new root. Of the account it uses only the number of leaves and the
entries of the working set that the number of leaves makes wait for a right sibling. -/
theorem append_total (hzero : ZeroHashes H z zeros) (hnext : t.nextIndex = leaves.length)
    (hroom : leaves.length < 2 ^ treeDepth)
    (hfront : Frontier (PairHash (total H)) (padded z leaves) 0 leaves.length t.filledSubtrees.val) (leaf : α) :
    ∃ t', append (total H) (siblings zeros) t leaf = .ok (t', completeRoot H z treeDepth (leaves ++ [leaf])) := by
  obtain ⟨root, filled, hclimb⟩ := climb_total H (siblings zeros) t.filledSubtrees leaves.length leaf
  have hleaf : Node (PairHash (total H)) (padded z (leaves ++ [leaf])) 0 leaves.length leaf :=
    (padded_append_length z leaf leaves).symm
  obtain ⟨hroot, -⟩ := climb_spec hzero.zeroTable.siblings hfront hleaf
    (fun k hk => (padded_append_left (by simpa using hk)).symm)
    (fun k hk => padded_of_length_le (by simpa using hk)) hclimb
  rw [Nat.zero_add, Nat.div_eq_of_lt hroom, node_iff (pairHash_total H)] at hroot
  have hfits : leaves.length + 1 ≤ u64Max := by
    have : 2 ^ treeDepth ≤ u64Max := by decide
    omega
  rw [← hnext] at hroom hfits hclimb
  exact ⟨_, append_ok_iff.mpr ⟨hroom, hfits, filled, by rw [hclimb, completeRoot, hroot], rfl⟩⟩

theorem build_represents (hzero : ZeroHashes H z zeros) (leaves : List α) (hlen : leaves.length ≤ 2 ^ treeDepth) :
    ∃ t, build (total H) z zeros leaves = .ok t ∧ Represents (total H) z t leaves := by
  induction leaves using List.reverseRecOn with
  | nil => exact ⟨_, rfl, represents_init hzero.zeroTable⟩
  | append_singleton leaves leaf ih =>
    rw [List.length_append, List.length_singleton] at hlen
    obtain ⟨t, hbuild, ht⟩ := ih (by omega)
    obtain ⟨t', happ⟩ := append_total hzero ht.nextIndex hlen ht.frontier leaf
    exact ⟨t', build_concat hbuild happ, (ht.append hzero.zeroTable happ).1⟩

end IncrementalMerkleTree

end Paraloom
