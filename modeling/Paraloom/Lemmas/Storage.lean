import Mathlib.Data.List.GetD
import Paraloom.OffChain.PersistedTree

/-!
# What the storage gives back

Leaves written under consecutive indices are read back in that order, although the column keeps them in the order of their
keys. Supplies written under their keys are read back one by one and by the scan that reopens the pool. The cached root and the
supplies share a column and do not meet.
-/

namespace Paraloom.OffChain

open List LittleEndian

theorem eq_word_iff (h : bytes.length = 32) : w = word bytes h ↔ bytes = w.toList := by
  constructor
  · rintro rfl
    rfl
  · rintro rfl
    rfl

namespace PrivacyStorage

theorem commit_ok_iff : commit acknowledged written = .ok s' ↔ acknowledged = true ∧ s' = written := by
  cases acknowledged <;> simp [commit, eq_comm]

/-! ## Leaves -/

def HoldsLeaves (column : Column Bytes Bytes) (leaves : List Bytes32) : Prop :=
  ∀ k, column.get k = if k.length = 8 then (leaves[LittleEndian.toNat k]?).map List.Vector.toList else none

theorem holdsLeaves_empty : HoldsLeaves .empty [] := by
  intro k
  rw [Column.get_empty, getElem?_nil, Option.map_none, ite_self]

theorem eq_leafKey_iff (hn : n < 256 ^ 8) : k = leafKey n ↔ k.length = 8 ∧ toNat k = n := by
  constructor
  · rintro rfl
    exact ⟨ofNat_length 8 n, toNat_ofNat_of_lt hn⟩
  · rintro ⟨hlen, hval⟩
    refine toNat_inj ?_ ?_
    · rw [hlen, leafKey, ofNat_length]
    · rw [hval, leafKey, toNat_ofNat_of_lt hn]

theorem HoldsLeaves.put (h : HoldsLeaves column leaves) (hroom : leaves.length < 256 ^ 8) (c : Bytes32) :
    HoldsLeaves (column.put (leafKey leaves.length) c.toList) (leaves ++ [c]) := by
  intro k
  rw [Column.get_put, h k]
  by_cases hk : k = leafKey leaves.length
  · obtain ⟨hlen, hval⟩ := (eq_leafKey_iff hroom).mp hk
    rw [if_pos hk, if_pos hlen, hval, getElem?_concat_length, Option.map_some]
  · rw [if_neg hk]
    by_cases hlen : k.length = 8
    · have hne : toNat k ≠ leaves.length := fun hval => hk ((eq_leafKey_iff hroom).mpr ⟨hlen, hval⟩)
      rw [if_pos hlen, if_pos hlen]
      rcases Nat.lt_or_gt_of_ne hne with hlt | hgt
      · rw [getElem?_append_left hlt]
      · rw [getElem?_eq_none hgt.le, getElem?_eq_none (by simpa using hgt)]
    · rw [if_neg hlen, if_neg hlen]

/-- Writing the next leaves in one batch. The batch numbers its entries from `k`, and the leaves before them are written. -/
theorem HoldsLeaves.putAll (cs : List Bytes32) (h : HoldsLeaves column leaves) (hstart : leaves.length = start + k)
    (hroom : leaves.length + cs.length ≤ 256 ^ 8) :
    HoldsLeaves (column.putAll ((cs.zipIdx k).map fun c => (leafKey (start + c.2), c.1.toList))) (leaves ++ cs) := by
  induction cs generalizing column leaves k with
  | nil => simpa [Column.putAll] using h
  | cons c cs ih =>
    rw [length_cons] at hroom
    have hput := h.put (by omega) c
    rw [hstart] at hput
    have hrest := ih (k := k + 1) hput (by simp; omega) (by simp; omega)
    rw [append_assoc, singleton_append] at hrest
    exact hrest

theorem HoldsLeaves.decode (h : HoldsLeaves column leaves) (hentry : entry ∈ column.entries) :
    toNat entry.1 < leaves.length ∧ entry.1.length = 8 ∧
      decodeLeaf entry = .ok (toNat entry.1, leaves.getD (toNat entry.1) zero32) := by
  obtain ⟨key, value⟩ := entry
  rw [Column.mem_entries_iff, h key] at hentry
  by_cases hlen : key.length = 8
  · rw [if_pos hlen, Option.map_eq_some_iff] at hentry
    obtain ⟨c, hc, rfl⟩ := hentry
    obtain ⟨hlt, hget⟩ := List.getElem?_eq_some_iff.mp hc
    refine ⟨hlt, hlen, ?_⟩
    rw [decodeLeaf, dif_pos c.toList_length, if_pos hlen, getD_eq_getElem _ _ hlt, hget]
    rfl
  · rw [if_neg hlen] at hentry
    cases hentry

theorem mapM_decodeLeaf {entries : List (Bytes × Bytes)} (h : ∀ e ∈ entries, decodeLeaf e = .ok (g e)) :
    entries.mapM decodeLeaf = .ok (entries.map g) := by
  induction entries with
  | nil => rfl
  | cons e es ih =>
    rw [mapM_cons, h e mem_cons_self, ih fun x hx => h x (mem_cons_of_mem e hx)]
    rfl

/-- Sorting the pairs of an index and its value by the index, whatever order they come in. -/
theorem insertionSort_indexed {g : Nat → β} {l : List (Nat × β)} (hl : l.Nodup) (hmem : ∀ x, x ∈ l ↔ ∃ i < n, (i, g i) = x) :
    (l.insertionSort fun a b => a.1 ≤ b.1) = (range n).map fun i => (i, g i) := by
  have hordered : ((range n).map fun i => (i, g i)).Nodup :=
    nodup_range.map fun i j hij => congrArg Prod.fst hij
  have hperm : (l.insertionSort fun a b => a.1 ≤ b.1).Perm ((range n).map fun i => (i, g i)) := by
    refine (perm_insertionSort _ l).trans ((perm_ext_iff_of_nodup hl hordered).mpr fun x => ?_)
    rw [hmem, mem_map]
    simp only [mem_range]
  refine List.Perm.eq_of_pairwise ?_ (pairwise_insertionSort (fun a b : Nat × β => a.1 ≤ b.1) l) ?_ hperm
  · intro a b ha hb hab hba
    obtain ⟨i, -, rfl⟩ := mem_map.mp (hperm.mem_iff.mp ha)
    obtain ⟨j, -, rfl⟩ := mem_map.mp hb
    rw [show i = j from le_antisymm hab hba]
  · exact pairwise_map.mpr (pairwise_lt_range.imp fun hij => hij.le)

/-- The leaves come back in the order of their indices. -/
theorem HoldsLeaves.getAllCommitments {s : PrivacyStorage}
    (h : HoldsLeaves s.merkleTree leaves) (hroom : leaves.length ≤ 256 ^ 8) : s.getAllCommitments = .ok leaves := by
  let indexed := s.merkleTree.entries.map fun e =>
    (LittleEndian.toNat e.1, leaves.getD (LittleEndian.toNat e.1) zero32)
  have hread : s.merkleTree.entries.mapM decodeLeaf = .ok indexed := mapM_decodeLeaf fun e he => (h.decode he).2.2
  have hnodup : indexed.Nodup := by
    refine s.merkleTree.nodup_entries.map_on fun e he e' he' heq => ?_
    have hkey : e.1 = e'.1 :=
      toNat_inj ((h.decode he).2.1.trans (h.decode he').2.1.symm) (congrArg Prod.fst heq)
    obtain ⟨k, v⟩ := e
    obtain ⟨k', v'⟩ := e'
    obtain rfl : k = k' := hkey
    rw [Column.mem_entries_iff] at he he'
    rw [Option.some.inj (he.symm.trans he')]
  have hmem : ∀ x, x ∈ indexed ↔ ∃ i < leaves.length, (i, leaves.getD i zero32) = x := by
    intro x
    constructor
    · intro hx
      obtain ⟨e, he, rfl⟩ := mem_map.mp hx
      exact ⟨_, (h.decode he).1, rfl⟩
    · rintro ⟨i, hi, rfl⟩
      have hkey := (eq_leafKey_iff (k := leafKey i) (by omega)).mp rfl
      refine mem_map.mpr ⟨(leafKey i, leaves[i].toList), ?_, by rw [hkey.2]⟩
      rw [Column.mem_entries_iff, h, if_pos hkey.1, hkey.2, getElem?_eq_getElem hi, Option.map_some]
  rw [PrivacyStorage.getAllCommitments, hread]
  refine congrArg Except.ok ?_
  rw [insertionSort_indexed hnodup hmem, map_map]
  refine ext_getElem (by simp) fun i hi hi' => ?_
  rw [getElem_map, getElem_range]
  exact getD_eq_getElem _ _ hi'

/-! ## The pool state -/

variable {s s' : PrivacyStorage}

theorem putPoolState_ok_iff : s.putPoolState acknowledged key value = .ok s' ↔
      acknowledged = true ∧ s' = { s with poolState := s.poolState.put key value } :=
  commit_ok_iff

def supplyKey (assetId : AssetId) : Bytes := if assetId = nativeSolAsset then totalSupplyKey else assetSupplyKey assetId

theorem assetSupplyKey_injective (h : assetSupplyKey a = assetSupplyKey b) : a = b :=
  List.Vector.toList_injective (append_cancel_left h)

theorem isPrefix_assetSupplyKey : supplyPrefix <+: assetSupplyKey a := prefix_append _ _

theorem supplyKey_injective (h : supplyKey a = supplyKey b) : a = b := by
  have hnot : ∀ c : AssetId, totalSupplyKey ≠ assetSupplyKey c := fun c hc =>
    absurd (hc ▸ isPrefix_assetSupplyKey) (by decide)
  unfold supplyKey at h
  split at h
  · rename_i ha
    split at h
    · rename_i hb
      rw [ha, hb]
    · exact absurd h (hnot b)
  · split at h
    · exact absurd h.symm (hnot a)
    · exact assetSupplyKey_injective h

theorem setAssetSupply_ok_iff {supply : UInt64} : s.setAssetSupply acknowledged assetId supply = .ok s' ↔ acknowledged = true ∧
      s' = { s with poolState := s.poolState.put (supplyKey assetId) (supplyBytes supply) } := by
  unfold setAssetSupply supplyKey
  split
  · exact putPoolState_ok_iff
  · exact putPoolState_ok_iff

@[simp] theorem supplyBytes_length (supply : UInt64) : (supplyBytes supply).length = 8 := ofNat_length 8 _

@[simp] theorem supplyOfBytes_supplyBytes (supply : UInt64) : supplyOfBytes (supplyBytes supply) = supply := by
  rw [supplyOfBytes, supplyBytes, toNat_ofNat_of_lt supply.toNat_lt, UInt64.ofNat_toNat]

theorem getMerkleRoot_put (root : Bytes32) (hs : s'.poolState = s.poolState.put merkleRootKey root.toList) :
    s'.getMerkleRoot = .ok (some root) := by
  rw [getMerkleRoot, hs, Column.get_put, if_pos rfl]
  exact dif_pos root.toList_length

/-! ## Supplies -/

/-- A column holds the supplies: a supply that was never written is zero, and nothing is kept under the prefix for native
SOL. -/
structure HoldsSupplies (column : Column Bytes Bytes) (supply : AssetId → UInt64) : Prop where
  native : column.get (assetSupplyKey nativeSolAsset) = none
  read : ∀ a, column.get (supplyKey a) = none ∧ supply a = 0 ∨ column.get (supplyKey a) = some (supplyBytes (supply a))

theorem holdsSupplies_empty : HoldsSupplies .empty fun _ => 0 := ⟨rfl, fun _ => .inl ⟨rfl, rfl⟩⟩

theorem supplyKey_ne_native : assetSupplyKey nativeSolAsset ≠ supplyKey a := by
  unfold supplyKey
  split
  · decide
  · rename_i hne
    intro h
    exact hne (assetSupplyKey_injective h).symm

theorem HoldsSupplies.put (h : HoldsSupplies column supply) (a : AssetId) (v : UInt64) :
    HoldsSupplies (column.put (supplyKey a) (supplyBytes v)) (Function.update supply a v) := by
  refine ⟨?_, fun b => ?_⟩
  · rw [Column.get_put, if_neg (supplyKey_ne_native)]
    exact h.native
  · by_cases hb : b = a
    · subst hb
      rw [Column.get_put, if_pos rfl, Function.update_self]
      exact .inr rfl
    · rw [Column.get_put, if_neg fun hkey => hb (supplyKey_injective hkey), Function.update_of_ne hb]
      exact h.read b

def scanned (value : Bytes) : Option UInt64 :=
  if value.length = 8 ∧ supplyOfBytes value > 0 then some (supplyOfBytes value) else none

theorem scanned_supplyBytes : (scanned (supplyBytes v)).getD 0 = v := by
  unfold scanned
  split
  · exact supplyOfBytes_supplyBytes v
  · rename_i hnot
    rw [supplyBytes_length, supplyOfBytes_supplyBytes] at hnot
    have hzero : ¬ v > 0 := fun hv => hnot ⟨rfl, hv⟩
    rw [gt_iff_lt, UInt64.lt_iff_toNat_lt] at hzero
    refine UInt64.toNat_inj.mp ?_
    simp only [Option.getD_none, UInt64.toNat_zero] at hzero ⊢
    omega

/-- One entry of the scan decides one asset. -/
theorem lookup_collectSupply (hkeyed : supplyPrefix <+: e.1) :
    (collectSupply t e).lookup a = if e.1 = assetSupplyKey a then (scanned e.2).or (t.lookup a) else t.lookup a := by
  obtain ⟨id, hid⟩ := hkeyed
  have hdrop : e.1.drop supplyPrefix.length = id := by rw [← hid, drop_left]
  have hkey : e.1 = assetSupplyKey a ↔ id = a.toList := by rw [← hid, assetSupplyKey, append_cancel_left_eq]
  unfold collectSupply
  simp only [hdrop, hkey]
  by_cases hlen : id.length = 32
  · simp only [dif_pos hlen, ← eq_word_iff hlen]
    unfold scanned
    by_cases hvalue : e.2.length = 8
    · by_cases hpos : supplyOfBytes e.2 > 0
      · simp [hvalue, hpos, Table.lookup_insert_if]
      · simp [hvalue, hpos]
    · simp [hvalue]
  · rw [dif_neg hlen, if_neg]
    rintro rfl
    exact hlen a.toList_length

theorem lookup_scan {es : List (Bytes × Bytes)} (hsorted : es.Pairwise fun e e' => e.1 < e'.1)
    (hkeyed : ∀ e ∈ es, supplyPrefix <+: e.1) (t : Table AssetId UInt64) :
    (es.foldl collectSupply t).lookup a =
      (((es.find? fun e => e.1 = assetSupplyKey a).map Prod.snd).bind scanned).or (t.lookup a) := by
  induction es generalizing t with
  | nil => rfl
  | cons e es ih =>
    obtain ⟨he, hes⟩ := pairwise_cons.mp hsorted
    have hrest := ih hes (fun x hx => hkeyed x (mem_cons_of_mem e hx)) (collectSupply t e)
    rw [foldl_cons, hrest, lookup_collectSupply (hkeyed e mem_cons_self)]
    by_cases hkey : e.1 = assetSupplyKey a
    · have hnone : (es.find? fun e => e.1 = assetSupplyKey a) = none :=
        find?_eq_none.mpr fun x hx => by simpa [← hkey] using (he x hx).ne'
      simp [hkey, hnone]
    · simp [hkey]

theorem HoldsSupplies.getTotalSupply (h : HoldsSupplies s.poolState supply) :
    s.getTotalSupply = .ok (supply nativeSolAsset) := by
  have hread := h.read nativeSolAsset
  rw [supplyKey, if_pos rfl] at hread
  unfold PrivacyStorage.getTotalSupply readSupply
  rcases hread with ⟨hnone, hzero⟩ | hsome
  · rw [hnone, hzero]
  · simp [hsome]

theorem HoldsSupplies.getAllAssetSupplies (h : HoldsSupplies s.poolState supply) :
    ∃ t, s.getAllAssetSupplies = .ok t ∧ ∀ a, (t.lookup a).getD 0 = supply a := by
  rw [PrivacyStorage.getAllAssetSupplies, h.getTotalSupply]
  refine ⟨_, rfl, fun a => ?_⟩
  rw [lookup_scan (s.poolState.scanPrefix_sorted _) fun e he => Column.isPrefix_of_mem_scanPrefix he,
    s.poolState.find_scanPrefix (isPrefix_assetSupplyKey)]
  by_cases ha : a = nativeSolAsset
  · rw [ha, h.native, Option.bind_none, Option.none_or]
    have hzero : ¬ supply nativeSolAsset > 0 → supply nativeSolAsset = 0 := by
      rw [gt_iff_lt, UInt64.lt_iff_toNat_lt, ← UInt64.toNat_inj, UInt64.toNat_zero]
      omega
    split
    · rw [AList.lookup_insert, Option.getD_some]
    · rename_i hnot
      rw [hzero hnot]
      rfl
  · have hother : (if supply nativeSolAsset > 0 then AList.insert nativeSolAsset (supply nativeSolAsset) ∅
        else (∅ : Table AssetId UInt64)).lookup a = none := by
      split
      · rw [AList.lookup_insert_ne ha, AList.lookup_empty]
      · exact AList.lookup_empty a
    have hread := h.read a
    rw [supplyKey, if_neg ha] at hread
    rw [hother, Option.or_none]
    rcases hread with ⟨hnone, hzero⟩ | hsome
    · rw [hnone, hzero]
      rfl
    · rw [hsome, Option.bind_some, scanned_supplyBytes]

end PrivacyStorage

/-! ## The tree over the storage -/

namespace MerkleTree

open PrivacyStorage

variable {t : MerkleTree}

theorem push_some (h : t.push more = some t') :
    t.leaves.length + more.length ≤ vecCapacity ∧ t' = { t with leaves := t.leaves ++ more, cachedRoot := none } := by
  unfold push extend at h
  split at h
  · rename_i hroom
    exact ⟨hroom, (Option.some.inj h).symm⟩
  · cases h

/-- An insert fails without effect, or adds the leaf to the memory and the disk. -/
theorem insert_some (h : t.insert store acknowledged c = some r) : acknowledged = false ∧ r = ⟨.error .write, t, store⟩ ∨
      acknowledged = true ∧ t.leaves.length + 1 ≤ vecCapacity ∧
        r = ⟨.ok t.leaves.length, { t with leaves := t.leaves ++ [c], cachedRoot := none },
          { store with merkleTree := store.merkleTree.put (leafKey t.leaves.length) c.toList }⟩ := by
  unfold MerkleTree.insert at h
  cases acknowledged with
  | false => exact .inl ⟨rfl, (Option.some.inj h).symm⟩
  | true =>
    simp only [insertCommitment, commit, if_true, Option.map_eq_some_iff] at h
    obtain ⟨t', hpush, rfl⟩ := h
    obtain ⟨hroom, rfl⟩ := push_some hpush
    exact .inr ⟨rfl, hroom, rfl⟩

/-- A batch fails without effect, or adds the leaves to the memory and the disk. -/
theorem insertBatch_some (h : t.insertBatch store acknowledged cs = some r) :
    acknowledged = false ∧ r = ⟨.error .write, t, store⟩ ∨
      acknowledged = true ∧ t.leaves.length + cs.length ≤ vecCapacity ∧
        r = ⟨.ok (range' t.leaves.length cs.length), { t with leaves := t.leaves ++ cs, cachedRoot := none }, { store with
            merkleTree :=
              store.merkleTree.putAll (cs.zipIdx.map fun c => (leafKey (t.leaves.length + c.2), c.1.toList)) }⟩ := by
  unfold MerkleTree.insertBatch at h
  cases acknowledged with
  | false => exact .inl ⟨rfl, (Option.some.inj h).symm⟩
  | true =>
    simp only [insertCommitmentsBatch, commit, if_true, Option.map_eq_some_iff] at h
    obtain ⟨t', hpush, rfl⟩ := h
    obtain ⟨hroom, rfl⟩ := push_some hpush
    exact .inr ⟨rfl, hroom, rfl⟩

theorem withStorage_ok (h : MerkleTree.withStorage store = .ok t) :
    store.getAllCommitments = .ok t.leaves ∧ store.getMerkleRoot = .ok t.cachedRoot ∧ t.depth = defaultTreeDepth := by
  simp only [MerkleTree.withStorage, Checked.seq_ok_iff, Checked.return_ok_iff] at h
  obtain ⟨leaves, hleaves, cachedRoot, hroot, rfl⟩ := h
  exact ⟨hleaves, hroot, rfl⟩

end MerkleTree

end Paraloom.OffChain
