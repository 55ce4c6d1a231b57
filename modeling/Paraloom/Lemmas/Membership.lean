import Paraloom.Lemmas.MerkleTree
import Paraloom.Lemmas.OffChainTree
import Paraloom.OffChain.Membership

/-!
# The tree account as the relayer reads it
-/

namespace Paraloom

open HashTree List Checked LittleEndian

namespace IncrementalMerkleTree

variable {α β : Type} {z : α} {H : α → α → α}

/-! ## The working set after an append -/

/-- After the appends the working set holds the last left node of every height. -/
theorem build_lastLeft (hzero : ZeroHashes H z zeros) (hne : leaves ≠ []) (hlen : leaves.length ≤ 2 ^ treeDepth) :
    ∃ t, build (total H) z zeros leaves = .ok t ∧ Represents (total H) z t leaves ∧
      LastLeft (PairHash (total H)) (padded z leaves) 0 (leaves.length - 1) t.filledSubtrees.val := by
  obtain ⟨older, leaf, rfl⟩ := (eq_nil_or_concat' leaves).resolve_left hne
  rw [length_append, length_singleton] at hlen
  obtain ⟨t, hbuild, ht⟩ := build_represents hzero older (by omega)
  obtain ⟨t', happ⟩ := append_total hzero ht.nextIndex hlen ht.frontier leaf
  refine ⟨t', build_concat hbuild happ, (ht.append hzero.zeroTable happ).1, ?_⟩
  obtain ⟨-, -, filled, hclimb, rfl⟩ := append_ok_iff.mp happ
  rw [ht.nextIndex] at hclimb
  have hleaf : Node (PairHash (total H)) (padded z (older ++ [leaf])) 0 older.length leaf :=
    (padded_append_length z leaf older).symm
  obtain ⟨-, -, hlast⟩ := climb_spec hzero.zeroTable.siblings ht.frontier hleaf
    (fun k hk => (padded_append_left (by simpa using hk)).symm)
    (fun k hk => padded_of_length_le (by simpa using hk)) hclimb
  rwa [length_append, length_singleton, Nat.add_sub_cancel]

/-! ## Trees under a map of the nodes -/

def map (g : α → β) (t : IncrementalMerkleTree α) : IncrementalMerkleTree β :=
  ⟨t.nextIndex, t.rootIndex, g t.root, t.filledSubtrees.map g, t.rootHistory.map g⟩

theorem siblings_map : siblings (zeros.map g) = (siblings zeros).map g := by
  ext i
  simp [siblings]

theorem map_set (v : List.Vector α n) (i : Fin n) (x : α) : (v.set i x).map g = (v.map g).set i (g x) := by
  ext j
  rw [List.Vector.get_map, List.Vector.get_set_eq_if, List.Vector.get_set_eq_if, List.Vector.get_map]
  exact apply_ite g _ _ _

section

variable {g : α → β} {hash : β → β → Result β} (hg : ∀ a b, hash (g a) (g b) = .ok (g (H a b)))

include hg

theorem climb_map (zeros filled : List.Vector α n) (m : Nat) (current : α) {root : α}
    (h : climb (total H) zeros filled m current = .ok (root, filled')) :
    climb hash (zeros.map g) (filled.map g) m (g current) = .ok (g root, filled'.map g) := by
  induction n generalizing m current root with
  | zero =>
    rw [climb, return_ok_iff, Prod.mk.injEq] at h
    obtain ⟨rfl, rfl⟩ := h
    rfl
  | succ n ih =>
    obtain ⟨z₀, zs, rfl⟩ := zeros.exists_eq_cons
    obtain ⟨x, xs, rfl⟩ := filled.exists_eq_cons
    rw [List.Vector.map_cons, List.Vector.map_cons]
    unfold climb at h ⊢
    simp only [List.Vector.head_cons, List.Vector.tail_cons] at h ⊢
    split at h
    · rename_i heven
      obtain ⟨_, hnext, r, hr, hreturn⟩ := (seq_ok_iff.mp h).imp fun _ hs => hs.imp_right seq_ok_iff.mp
      obtain rfl := Except.ok.inj hnext
      obtain ⟨rfl, rfl⟩ := Prod.mk.inj (return_ok_iff.mp hreturn)
      rw [if_pos heven, hg]
      exact seq_ok_iff.mpr ⟨_, rfl, seq_ok_iff.mpr ⟨_, ih zs xs _ _ hr, rfl⟩⟩
    · rename_i hodd
      obtain ⟨_, hnext, r, hr, hreturn⟩ := (seq_ok_iff.mp h).imp fun _ hs => hs.imp_right seq_ok_iff.mp
      obtain rfl := Except.ok.inj hnext
      obtain ⟨rfl, rfl⟩ := Prod.mk.inj (return_ok_iff.mp hreturn)
      rw [if_neg hodd, hg]
      exact seq_ok_iff.mpr ⟨_, rfl, seq_ok_iff.mpr ⟨_, ih zs xs _ _ hr, rfl⟩⟩

theorem append_map (h : append (total H) zeros t leaf = .ok (t', r)) :
    append hash (zeros.map g) (t.map g) (g leaf) = .ok (t'.map g, g r) := by
  obtain ⟨hroom, hfits, filled, hclimb, rfl⟩ := append_ok_iff.mp h
  refine append_ok_iff.mpr ⟨hroom, hfits, _, climb_map hg _ _ _ _ hclimb, ?_⟩
  rw [map, map, map_set]

/-- The account over the images of the leaves is the image of the account. -/
theorem build_map (h : build (total H) z zeros leaves = .ok t) :
    build hash (g z) (zeros.map g) (leaves.map g) = .ok (t.map g) := by
  induction leaves using reverseRecOn generalizing t with
  | nil =>
    obtain rfl := Except.ok.inj h
    have hhistory : ((List.Vector.replicate rootHistorySize z).set 0 (emptyRoot zeros)).map g =
        (List.Vector.replicate rootHistorySize (g z)).set 0 (g (emptyRoot zeros)) := by
      rw [map_set]
      rfl
    have hroot : emptyRoot (zeros.map g) = g (emptyRoot zeros) := by
      rw [emptyRoot, List.Vector.get_map, emptyRoot]
    rw [build, map_nil, foldlM_nil, siblings_map, hroot, init, map, init, hhistory]
    rfl
  | append_singleton leaves leaf ih =>
    rw [build, foldlM_append] at h
    obtain ⟨t₁, hbuild, hlast⟩ := seq_ok_iff.mp h
    rw [foldlM_cons] at hlast
    obtain ⟨t₂, hstep, hreturn⟩ := seq_ok_iff.mp hlast
    obtain ⟨⟨t₃, r⟩, happ, hpair⟩ := seq_ok_iff.mp hstep
    obtain rfl := Except.ok.inj hpair
    obtain rfl := Except.ok.inj hreturn
    have happ' := append_map hg happ
    rw [← siblings_map] at happ'
    rw [map_append]
    exact build_concat (ih hbuild) happ'

end

end IncrementalMerkleTree

namespace OffChain

namespace MembershipAux

/-! ## Reading the account -/

theorem wordAt_append (word : Bytes32) (rest : Bytes) : wordAt (before ++ (word.toList ++ rest)) before.length = word := by
  have htake : ((before ++ (word.toList ++ rest)).drop before.length).take 32 = word.toList := by
    rw [drop_left, take_left' word.toList_length]
  have hlt : toNat word.toList < 256 ^ 32 := by
    have h := toNat_lt word.toList
    rwa [word.toList_length] at h
  rw [wordAt, htake]
  exact (vec_eq_iff hlt word).mpr rfl

theorem flatMap_split (words : List Bytes32) (hk : k < words.length) :
    ∃ before rest, words.flatMap List.Vector.toList = before ++ (words[k].toList ++ rest) ∧ before.length = k * 32 := by
  refine ⟨(words.take k).flatMap List.Vector.toList, (words.drop (k + 1)).flatMap List.Vector.toList, ?_, ?_⟩
  · rw [← flatMap_cons, ← drop_eq_getElem_cons hk, ← flatMap_append, take_append_drop]
  · rw [length_flatMap]
    simp [Nat.min_eq_left hk.le]

variable (discriminator : List.Vector UInt8 8) (t : IncrementalMerkleTree Bytes32)

theorem length_accountData : 56 + txLevels * 32 ≤ (t.accountData discriminator).length := by
  have hfilled : t.filledSubtrees.toList.length = 32 := t.filledSubtrees.toList_length
  simp only [IncrementalMerkleTree.accountData, length_append, length_flatMap, List.Vector.toList_length,
    map_const', sum_replicate, hfilled, ofNat_length, txLevels, smul_eq_mul]
  omega

theorem wordAt_root : wordAt (t.accountData discriminator) 24 = t.root := by
  have hsplit : t.accountData discriminator = (discriminator.toList ++ ofNat 8 t.nextIndex ++
      ofNat 8 t.rootIndex.val) ++ (t.root.toList ++ (t.filledSubtrees.toList.flatMap List.Vector.toList ++
        t.rootHistory.toList.flatMap List.Vector.toList)) := by
    simp [IncrementalMerkleTree.accountData]
  have hlength : (discriminator.toList ++ ofNat 8 t.nextIndex ++ ofNat 8 t.rootIndex.val).length = 24 := by simp
  rw [hsplit, ← hlength, wordAt_append]

theorem wordAt_filledSubtrees (k : Fin treeDepth) :
    wordAt (t.accountData discriminator) (56 + k * 32) = t.filledSubtrees.get k := by
  have hk : k.val < t.filledSubtrees.toList.length := by rw [List.Vector.toList_length]; exact k.isLt
  obtain ⟨before, rest, hwords, hlength⟩ := flatMap_split t.filledSubtrees.toList hk
  have hsplit : t.accountData discriminator = (discriminator.toList ++ ofNat 8 t.nextIndex ++
      ofNat 8 t.rootIndex.val ++ t.root.toList ++ before) ++ (t.filledSubtrees.toList[k].toList ++
        (rest ++ t.rootHistory.toList.flatMap List.Vector.toList)) := by
    rw [IncrementalMerkleTree.accountData, hwords]
    simp
  have hlength' : (discriminator.toList ++ ofNat 8 t.nextIndex ++ ofNat 8 t.rootIndex.val ++
      t.root.toList ++ before).length = 56 + k * 32 := by
    simp only [length_append, List.Vector.toList_length, ofNat_length, hlength]
  rw [hsplit, ← hlength', wordAt_append, List.Vector.get_eq_get_toList]
  rfl

/-! ## Folding the path -/

/-- The loop folds the siblings in the order that the bits of the index give. -/
theorem foldl_membershipFold (pair : Fr → Fr → Fr) (leafIndex : Nat) (path : List Fr) (cur : Fr) (level : Nat) :
    ((path.map toBytesLe).zipIdx level).foldl (membershipFold pair leafIndex) cur =
      fold pair cur (leafIndex / 2 ^ level) path := by
  induction path generalizing cur level with
  | nil => rfl
  | cons s path ih =>
    have hdiv : leafIndex / 2 ^ level / 2 = leafIndex / 2 ^ (level + 1) := by
      rw [Nat.div_div_eq_div_mul, Nat.pow_succ]
    rw [map_cons, zipIdx_cons, foldl_cons, ih, fold, hdiv, membershipFold, fromLeBytesModOrder_toBytesLe]

end MembershipAux

end OffChain

end Paraloom
