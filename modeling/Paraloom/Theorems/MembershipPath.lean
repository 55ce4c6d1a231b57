import Paraloom.Lemmas.Membership
import Paraloom.Theorems.DepositLeaf

/-!
# Membership proofs from the working set

The tree account holds one left node for every height, the last one that was begun. With the empty subtrees these are the siblings
of the leaf that was appended last. An earlier leaf has other siblings as soon as something was appended to its right.
-/

namespace Paraloom.OffChain

open HashTree IncrementalMerkleTree MembershipAux List DepositSample

/-- The siblings of a leaf in the complete tree, from the leaf up. -/
def siblingsOf (pair : Fr → Fr → Fr) (leaves : List Fr) (i : Nat) : List Fr :=
  (range treeDepth).map fun level => node pair (padded 0 leaves) level (sibling (i / 2 ^ level))

/-- At every height at which the leaf is on the left, the subtree to its right has the root of the empty subtree, and at every
height at which it is on the right, the left node that was begun last has the root of the subtree to its left. -/
def SiblingsInReach (pair : Fr → Fr → Fr) (leaves : List Fr) (i : Nat) : Prop :=
  ∀ level < treeDepth, if i / 2 ^ level % 2 = 1 then
      node pair (padded 0 leaves) level (2 * ((leaves.length - 1) / 2 ^ level / 2)) =
        node pair (padded 0 leaves) level (i / 2 ^ level - 1)
    else node pair (fun _ => 0) level 0 = node pair (padded 0 leaves) level (i / 2 ^ level + 1)

namespace MembershipAux

theorem toBytesLe_injective : Function.Injective toBytesLe :=
  Function.LeftInverse.injective fromLeBytesModOrder_toBytesLe

variable {pair : Fr → Fr → Fr} {leaves : List Fr} {i : Nat}

theorem fold_siblingsOf (hi : i < leaves.length) (hlen : leaves.length ≤ 2 ^ treeDepth) :
    fold pair leaves[i] i (siblingsOf pair leaves i) = completeRoot pair 0 treeDepth leaves := by
  have hleaf : node pair (padded 0 leaves) 0 i = leaves[i] := by
    rw [node, padded, getD_eq_getElem _ _ hi]
  have hfold := @fold_node Fr pair (padded 0 leaves) 0 i (siblingsOf pair leaves i) (by
    intro k hk
    simp [siblingsOf])
  have hlength : (siblingsOf pair leaves i).length = treeDepth := by simp [siblingsOf]
  rwa [hleaf, hlength, Nat.zero_add, Nat.div_eq_of_lt (hi.trans_le hlen)] at hfold

theorem siblingsInReach_last (hi : i + 1 = leaves.length) : SiblingsInReach pair leaves i := by
  intro level _
  have hlast : leaves.length - 1 = i := by omega
  split
  · rename_i hodd
    rw [hlast]
    congr 1
    omega
  · -- the subtree to the right of the last leaf starts behind the leaves
    have hempty : EmptyNode (fun a b r => pair a b = r) 0 level (node pair (fun _ => 0) level 0) :=
      (node_iff fun _ _ _ => Iff.rfl).mpr rfl
    refine ((node_iff fun _ _ _ => Iff.rfl).mp (hempty.node ?_)).symm
    intro k hk
    refine padded_of_length_le (hi ▸ Nat.succ_le_of_lt (lt_of_lt_of_le ?_ hk))
    exact (Nat.div_lt_iff_lt_mul (Nat.two_pow_pos level)).mp (Nat.lt_succ_self _)

/-- What the relayer takes for the siblings, as field elements. -/
def reconstructed (pair : Fr → Fr → Fr) (t : IncrementalMerkleTree Fr) (i : Nat) : List Fr :=
  (finRange treeDepth).map fun level =>
    if i / 2 ^ level.val % 2 = 1 then t.filledSubtrees.get level else node pair (fun _ => 0) level 0

theorem path_eq : (range txLevels).map
        (membershipSibling (emptySubtreeHashes pair 0 txLevels) ((t.map toBytesLe).accountData discriminator) i) =
      (reconstructed pair t i).map toBytesLe := by
  have hrange : range txLevels = (finRange treeDepth).map Fin.val := map_coe_finRange_eq_range.symm
  rw [hrange, reconstructed, map_map, map_map]
  refine map_congr_left ?_
  intro level _
  have hzero : (emptySubtreeHashes pair 0 txLevels).getD level 0 = node pair (fun _ => 0) level 0 := by
    have h := @emptiesFrom_getD Fr pair (fun _ => 0) 0 0 level txLevels 0 level.isLt.le fun _ => rfl
    rwa [Nat.zero_add] at h
  rw [Function.comp_apply, Function.comp_apply, membershipSibling, wordAt_filledSubtrees, hzero, apply_ite toBytesLe]
  rw [IncrementalMerkleTree.map, List.Vector.get_map]

theorem readMembership_eq (t : IncrementalMerkleTree Fr) (commitment : Fr) :
    readMembership pair (.ok ((t.map toBytesLe).accountData discriminator)) i commitment =
      if fold pair commitment i (reconstructed pair t i) = t.root then
        .ok ⟨i, toBytesLe t.root, (reconstructed pair t i).map toBytesLe⟩
      else .error (.rootMismatch i) := by
  have hroot : wordAt ((t.map toBytesLe).accountData discriminator) 24 = toBytesLe t.root := wordAt_root ..
  unfold readMembership
  dsimp only
  rw [if_neg (Nat.not_lt.mpr (length_accountData ..)), path_eq, foldl_membershipFold, pow_zero, Nat.div_one, hroot]
  by_cases h : fold pair commitment i (reconstructed pair t i) = t.root
  · rw [if_pos h, h, if_neg (not_not.mpr rfl)]
  · rw [if_neg h, if_pos (toBytesLe_injective.ne h)]

theorem reconstructed_eq_iff
    (hlast : LastLeft (PairHash (total pair)) (padded 0 leaves) 0 (leaves.length - 1) t.filledSubtrees.val) :
    reconstructed pair t i = siblingsOf pair leaves i ↔ SiblingsInReach pair leaves i := by
  have hrange : range treeDepth = (finRange treeDepth).map Fin.val := map_coe_finRange_eq_range.symm
  have hfilled : ∀ level : Fin treeDepth, t.filledSubtrees.get level =
      node pair (padded 0 leaves) level (2 * ((leaves.length - 1) / 2 ^ level.val / 2)) := by
    intro level
    have hentry := hlast.entry level (by rw [t.filledSubtrees.property]; exact level.isLt)
    rw [Nat.zero_add, node_iff (pairHash_total pair)] at hentry
    exact hentry.symm
  rw [reconstructed, siblingsOf, hrange, map_map, map_inj_left]
  constructor
  · intro h level hlevel
    have hentry := h ⟨level, hlevel⟩ (mem_finRange _)
    rw [hfilled, Function.comp_apply, sibling] at hentry
    split
    · rename_i hodd
      rwa [if_pos hodd, if_pos hodd] at hentry
    · rename_i heven
      rwa [if_neg heven, if_neg heven] at hentry
  · intro h level _
    have hentry := h level level.isLt
    rw [hfilled, Function.comp_apply, sibling]
    split
    · rename_i hodd
      rwa [if_pos hodd] at hentry
    · rename_i heven
      rwa [if_neg heven] at hentry

end MembershipAux

/-- The program appends up to `2 ^ 32` leaves with a pair hash on words that agrees with the relayer's. For a leaf of the tree,
the relayer returns the siblings of the leaf, which fold to the root of the account, exactly when they are in reach. -/
theorem read_membership_iff (pair : Fr → Fr → Fr) (hash : Bytes32 → Bytes32 → Result Bytes32)
    (hagree : ∀ a b, hash (toBytesLe a) (toBytesLe b) = .ok (toBytesLe (pair a b))) (discriminator : List.Vector UInt8 8)
    (leaves : List Fr) (hlen : leaves.length ≤ 2 ^ treeDepth) (i : Nat) (hi : i < leaves.length) :
    ∃ t, build hash (toBytesLe 0) ((zerosOf pair 0).map toBytesLe) (leaves.map toBytesLe) = .ok t ∧
      (readMembership pair (.ok (t.accountData discriminator)) i leaves[i] =
          .ok ⟨i, t.root, (siblingsOf pair leaves i).map toBytesLe⟩ ∧
        toBytesLe (fold pair leaves[i] i (siblingsOf pair leaves i)) = t.root ↔
        SiblingsInReach pair leaves i) ∧
      (i + 1 = leaves.length → SiblingsInReach pair leaves i) := by
  have hne : leaves ≠ [] := ne_nil_of_length_pos (Nat.zero_lt_of_lt hi)
  obtain ⟨t, hbuild, ht, hlast⟩ := build_lastLeft (zeroHashes_zerosOf pair 0) hne hlen
  have hroot : fold pair leaves[i] i (siblingsOf pair leaves i) = t.root :=
    (fold_siblingsOf hi hlen).trans ((node_iff (pairHash_total pair)).mp ht.root)
  refine ⟨t.map toBytesLe, build_map hagree hbuild, ?_, siblingsInReach_last⟩
  rw [readMembership_eq, ← reconstructed_eq_iff hlast]
  constructor
  · rintro ⟨hread, -⟩
    split at hread
    · obtain ⟨-, -, hpath⟩ := Membership.mk.inj (Except.ok.inj hread)
      exact toBytesLe_injective.list_map hpath
    · cases hread
  · intro h
    rw [h, if_pos hroot, hroot]
    exact ⟨rfl, rfl⟩

namespace MembershipSample

/-- Poseidon of two, as the relayer and the program compute it. -/
def pair : Fr → Fr → Fr := v3MerklePair poseidon

theorem agrees (a b : Fr) : poseidon2 ctx (toBytesLe a) (toBytesLe b) = .ok (toBytesLe (pair a b)) := by
  have h := poseidonAgrees [toBytesLe a, toBytesLe b] (by simp) (by simp) (by simp [canonical_toBytesLe])
  rw [poseidon2, Ctx.hashv, h]
  simp [pair, v3MerklePair]

def leaves : List Fr := [Sample.depositLeaf, Sample.changeLeaf]

def account : Result (IncrementalMerkleTree Bytes32) :=
  build (poseidon2 ctx) (toBytesLe 0) ((zerosOf pair 0).map toBytesLe) (leaves.map toBytesLe)

def discriminator : List.Vector UInt8 8 := List.Vector.replicate 8 0

end MembershipSample

open MembershipSample in
/-- The path of the second of two leaves. -/
theorem read_membership_iff_last : ∃ t, account = .ok t ∧
    readMembership pair (.ok (t.accountData discriminator)) 1 Sample.changeLeaf =
      .ok ⟨1, t.root, (siblingsOf pair leaves 1).map toBytesLe⟩ := by
  obtain ⟨t, hbuild, hiff, hlast⟩ := read_membership_iff pair (poseidon2 ctx) agrees discriminator leaves
    (by decide) 1 (by decide)
  exact ⟨t, hbuild, (hiff.mpr (hlast rfl)).1⟩

open MembershipSample in
/-- The relayer does not find the path of a deposit once a leaf was appended after it. -/
theorem read_membership_loses_first_leaf : ∃ t, account = .ok t ∧ leaves[0]? = some Sample.depositLeaf ∧
    readMembership pair (.ok (t.accountData discriminator)) 0 Sample.depositLeaf = .error (.rootMismatch 0) := by
  have hread : account.map (fun t => readMembership pair (.ok (t.accountData discriminator)) 0 Sample.depositLeaf) =
      .ok (.error (.rootMismatch 0)) := by decide +kernel
  cases haccount : account with
  | error e =>
    rw [haccount] at hread
    cases hread
  | ok t =>
    rw [haccount] at hread
    exact ⟨t, rfl, rfl, Except.ok.inj hread⟩

end Paraloom.OffChain
