import Paraloom.Lemmas.MerkleTree
import Paraloom.Lemmas.Notes
import Paraloom.Lemmas.Pool

/-!
# No inflation

The accounts of the program hold a pool: the leaves of the tree and the recorded nullifiers, lifted to the field. Under an
ideal hash and a sound proof system every step that touches notes is a step of the pool, so what the unspent native notes are
worth is what was deposited and not yet withdrawn.
-/

namespace Paraloom

open IncrementalMerkleTree HashTree List TransactCircuitV3.PublicInputs

/-- The cryptography of the program is ideal: the syscall computes an ideal hash, the zero table holds its empty subtrees, and
the verifier accepts only what the circuit can be satisfied for. -/
structure Ideal (Γ : Ctx) (Hash : HashRel) : Prop where
  hash : Hash.Ideal
  syscall : ∀ {xs y}, Γ.solPoseidon xs = some y → Hash (xs.map fromLeBytesModOrder) (fromLeBytesModOrder y)
  zeroHashes : ∀ k < treeDepth, Γ.solPoseidon [zeroHash k, zeroHash k] = some (zeroHash (k + 1))
  groth16 : ∀ {a b c pub}, Γ.groth16 a b c (TransactCircuitV3.PublicInputs.toList pub) = true →
    TransactCircuitV3.Satisfiable Hash pub

/-- The pool that the accounts hold. -/
def State.pool (s : State) : Pool where
  leaves := s.leaves.map fromLeBytesModOrder
  spent := {nf | ∃ n ∈ s.nullifiers, fromLeBytesModOrder n = nf}

namespace NoInflationAux

variable {s s' : State}

/-! ## The tree -/

theorem lift_zero32 : fromLeBytesModOrder zero32 = 0 := by decide +kernel

theorem hashv_ok (ideal : Ideal Γ Hash) (h : Γ.hashv xs = .ok y) :
    Hash (xs.map fromLeBytesModOrder) (fromLeBytesModOrder y) := by
  rw [Ctx.hashv, okOr_ok_iff] at h
  exact ideal.syscall h

/-- The table holds the roots of the empty subtrees. -/
theorem zeroTable (ideal : Ideal Γ Hash) : ZeroTable (poseidon2 Γ) zero32 zeroSiblings (zeroHash treeDepth) := by
  have hempty : ∀ k ≤ treeDepth, EmptyNode (PairHash (poseidon2 Γ)) zero32 k (zeroHash k) := by
    intro k
    induction k with
    | zero => exact fun _ => show zeroHash 0 = zero32 by decide +kernel
    | succ k ih =>
      intro hk
      refine (ih (by omega)).succ ?_
      rw [PairHash, poseidon2, Ctx.hashv, ideal.zeroHashes k hk]
      rfl
  have hval : zeroSiblings.val = ofFn fun i : Fin treeDepth => zeroHash i := List.Vector.toList_ofFn _
  refine ⟨?_, hempty treeDepth le_rfl⟩
  rw [hval]
  refine EmptyTable.of_forall fun k hk => ?_
  rw [List.getElem_ofFn, Nat.zero_add]
  rw [length_ofFn] at hk
  exact hempty k hk.le

theorem leaf_pool : s.pool.leaf i = fromLeBytesModOrder (padded zero32 s.leaves i) := by
  rw [Pool.leaf, State.pool, ← lift_zero32, padded_map]

theorem attests_of_isKnownRoot (ideal : Ideal Γ Hash) {tree : MerkleTree} {root : Bytes32}
    (ht : Represents (poseidon2 Γ) zero32 tree s.leaves) (h : tree.isKnownRoot root = true) :
    s.pool.Attests Hash (fromLeBytesModOrder root) := by
  intro n c hc hfold
  obtain ⟨k, hk, hroot⟩ := ht.of_isKnownRoot h
  have hnode : Node Hash.pair (fun j => fromLeBytesModOrder (padded zero32 (s.leaves.take k) j)) treeDepth 0
      (fromLeBytesModOrder root) :=
    Node.map (fun _ _ _ hr => hashv_ok ideal hr) hroot
  have hinj : ∀ a b a' b' r, Hash.pair a b r → Hash.pair a' b' r → a = a' ∧ b = b' := by
    intro a b a' b' r hr hr'
    simpa using ideal.hash.injective hr hr' rfl
  have hleaf : Node Hash.pair (fun j => fromLeBytesModOrder (padded zero32 (s.leaves.take k) j)) 0 n.leafIndex.toNat c := by
    refine Fold.node hinj hfold ?_
    rw [n.siblings.property, Nat.div_eq_of_lt n.leafIndex.toNat_lt, Nat.zero_add]
    exact hnode
  rw [Node] at hleaf
  -- the leaf is not empty, so it is one of the first `k`
  have hlt : n.leafIndex.toNat < (s.leaves.take k).length := by
    by_contra hge
    rw [padded_of_length_le (Nat.le_of_not_lt hge), lift_zero32] at hleaf
    exact hc hleaf
  rw [leaf_pool, hleaf]
  have hlen : (s.leaves.take k).length = k := by rw [length_take, Nat.min_eq_left hk]
  refine ⟨by rw [State.pool, length_map]; omega, ?_⟩
  conv_lhs => rw [← take_append_drop k s.leaves]
  rw [padded_append_left hlt]

/-! ## The accounts hold a pool -/

/-- What holds of the accounts at every point of a run. -/
structure Sound (Γ : Ctx) (Hash : HashRel) (s : State) : Prop where
  planted : s.merkleTree = none → s.leaves = []
  tree : ∀ {tree}, s.merkleTree = some tree → Represents (poseidon2 Γ) zero32 tree s.leaves
  canonical : ∀ n ∈ s.nullifiers, Canonical n
  pool : s.pool.WellFormed Hash
  balance : (s.pool.outstanding Hash 0 : Int) = s.totalDeposited - s.totalWithdrawn

theorem pool_kept (notes : NotesKept s s') : s'.pool = s.pool := by
  rw [State.pool, notes.leaves, notes.nullifiers, State.pool]

/-- A step that changes no note keeps what holds, if it leaves the right tree. -/
theorem Sound.of_kept (hs : Sound Γ Hash s) (notes : NotesKept s s') (hplanted : s'.merkleTree = none → s.leaves = [])
    (htree : ∀ {tree}, s'.merkleTree = some tree → Represents (poseidon2 Γ) zero32 tree s.leaves) : Sound Γ Hash s' := by
  have hpool := pool_kept notes
  refine ⟨fun hnone => notes.leaves.trans (hplanted hnone), fun ht => notes.leaves.symm ▸ htree ht, ?_, ?_, ?_⟩
  · rw [notes.nullifiers]
    exact hs.canonical
  · rw [hpool]
    exact hs.pool
  · rw [hpool, notes.deposited, notes.withdrawn]
    exact hs.balance

theorem holds_of_commitment (ideal : Ideal Γ Hash) (h : commitment Γ amount pubkey blinding asset = .ok leaf) :
    Pool.Holds Hash (fromLeBytesModOrder asset) (fromLeBytesModOrder leaf) amount := by
  refine ⟨fromLeBytesModOrder pubkey, fromLeBytesModOrder blinding, ?_⟩
  have hhash := hashv_ok ideal h
  have hamount := lift_vec (amount.toNat_lt.trans (by decide))
  simpa [hamount] using hhash

theorem mintToAsset_ne (ideal : Ideal Γ Hash) (h : mintToAsset Γ mint = .ok asset) : fromLeBytesModOrder asset ≠ 0 := by
  intro hzero
  have hhash := hashv_ok ideal h
  rw [hzero] at hhash
  exact ideal.hash.ne_zero hhash

theorem pool_append (hleaves : s'.leaves = s.leaves ++ [leaf]) (hnull : s'.nullifiers = s.nullifiers) :
    s'.pool = s.pool.append (fromLeBytesModOrder leaf) := by
  rw [State.pool, hleaves, hnull, map_append]
  rfl

theorem Sound.deposit (ideal : Ideal Γ Hash) (hs : Sound Γ Hash s) {tree tree' : MerkleTree} {leaf root asset : Bytes32}
    (htree : s.merkleTree = some tree) (happend : tree.append Γ leaf = .ok (tree', root))
    (hholds : Pool.Holds Hash (fromLeBytesModOrder asset) (fromLeBytesModOrder leaf) amount)
    (hleaves : s'.leaves = s.leaves ++ [leaf]) (hnull : s'.nullifiers = s.nullifiers) (htree' : s'.merkleTree = some tree')
    (hdeposited : s'.totalDeposited = s.totalDeposited + if fromLeBytesModOrder asset = 0 then amount.toNat else 0)
    (hwithdrawn : s'.totalWithdrawn = s.totalWithdrawn) : Sound Γ Hash s' := by
  have hpool := pool_append hleaves hnull
  refine ⟨fun hnone => by simp [htree'] at hnone, fun ht => ?_, fun n hn => hs.canonical n (hnull ▸ hn), ?_, ?_⟩
  · rw [htree', Option.some.injEq] at ht
    rw [← ht, hleaves]
    exact ((hs.tree htree).append (zeroTable ideal) happend).1
  · rw [hpool]
    exact hs.pool.append
  · have hbalance := hs.balance
    have happended := Pool.outstanding_append ideal.hash 0 hs.pool hholds
    rw [hpool, happended, hdeposited, hwithdrawn]
    push_cast
    omega

section Settle

variable {args : TransactArgs}

theorem pool_settle (h : SettleOk Γ s authority recipient assetOf args st)
    (hleaves : s'.leaves = s.leaves ++ [args.outCommitment0, args.outCommitment1]) (hnull : s'.nullifiers = st.nullifiers) :
    s'.pool = s.pool.settle (args.publicInputs Γ recipient asset) := by
  have hspent : ∀ nf, nf ∈ s'.pool.spent ↔ nf ∈ (s.pool.settle (args.publicInputs Γ recipient asset)).spent := by
    intro nf
    constructor
    · rintro ⟨n, hn, hlift⟩
      rw [hnull, h.mem_nullifiers] at hn
      simp only [mem_cons, not_mem_nil, or_false] at hn
      subst hlift
      rcases hn with (rfl | rfl) | hn
      · exact .inr (.inl rfl)
      · exact .inl rfl
      · exact .inr (.inr ⟨n, hn, rfl⟩)
    · intro hnf
      suffices hmem : ∃ n ∈ st.nullifiers, fromLeBytesModOrder n = nf by rwa [State.pool, hnull]
      rcases hnf with hnf | hnf | ⟨n, hn, hnf⟩
      · exact ⟨args.nullifier1, h.mem_nullifiers.mpr (.inl (by simp)), hnf.symm⟩
      · exact ⟨args.nullifier0, h.mem_nullifiers.mpr (.inl (by simp)), hnf.symm⟩
      · exact ⟨n, h.mem_nullifiers.mpr (.inr hn), hnf⟩
  have hlist : s'.pool.leaves = (s.pool.settle (args.publicInputs Γ recipient asset)).leaves := by
    simp only [State.pool, hleaves, map_append, Pool.settle, Pool.append, Pool.spend, append_assoc]
    rfl
  exact congr_arg₂ Pool.mk hlist (Set.ext hspent)

/-- A settlement proves a balanced transaction. -/
theorem balanced_of_settle (ideal : Ideal Γ Hash)
    (hproof : verifyTransact Γ (args.publicInputs Γ recipient asset) args.proof = true) :
    ∃ in0 in1 out0 out1, TransactCircuitV3.Balanced Hash (args.publicInputs Γ recipient asset) args.extAmount.toInt in0 in1
      out0 out1 := by
  unfold verifyTransact at hproof
  split at hproof
  · cases hproof
  · exact (ideal.groth16 hproof).sound (fromLeBytesModOrder_publicAmountBytes args.extAmount)

theorem fresh_of_settle (hs : ∀ n ∈ s.nullifiers, Canonical n) (h : SettleOk Γ s authority recipient assetOf args st) :
    ∀ n ∈ [args.nullifier0, args.nullifier1], fromLeBytesModOrder n ∉ s.pool.spent := by
  rintro n hn ⟨m, hm, heq⟩
  obtain ⟨hcanonical, hnew⟩ := h.spendable.2 n hn
  rw [Canonical.lift_inj (hs m hm) hcanonical heq] at hm
  exact hnew hm

variable (ideal : Ideal Γ Hash) (hs : Sound Γ Hash s) (h : SettleOk Γ s authority recipient assetOf args st)
  (hleaves : s'.leaves = s.leaves ++ [args.outCommitment0, args.outCommitment1]) (hnull : s'.nullifiers = st.nullifiers)
include ideal hs h hleaves hnull

/-- A settlement leaves a well-formed pool, and takes out of it what it pays out of its asset. -/
theorem settle_outstanding :
    s'.pool.WellFormed Hash ∧ ∃ asset, assetOf = .ok asset ∧ ∀ x : Fr, (s'.pool.outstanding Hash x : Int) =
      s.pool.outstanding Hash x + if fromLeBytesModOrder asset = x then args.extAmount.toInt else 0 := by
  obtain ⟨tree, _, _, htree, hknown, -, -⟩ := h.tree
  obtain ⟨asset, hasset, hproof⟩ := h.proof
  obtain ⟨in0, in1, out0, out1, hbalanced⟩ := balanced_of_settle ideal hproof
  have hfresh := fresh_of_settle hs.canonical h
  obtain ⟨hwf, houtstanding⟩ := Pool.settle_balanced ideal.hash hs.pool
    (attests_of_isKnownRoot ideal (hs.tree htree) hknown) hbalanced (hfresh _ (by simp)) (hfresh _ (by simp))
  rw [pool_settle h hleaves hnull]
  exact ⟨hwf, asset, hasset, houtstanding⟩

/-- A settlement keeps the accounts sound. -/
theorem Sound.settle (htree' : s'.merkleTree = some st.tree) (hdeposited : s'.totalDeposited = s.totalDeposited)
    (hwithdrawn : ∀ asset, assetOf = .ok asset → s'.totalWithdrawn =
      s.totalWithdrawn + if fromLeBytesModOrder asset = 0 then args.extAmount.toInt.natAbs else 0) : Sound Γ Hash s' := by
  obtain ⟨tree, tree0, root0, htree, -, happend0, happend1⟩ := h.tree
  obtain ⟨hwf, asset, hasset, houtstanding⟩ := settle_outstanding ideal hs h hleaves hnull
  refine ⟨fun hnone => by simp [htree'] at hnone, fun ht => ?_, fun n hn => ?_, hwf, ?_⟩
  · rw [htree', Option.some.injEq] at ht
    have ht0 := ((hs.tree htree).append (zeroTable ideal) happend0).1
    have ht1 := (ht0.append (zeroTable ideal) happend1).1
    rwa [← ht, hleaves, append_cons]
  · rw [hnull, h.mem_nullifiers] at hn
    exact hn.elim (fun hn => (h.spendable.2 n hn).1) (hs.canonical n)
  · have hbalance := hs.balance
    have hext := h.extAmount_nonpos
    rw [houtstanding, hdeposited, hwithdrawn asset hasset]
    split <;> omega

end Settle

theorem Sound.step (ideal : Ideal Γ Hash) (hs : Sound Γ Hash s) {a : Action} (h : Step Γ s a s') : Sound Γ Hash s' := by
  cases h.noteStep with
  | quiet _ notes tree =>
    refine hs.of_kept notes ?_ ?_
    · rw [tree]
      exact hs.planted
    · rw [tree]
      exact hs.tree
  | plant _ notes before after =>
    refine hs.of_kept notes (fun _ => hs.planted before) (fun ht => ?_)
    rw [after, Option.some.injEq] at ht
    rw [← ht, hs.planted before]
    exact represents_init (zeroTable ideal)
  | deposit h =>
    obtain ⟨bridge, tree, _, leaf, tree', root, _, hb, ht, -, -, -, hleaf, happend, hs'⟩ := depositNote_ok h
    refine hs.deposit ideal ht happend (holds_of_commitment ideal hleaf) ?_ ?_ ?_ ?_ ?_
    · rw [hs']
      exact State.leaves_append
    · rw [hs']
    · rw [hs']
    · rw [hs', nativeSolAsset, if_pos lift_zero32]
      simp [State.totalDeposited, hb]
    · rw [hs']
      simp [State.totalWithdrawn, hb]
  | depositSpl h =>
    obtain ⟨tree, _, asset, leaf, tree', root, _, ht, -, -, -, -, hasset, hleaf, happend, hs'⟩ := depositNoteSpl_ok h
    refine hs.deposit ideal ht happend (holds_of_commitment ideal hleaf) ?_ ?_ ?_ ?_ ?_
    · rw [hs']
      exact State.leaves_append
    · rw [hs']
    · rw [hs']
    · rw [hs', if_neg (mintToAsset_ne ideal hasset)]
      rfl
    · rw [hs']
      rfl
  | settle h =>
    obtain ⟨-, st, _, hst, -, _, hs'⟩ := transact_ok h
    refine hs.settle ideal hst ?_ ?_ ?_ ?_ ?_
    · rw [hs']
      exact State.leaves_append
    · rw [hs']
    · rw [hs']
    · rw [hs']
      simp [State.totalDeposited, hst.bridge]
    · intro asset hasset
      cases hasset
      rw [hs', nativeSolAsset, if_pos lift_zero32]
      simp [State.totalWithdrawn, hst.bridge]
  | settleSpl h =>
    obtain ⟨st, _, _, hst, -, -, -, hs'⟩ := transactSpl_ok h
    refine hs.settle ideal hst ?_ ?_ ?_ ?_ ?_
    · rw [hs']
      exact State.leaves_append
    · rw [hs']
    · rw [hs']
    · rw [hs']
      simp [State.totalDeposited, hst.bridge]
    · intro asset hasset
      rw [hs', if_neg (mintToAsset_ne ideal hasset)]
      simp [State.totalWithdrawn, hst.bridge]

theorem sound_genesis : Sound Γ Hash (.genesis programData tokens lamports) := by
  refine ⟨fun _ => rfl, fun h => by simp [State.genesis] at h, fun n hn => ?_, ?_, ?_⟩
  · exact absurd hn (AList.notMem_empty n)
  · rintro nf ⟨n, hn, -⟩
    exact absurd hn (AList.notMem_empty n)
  · simp [State.pool, State.leaves, State.genesis, Pool.outstanding, State.totalDeposited, State.totalWithdrawn]

end NoInflationAux

open NoInflationAux

/-- Over every run from genesis, what the native notes with unrevealed nullifiers are worth is what was deposited and not yet
withdrawn; no more is withdrawn than was deposited. -/
theorem native_notes_backed {Γ : Ctx} {Hash : HashRel} (ideal : Ideal Γ Hash) {programData : RawAccount}
    {tokens : Table Pubkey TokenAccount} {lamports : Ledger Pubkey} {actions : List Action} {s : State}
    (h : Execution Γ (.genesis programData tokens lamports) actions s) :
    s.totalWithdrawn ≤ s.totalDeposited ∧
      s.pool.outstanding Hash (fromLeBytesModOrder nativeSolAsset) = s.totalDeposited - s.totalWithdrawn := by
  have hsound : Sound Γ Hash s :=
    h.invariant sound_genesis (fun _ _ _ hs hstep => Sound.step ideal hs hstep)
  have hbalance := hsound.balance
  rw [nativeSolAsset, lift_zero32]
  omega

/-! ## A sample run over an ideal hash

A deposit of 1 SOL and a withdrawal of 0.4 SOL from its note. The hash is the table of the evaluations that the run makes,
with the outputs the syscall has on these inputs, and the verifier accepts the public inputs of the withdrawal. -/

def HashRel.ofTable (table : List (List Fr × Fr)) : HashRel := fun xs y => table.lookup xs = some y

instance (table : List (List Fr × Fr)) (xs : List Fr) (y : Fr) : Decidable (HashRel.ofTable table xs y) :=
  inferInstanceAs (Decidable (_ = _))

theorem HashRel.ofTable_ideal (hnodup : (table.map Prod.snd).Nodup) (hzero : 0 ∉ table.map Prod.snd) :
    (HashRel.ofTable table).Ideal := by
  have hmem : ∀ {xs y}, HashRel.ofTable table xs y → (xs, y) ∈ table := by
    intro xs y h
    obtain ⟨before, after, htable, -⟩ := lookup_eq_some_iff.mp h
    simp [htable]
  refine ⟨fun h h' => Option.some.inj (h.symm.trans h'), fun h h' _ => ?_, fun h => ?_⟩
  · have heq := inj_on_of_nodup_map hnodup (hmem h) (hmem h') rfl
    exact congrArg Prod.fst heq
  · exact hzero (mem_map.mpr ⟨_, hmem h, rfl⟩)

namespace Sample

def ownerKey : Fr :=
  0x8571a09585854ce8daf7afe8ea55c6f216fd127deb6f2b8e3b81be43d8d3484

def depositLeaf : Fr :=
  0x14781acda8b0dc1deb51cd4dba4445b31d349f92b0ddd251dfc1e803ed5d99d6

def depositSignature : Fr :=
  0x26a1b4ec423ca7ef497aef32bb8324e07162d228209bdb63f982bf9041a8ea5a

def depositNullifier : Fr :=
  0xb08615fed4a110cea829b420da268766893f4ad694d64df4378b8ea680814d3

def dummyLeaf : Fr :=
  0xe20cab23065f8d0c4ab9402ad0b541d7e53434c39bf6b0227d6cc3534aee156

def dummySignature : Fr :=
  0x136a68f57f8f1810013287f65da93a0241bf065737a34782218f4b2a21f21f92

def dummyNullifier : Fr :=
  0xaf54eeffc6db05649bfa686ab23959259446819d311a0f2427b6cd2f8d3eb92

/-- The two outputs, at leaves 1 and 2, and the nodes above the three leaves. -/
def changeLeaf : Fr :=
  0x2dd6e0ed8045916a258127ed4d8904cf36408fd91ff61125eafc30a08113f7d2

def emptyLeaf : Fr :=
  0x114187921c916552aaa476f64b21fd1092fbb93813b1c5f203134eceb7516cb2

def firstPair : Fr :=
  0x2a5310ce6ef3768d91e1cf087a21eaf8966a8fb5b993363390ab4e20a0f7e684

def secondPair : Fr :=
  0x27eba8c6eae099d616120c26c5f6c0fc50506ba9fb52f531c0589b6159d75481

def bothPairs : Fr :=
  0xf9b9de14e31aa99f3f43f4784683ab2e77277aeb74368460da042bf0c59d203

/-- The nodes above the deposited note when it is the only leaf; the last one is the root. -/
def depositPath : List Fr := [ 0x183c7ee78ba354f4862d90957833c263e048b720c5b339eaa737190faa6b8f47,
  0xed5d3ae16c4ac9763c56ca974ea692e4ed666e063610d55596fd26cf66f0ef,
  0x2375f40fa2e59f3a5f5e2de4652a6b308b4c37e7f6ca7d16226207b85cb60ca3,
  0x1640670feb1dc59238386ef10115136fb06cc07972ac4f681083ed2ec9680e85,
  0x2eeb3a1e46295fc05fcfd51e91fcbb1a3583b8b5c7a32a29335840ee5152d375,
  0xd8fee499f9dd22646353678b1a8c34b1562f14cbf56e2c04d8d66e1f3a96a5,
  0x1a7c08e83ffa881b6fd0ad8c2cfef43a7b63c1ef4e14ca60d3e0a357bd2cb93,
  0x270f9747e2cfc65ed1e54cb124cb3db0d5d6dbf8d6521dd63ed064425c3fc0f0,
  0x1db771575f6aa309f11aa275099b39cd0546056cefb9f1ee0c70e75265d7e3a5,
  0x2a9509b2625ee0707c15ef6578400ec2c353acee5ce704385809597b7f748b54,
  0x297d1529191f6b24446363dff367b31cb0a63877983101f1f5ca9978a00991a8,
  0x16fe3da000630de407572ebb2411b97170af3df20d3ff44c57242b2a29ffa0b3,
  0xbadfd860e9960daf81ed19eed0b98c3f86068345f6761796d89c3b003a9df66,
  0xe467d240d50f76d4f5a98a0edbf0e9ccb4e15196df3d87aec06bb4d6c9e54ce,
  0x1cee792872f3df850bbf530f1a6f00b8355c9bd38a189a2341b6665747346a56,
  0xbe8b3a6970b7a6b5c7b8baa8bcee9de08b80066553f13f6b41944769d3a7161,
  0x222d400d2acbd3b6f4337252a24337ca4af7d498efe5e11a772d409f328d6518,
  0x2c3c75a54c1f3d81ae95d7b71fd58da951686d1fa6266a41330dcc39ed78ebcc,
  0xb134b8498ae077194c8e7d64fed61a549b6f2519605af27a7f9442481df0869,
  0x2aabfe2eb6b26882052982b29b150822c4b4a2d9b7d9d3a66ef2d514ea9a4f79,
  0x1bc16973cc76daaf6cfdc065370431725b871794678bd61ec1ac96a7c6feb083,
  0x3ddd93a3c2279db296f2874a22ccd11132db6ee3aa580be16fa6a0c24d65fc5,
  0xe602eb2374f56137e1fbd72cf2139ad0f0a9264b359734467b2bc13a25f55d9,
  0x120e9888fb35f2239c30021b276f3758bef5b75cb0bb96aeff5d37d20f6ddb7b,
  0x1b66eccad8562bdd35ed5625803256fca25b7977a583ba82eea86da5abe87e87,
  0x114b89456f4b397236e619f63dc23f3643367864e3e9d78edf0cd0e4350b21e8,
  0x113a202e54a62752dd8f64ff20a33b85f3e31f7b1c467a693ce73e5270edb5fe,
  0x270b68484edd833ededc5d1eb6fef944759438af908101f41bc2c3ef1e7cad80,
  0x276de3dcd13e8450b9c4b6274f78323f0d7892907d2e8135ee86f5ee7639ffac,
  0x119acca9f30d263952ac34df7d73e468c084cbc7b83eb8c864397b384af8a059,
  0x1097e0ceacc0ddc966edc420abcdef15ce953da18e8e78169f4791dd33913ada,
  0x42e77de1ad920f4ee15830f5d2566465876a8b9eac47a815e80da5f563c81f3]

/-- The nodes that the dummy folds to along the same siblings. -/
def dummyPath : List Fr := [ 0x26e124813a07bea1bfdabb26af057c4cafba4dbc26089980fec16597a85fd3f6,
  0x51ebfab54497dc2b6d9c5ff98d8bb99c1f4c2ada15e5b8065cf4ec54bbf2095,
  0x647f5c99f53374207164a835c802ce33914446f72b0000b1acecd15fb58a1a9,
  0xdea4de6cbef1c5bc721ed50ac67e5e7aede003d8c265455aaf24d3e7c46791,
  0x688a2e2d80fe54d4267c6e0e873ce14f6309a200eb6052cb7435e2312076c6,
  0x2746a8f3bbf3eb0728c549d1be72bf065c2448206e76b9c86d5bfb4d63307f55,
  0x286d892246cb47b30a81d0b55d733c8f4ab302f2e8cda8ab1759dd18af908ea6,
  0x1020d66c798ab8fa616800604d20eda86be8641c6a0890be85184ac597dda1cb,
  0xfb24b3b98cf58e030d30bb26eca9f1ef08883bfef84e380c6d5a249cba4b798,
  0xa791889602df0e78ca39d066a7e3a39810512679986a1bd7a477d81b915b88b,
  0x13ea4daeace5b5f2dd337d7730a492147d6581d96ec33adab613641a57c05506,
  0x419abd0098dea8a84bb71f474ce6aa8751d5578c895d1778b26329658170a0e,
  0x2282e6b1995cba6ea50007abe3d5ab080458e07144f37ddb4744f8f4b4b86e19,
  0x278dce8a5606859d033a0b1fbef717f2cb84753e72ddeb6f11cfc8559abff9a8,
  0x258061a651006e70fe75d8fa84e30570fb018ad69b763ca710b0999d0f4dee23,
  0x119fc48dfc9ae6e184aed2fde03eb1b84d6059c2f2acc4a7695e5c683421a19a,
  0x29c9910d7729db16e4c2495157b69c51d3992edd43d9920d7ada28d9e7972d2,
  0x12fadee51d673dcadbb9e9a42166ea1e37c0604c68800fd6bb5a3b8d07b9eeb4,
  0x160d057be41f684f0bacd95e19c1813c7447d4c60e2a3cba281dba7d6612c030,
  0x44a219dc90b0c8b5dd1f286e2ae5e543ab0bea131f4006fb40db7cb433447d,
  0xfad5a37d81704d0ee4c5e27017714e07eaf02b1a868b8403088d52dee7f4af6,
  0x15089078d38e94145c7b8edb578028c563a1d5e8b8cde9dbd40c5a5a1c843e16,
  0x215a5b6f1c0edcf93db749b65e3268d939748ef20cd6b218e83f1000b0c3877,
  0xb6e5be926b2e734f8ac51c8a76facd054339dabcdf853da00783f0b0179e658,
  0xff757636b8af7ca4e9db14406e71b48b2ffa796d9b207f9f83fff809bd69a59,
  0x28b8339a9683bcf745fa3b823d58a8c475e41d505fd28cd5f50ae5e85f642f32,
  0x2463e741d26378f9f58673f68b00dfe88019604689ba743fb1836c0fdd875454,
  0x2d5e3f80314cb9f92a641f6d933000ad548f4e8f674091d70badce93e9d5d24,
  0x7c269b55ba017d80149eb252fb8a6c35ab7e364fe8a68921d444b6ad87fd303,
  0xed1bfd8857b5dd28661d76ff50aaf3e94e79cc371cac2cfb57e87b4b3266fa4,
  0x160aa5fb2eb6037cff0526fb20773861a6d14f3e3453c4c38946361bb4882e3a,
  0x2d7fdcc63f6cf0bb32437ce130803d344e07d28f8950e70302f42f1f50a62969]

/-- The nodes above the first pair. -/
def changePath : List Fr := [ 0x181bf43e84a1fb03938364e84fb321e6cb423e60dbf5abb5f03fbc1fa2a8d96,
  0xf007414f79e9815c1b45553b754a8e8f47820d9e41497f027efeb405ceb4108,
  0xb2999a5036d166a6e35f897a2593d0e34d9725e183115c6da5f30d1e76a33d0,
  0x26028937efe44e5daa1951f20d987fdffab7f44eeef7a50a8b3bb7b83087f0e4,
  0x34e97a66ffe329d44bc4c5fa8daa7c003a665de6aace3078589370ca583ed74,
  0x14ae4e54a8caa40f8ffa5019236683355968718ab7ef12fe618a52231f395c0e,
  0x680678d5ac5538479bcc895fddd686016be2fb22f4cbe674831e138d5a6c712,
  0x1d6568f8fb460471e3f4027568ae48b16e9305e7352ed11a5ca48288a9846b51,
  0x17552bd3a31f8fa962b2ecefe3995661748d9b0e8daf3308845ce994370b62ab,
  0x17b369812d6e9bcc5f353105bf7c6180bf4173627130f34f44296ebc164b75d,
  0x265f359c0b68c8e2d839c0aa21befa7893c767934b67c106044042f707ba8405,
  0x2f277f259bc246be15afcc2d3e0cde5dba35dbea21fc98b0de1c09d0f667ed19,
  0x291cced7c31b695c66292e25354c072978c0fa26bc358a70fe069bdcd826d5e7,
  0x1f346f99056f1afaaa98dc3a48598fce49be83a4b7cd3bd148db7fadc9f7345f,
  0x4edb9eaa3c8139549222fe25d16451d983fccd5567d67212ef700b3d45c2bf,
  0x29b7b48d091c028c25fbd74ef6f5a724c2551e21e45de1be68c6a40b9e679436,
  0x172e57c5ea18eacf1e3894500dbc3c14b8feae37e04a8a5be69b9daed30c39eb,
  0x2ee505f0f825774aedca8c036f89fc9619d86e5c5e2ebb4f24a048f534937404,
  0x7c978838ca77a47b7709e0387b3e36c02d2f097ab3dc1edc78c25f63aaeb55c,
  0xefa0bfd0fb7b7d05204ca01cd85e6558c9471ab08b383e9a0de21e25bef8349,
  0x2457fd5dca8a3869217dd6f959011c6b620443bb9cf936b28d02a7e90640f592,
  0x24cafbe77302d40d305db817082d144e18c574bdd2472c41e02b2f1f8c84e749,
  0x1514b75f927f797a4b23fa9331f6feff906685f3af6cf4e9fdccbc0bd87b8808,
  0x1fe6ab93cd8eb9aac7b9287bdd25bce8eff203b2008686421f67c0fb9498eeb4,
  0x255eecce0c54d09c22bde42ba597cd6fabf5daf315f831de1ec1a39080a6289a,
  0x2f3bede9cc2d292f4e4edf4552b391cae167605c623a2bac11b44858b83810d6,
  0x61961cd3f2b8f05ada584591ef8d52e6473395451d9c782e4e99a398af7cc49,
  0x2a67896358ea6186899796226b25e35edcf23d8ad59d144393f84868f024350f,
  0x180633047a8a3b49aac49ade266f3fe18ce245b6824a08e84872f078c77dbf0f,
  0x1f3f424b3c5f0f49c99e1ba4bb0dd399625d916b47b6aa6caaf8b303f144c2bb,
  0x2fdd320bbcfae92308abbd018c0b8b69c3f96431ab95fb38a5d1da4842355cb]

/-- The nodes above both pairs. -/
def emptyPath : List Fr := [ 0x213290e8c4b8aea8642eee3955b44d46dc93c3e13c88f1888733a0a3220d35db,
  0x44c068dfb8cc32dde3f26d40717caf20bbdd957ffa9c2e98537da458700bef2,
  0x267b302e769a43429c9f4f1597073e777e170ed85344bf75d1b38b425e75b4a1,
  0x1bad607950087b50ed75b4eaa1682b6a1da6ee87511bb37c616c8d7954ca04f9,
  0x27d8325e04f2bc3395f6f8b73ddbdd83c8339fccef6880913cc84a2d527d205a,
  0x2f9c35ba4e9432d4da979ad95dc04e1bbaee18325706aeb672d3e2f440f1135f,
  0x91cccda7695e11b30401cb0c1b17642b5bfd45a70732d51f7769d12ca6e9363,
  0x2259d1e59eef275c77fa40b8607a8aff5e122e8cd1dc8988ae4c3eebbca5f296,
  0x1ba08e39aeaba93b5c607cb2ed8095f6a16b81e82965d2d4755fd5229c1b25c1,
  0x2452bf58e38f0437108938d542d047cc4e2f194c7ca11852303e78b5eee266,
  0x29b434252711c4911f1a42fb4b5cffb8bcc85aa0e909bdb359aa8b1c03b5470a,
  0xd3047f9c82111a429654e828fc4690c3724d3664aa94926b5b88afa55e47e99,
  0x26fcdcac15a797b2eec35d458a4c130a15ff2c7ecb4c7574699a993b4641bc74,
  0x190c7f70387265f6bb236d130179fbd34c1693e3ff498de0aae59e6fd4e3afed,
  0x21138edc32de5d1b53680a7b387cb9599b4b057c633a24af9c581ef974f0e1fc,
  0x1ecb0c63e0b92cede97f73034086f62ffda2d5a9c5278d48c9a3a2edf480eb98,
  0x26818fa71d0e451b90357202503da143e1ba4f72a18a5161837718fa46330a2d,
  0x15c56cb9fad150f66d729349acdfd77666ad7d854ad8df4b728fa4e76c414fbe,
  0x15bb399b7659790f743f481295d80ff913b17de7cdef66f511e85837dd07d94f,
  0x151a451395869804cb0ffc348463c9e3a275c822963ad6bea841c70199e92549,
  0x296d5e99939619daf71012a8cb9f430008148705e839cc95d7b765b45dcfbc0c,
  0x9840d48a56bc86787b32ee7992b082bb640b5e7f8947394c4bed734f0de49c0,
  0x2b69bd4c75195afcf08d62b09b5da67ce67b27d2b8fe6f371b986974a79c79c5,
  0x2a90707dd0a612e9de1fd78bf38c08a3896062e5fdf03ef0f54be1b8fe8d224f,
  0x1ae2e0aacbfe7c4319f60570ea6384c75b8239aeaf2f2fed2f9f63db12325bcd,
  0x22cb2d1c261d7ce4e018fab4a7ed01bdb16ce65b63083a5387b2ca515261f4af,
  0x2d277163e8167c914b013d883ded8dc065dc191a5c10cd35b3ec1030173dfe09,
  0xb8d0feda7282b77dd9e4d161c647da6268657303056f5b51b35a1178ada57ac,
  0xf91704eabe3896f4417a068918ffbb7fd58c64677cf9a8c851c83f81d676d96,
  0xc7e17433bbd07ada09a4eb589c16469aff37343070e20a1324a333326357c29]

def spine : (node : Fr) → (height : Nat) → (path : List Fr) → List (List Fr × Fr)
  | _, _, [] => []
  | node, height, next :: rest => ([node, fromLeBytesModOrder (zeroHash height)], next) :: spine next (height + 1) rest

def evaluations : List (List Fr × Fr) :=
  (range treeDepth).map (fun k =>
    (replicate 2 (fromLeBytesModOrder (zeroHash k)), fromLeBytesModOrder (zeroHash (k + 1)))) ++
  [([51], ownerKey), ([1000000000, ownerKey, 5, 0], depositLeaf), ([51, depositLeaf, 0], depositSignature),
    ([depositLeaf, 0, depositSignature], depositNullifier), ([0, ownerKey, 6, 0], dummyLeaf),
    ([51, dummyLeaf, 0], dummySignature), ([dummyLeaf, 0, dummySignature], dummyNullifier),
    ([600000000, ownerKey, 7, 0], changeLeaf), ([0, ownerKey, 8, 0], emptyLeaf), ([depositLeaf, changeLeaf], firstPair),
    ([emptyLeaf, 0], secondPair), ([firstPair, secondPair], bothPairs)] ++
  spine depositLeaf 0 depositPath ++ spine dummyLeaf 0 dummyPath ++ spine firstPair 1 changePath ++
  spine bothPairs 2 emptyPath

abbrev hash : HashRel := .ofTable evaluations

def siblings : List.Vector Fr 32 := zeroSiblings.map fromLeBytesModOrder

def deposited : InputNote := ⟨1000000000, 51, 5, 0, siblings⟩

def dummy : InputNote := ⟨0, 51, 6, 0, siblings⟩

def change : OutputNote := ⟨600000000, ownerKey, 7⟩

def nothing : OutputNote := ⟨0, ownerKey, 8⟩

def spend : TransactArgs where
  nullifier0 := toBytesLe depositNullifier
  nullifier1 := toBytesLe dummyNullifier
  outCommitment0 := toBytesLe changeLeaf
  outCommitment1 := toBytesLe emptyLeaf
  root := toBytesLe (depositPath.getLastD 0)
  extAmount := -400000000
  proof := replicate 256 0

def hashCtx : Ctx := { ctx with
  solPoseidon := fun xs => (evaluations.lookup (xs.map fromLeBytesModOrder)).map toBytesLe
  sha256 := fun _ => word 0xcedb396453c6f88de1b146d50d60dcaad0f86b0154b24929129d39252a6bd685 }

def spendInputs : TransactCircuitV3.PublicInputs := spend.publicInputs hashCtx (.key depositor) nativeSolAsset

def idealCtx : Ctx := { hashCtx with groth16 := fun _ _ _ inputs => inputs = spendInputs.toList }

def depositAndSpend : List Action := [ .program ⟨10, 0⟩ (.initializeBridge operator 1 zero32),
  .program ⟨11, 0⟩ (.initializeMerkleTree operator),
  .program ⟨12, 0⟩ (.initializeValidatorRegistry operator mint),
  .program ⟨13, 0⟩ (.registerValidator operator operatorTokens 2000000000 1000000000000),
  .program ⟨14, 0⟩ (.registerValidator cosigner cosignerTokens 3000000000 2000000000000),
  .program ⟨15, 0⟩ (.setDepositCap operator 1000000000000),
  .program ⟨16, 0⟩ (.depositNote depositor 1000000000 (toBytesLe ownerKey) (word 5)),
  .program ⟨17, 0⟩ (.transact operator (.key depositor) [⟨.key cosigner, true⟩, ⟨.validator (.key cosigner), false⟩] spend)]

theorem deposited_hashes : deposited.Hashes hash 0 ownerKey depositLeaf depositSignature depositNullifier :=
  ⟨by decide +kernel, by decide +kernel, by decide +kernel, by decide +kernel⟩

theorem dummy_hashes : dummy.Hashes hash 0 ownerKey dummyLeaf dummySignature dummyNullifier :=
  ⟨by decide +kernel, by decide +kernel, by decide +kernel, by decide +kernel⟩

theorem folds (h : HashTree.foldEval (fun a b => evaluations.lookup [a, b]) c 0 siblings.val = some r) :
    HashTree.Fold hash.pair c 0 siblings.val r :=
  HashTree.Fold.of_foldEval h

/-- The withdrawal satisfies the circuit: the deposited note and a dummy pay for 0.4 SOL and a note of 0.6 SOL. -/
theorem spend_satisfiable : TransactCircuitV3.Satisfiable hash spendInputs := by
  have hdeposited : deposited.FoldsTo hash depositLeaf (depositPath.getLastD 0) := folds (by decide +kernel)
  have hdummy : dummy.FoldsTo hash dummyLeaf (dummyPath.getLastD 0) := folds (by decide +kernel)
  have hroot : spendInputs.root = depositPath.getLastD 0 := by decide +kernel
  have hbalanced : TransactCircuitV3.Balanced hash spendInputs spend.extAmount.toInt deposited dummy change nothing := by
    have hassetId : spendInputs.assetId = 0 := by decide +kernel
    have hnullifier0 : spendInputs.nullifier0 = depositNullifier := by decide +kernel
    have hnullifier1 : spendInputs.nullifier1 = dummyNullifier := by decide +kernel
    refine ⟨?_, ?_, ?_, ?_, by decide +kernel, by decide +kernel⟩
    · rw [hroot, hassetId, hnullifier0]
      exact ⟨_, _, _, deposited_hashes, fun _ => hdeposited⟩
    · rw [hassetId, hnullifier1]
      exact ⟨_, _, _, dummy_hashes, fun hne => absurd rfl hne⟩
    · rw [OutputNote.Opens]
      decide +kernel
    · rw [OutputNote.Opens]
      decide +kernel
  exact TransactCircuitV3.Satisfiable.complete (fromLeBytesModOrder_publicAmountBytes spend.extAmount) hbalanced
    (TransactCircuitV3.InputConstraints.complete deposited_hashes hdeposited (fun _ => by decide +kernel))
    (TransactCircuitV3.InputConstraints.complete dummy_hashes hdummy (fun hne => absurd rfl hne))

theorem idealCtx_ideal : Ideal idealCtx hash := by
  refine ⟨HashRel.ofTable_ideal (by decide +kernel) (by decide +kernel), fun h => ?_, by decide +kernel, fun h => ?_⟩
  · obtain ⟨y, hy, rfl⟩ := Option.map_eq_some_iff.mp h
    rwa [fromLeBytesModOrder_toBytesLe]
  · have hinputs : toList _ = spendInputs.toList := of_decide_eq_true h
    rw [toList_injective hinputs]
    exact spend_satisfiable

end Sample

/-- After the sample run the pool holds the 0.6 SOL that were not withdrawn. -/
theorem native_notes_backed_sample : ∃ s, Execution Sample.idealCtx Sample.genesis Sample.depositAndSpend s ∧
    s.totalDeposited = 1000000000 ∧ s.totalWithdrawn = 400000000 ∧
      s.pool.outstanding Sample.hash (fromLeBytesModOrder nativeSolAsset) = 600000000 := by
  have hsucceeds : succeedsWith Sample.idealCtx Sample.genesis Sample.depositAndSpend
      (fun s => s.totalDeposited = 1000000000 ∧ s.totalWithdrawn = 400000000) = true := by decide +kernel
  obtain ⟨s, hrun, hcheck⟩ := exists_execution hsucceeds
  obtain ⟨hdeposited, hwithdrawn⟩ := of_decide_eq_true hcheck
  have hbacked := (native_notes_backed Sample.idealCtx_ideal hrun).2
  exact ⟨s, hrun, hdeposited, hwithdrawn, by rw [hbacked, hdeposited, hwithdrawn]⟩

end Paraloom
