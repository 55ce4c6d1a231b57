import Mathlib.Data.List.Basic
import Mathlib.Tactic.Ring

/-!
# Binary hash trees over a pair relation

The hash of a pair is a relation `R a b r`, so that a partial hash function, a total one and an idealised one are all
instances. `Node R f i j r` says that `r` is the node at height `i` and position `j` of the tree whose leaf `k` is `f k`. Over
an injective relation a path that folds to a node starts from the leaf at its position.
-/

namespace HashTree

variable {α β : Type} {R : α → α → α → Prop}

/-- `r` is the node at height `i` and position `j` of the tree over the leaves `f`. -/
def Node (R : α → α → α → Prop) (f : Nat → α) : (i j : Nat) → α → Prop
  | 0, j, r => r = f j
  | i + 1, j, r => ∃ a b, Node R f i (2 * j) a ∧ Node R f i (2 * j + 1) b ∧ R a b r

/-- A node depends only on the leaves below it. -/
theorem Node.congr (h : ∀ k, j * 2 ^ i ≤ k → k < (j + 1) * 2 ^ i → f k = g k) (hn : Node R f i j r) : Node R g i j r := by
  induction i generalizing j r with
  | zero =>
    rw [Node] at hn ⊢
    rw [hn]
    exact h j (by simp) (by simp)
  | succ i ih =>
    obtain ⟨a, b, ha, hb, hr⟩ := hn
    have hleft : 2 * j * 2 ^ i = j * 2 ^ (i + 1) := by ring
    have hmid : (2 * j + 1) * 2 ^ i = j * 2 ^ (i + 1) + 2 ^ i := by ring
    have hright : (2 * j + 1 + 1) * 2 ^ i = (j + 1) * 2 ^ (i + 1) := by ring
    have hend : (j + 1) * 2 ^ (i + 1) = j * 2 ^ (i + 1) + 2 ^ i + 2 ^ i := by ring
    exact ⟨a, b, ih (fun k hk hk' => h k (by omega) (by omega)) ha, ih (fun k hk hk' => h k (by omega) (by omega)) hb, hr⟩

/-- A relation preserved by a map carries a tree to the tree over the mapped leaves. -/
theorem Node.map {S : β → β → β → Prop} {g : α → β} (hg : ∀ a b r, R a b r → S (g a) (g b) (g r)) {f : Nat → α}
    {i j : Nat} {r : α} (hn : Node R f i j r) : Node S (fun k => g (f k)) i j (g r) := by
  induction i generalizing j r with
  | zero =>
    rw [Node] at hn ⊢
    rw [hn]
  | succ i ih =>
    obtain ⟨a, b, ha, hb, hr⟩ := hn
    exact ⟨g a, g b, ih ha, ih hb, hg a b r hr⟩

/-! ## Empty subtrees -/

/-- `r` is the root of an empty subtree of height `i`: all its leaves are `z`. -/
def EmptyNode (R : α → α → α → Prop) (z : α) (i : Nat) (r : α) : Prop := Node R (fun _ => z) i 0 r

/-- A table of empty-subtree roots for the heights from `i` on. -/
def EmptyTable (R : α → α → α → Prop) (z : α) : (i : Nat) → List α → Prop
  | _, [] => True
  | i, r :: rs => EmptyNode R z i r ∧ EmptyTable R z (i + 1) rs

/-- A subtree whose leaves are all empty has the empty root of its height. -/
theorem EmptyNode.node (he : EmptyNode R z i r) (h : ∀ k, j * 2 ^ i ≤ k → f k = z) : Node R f i j r := by
  have hshift : ∀ {i j j' : Nat} {r : α}, Node R (fun _ => z) i j r → Node R (fun _ => z) i j' r := by
    intro i
    induction i with
    | zero => exact fun hn => hn
    | succ i ih =>
      rintro j j' r ⟨a, b, ha, hb, hr⟩
      exact ⟨a, b, ih ha, ih hb, hr⟩
  exact (hshift he).congr (fun k hk _ => (h k hk).symm)

theorem EmptyNode.succ (ha : EmptyNode R z i a) (hr : R a a r) : EmptyNode R z (i + 1) r :=
  ⟨a, a, ha, ha.node (fun _ _ => rfl), hr⟩

/-- A table is right when each of its entries is. -/
theorem EmptyTable.of_forall (h : ∀ k (hk : k < rs.length), EmptyNode R z (i + k) rs[k]) : EmptyTable R z i rs := by
  induction rs generalizing i with
  | nil => trivial
  | cons r rs ih =>
    refine ⟨h 0 (by simp), ih fun k hk => ?_⟩
    have hnext := h (k + 1) (by simpa using hk)
    rwa [List.getElem_cons_succ, ← Nat.add_assoc, Nat.add_right_comm] at hnext

/-! ## Paths -/

/-- Folding `c` along the siblings `ss`, in the order the bits of the position `j` give, ends in `r`. -/
def Fold (R : α → α → α → Prop) : (c : α) → (j : Nat) → (ss : List α) → (r : α) → Prop
  | c, _, [], r => r = c
  | c, j, s :: ss, r => ∃ next, (if j % 2 = 1 then R s c next else R c s next) ∧ Fold R next (j / 2) ss r

/-- Over an injective relation, a fold that ends in a node of the tree started from the node at its position. -/
theorem Fold.node (hR : ∀ a b a' b' r, R a b r → R a' b' r → a = a' ∧ b = b') (hf : Fold R c j ss r)
    (hn : Node R f (i + ss.length) (j / 2 ^ ss.length) r) : Node R f i j c := by
  induction ss generalizing c i j with
  | nil =>
    rw [Fold] at hf
    simpa [hf] using hn
  | cons s ss ih =>
    obtain ⟨next, hnext, hrest⟩ := hf
    have hup : Node R f (i + 1) (j / 2) next := by
      apply ih hrest
      rw [List.length_cons] at hn
      have hpos : j / 2 / 2 ^ ss.length = j / 2 ^ (ss.length + 1) := by
        rw [Nat.div_div_eq_div_mul, Nat.pow_succ']
      rw [hpos, Nat.add_assoc, Nat.add_comm 1]
      exact hn
    obtain ⟨a, b, ha, hb, hr⟩ := hup
    split at hnext
    · rename_i hodd
      have hb' : b = c := (hR _ _ _ _ _ hr hnext).2
      have hpos : 2 * (j / 2) + 1 = j := by omega
      rwa [hpos, hb'] at hb
    · rename_i heven
      have ha' : a = c := (hR _ _ _ _ _ hr hnext).1
      have hpos : 2 * (j / 2) = j := by omega
      rwa [hpos, ha'] at ha

def foldEval (hash : α → α → Option α) : (c : α) → (j : Nat) → (ss : List α) → Option α
  | c, _, [] => some c
  | c, j, s :: ss => (if j % 2 = 1 then hash s c else hash c s).bind fun next => foldEval hash next (j / 2) ss

/-- What the evaluation returns is where the fold ends. -/
theorem Fold.of_foldEval {hash : α → α → Option α} (h : foldEval hash c j ss = some r) :
    Fold (fun a b r => hash a b = some r) c j ss r := by
  induction ss generalizing c j with
  | nil =>
    rw [foldEval, Option.some.injEq] at h
    exact h.symm
  | cons s ss ih =>
    rw [foldEval, Option.bind_eq_some_iff] at h
    obtain ⟨next, hnext, hrest⟩ := h
    refine ⟨next, ?_, ih hrest⟩
    by_cases hj : j % 2 = 1
    · rwa [if_pos hj] at hnext ⊢
    · rwa [if_neg hj] at hnext ⊢

/-! ## Frontiers -/

/-- The working set of an append-only tree with `n` complete nodes at height `i`: where `n` is odd, the entry of that height
is the last complete node, which still waits for its right sibling. -/
def Frontier (R : α → α → α → Prop) (f : Nat → α) : (i n : Nat) → List α → Prop
  | _, _, [] => True
  | i, n, x :: xs => (n % 2 = 1 → Node R f i (n - 1) x) ∧ Frontier R f (i + 1) (n / 2) xs

theorem Frontier.empty (f : Nat → α) (i : Nat) (xs : List α) : Frontier R f i 0 xs := by
  induction xs generalizing i with
  | nil => trivial
  | cons x xs ih => exact ⟨by simp, ih (i + 1)⟩

/-- A working set entry by entry: the entry of a height matters only where the number of complete nodes there is odd. -/
theorem frontier_iff : Frontier R f i n xs ↔
      ∀ k (hk : k < xs.length), n / 2 ^ k % 2 = 1 → Node R f (i + k) (n / 2 ^ k - 1) xs[k] := by
  induction xs generalizing i n with
  | nil => simp [Frontier]
  | cons x xs ih =>
    rw [Frontier, ih]
    have hdiv : ∀ k, n / 2 / 2 ^ k = n / 2 ^ (k + 1) := fun k => by rw [Nat.div_div_eq_div_mul, Nat.pow_succ']
    constructor
    · rintro ⟨hx, hxs⟩ k hk hodd
      cases k with
      | zero => simpa using hx (by simpa using hodd)
      | succ k =>
        have hnode := hxs k (by simpa using hk) (by rwa [hdiv])
        rwa [hdiv, Nat.add_assoc, Nat.add_comm 1] at hnode
    · intro h
      refine ⟨fun hodd => by simpa using h 0 (Nat.succ_pos _) (by simpa using hodd), fun k hk hodd => ?_⟩
      rw [hdiv] at hodd ⊢
      have hnode := h (k + 1) (by simpa using hk) hodd
      rwa [Nat.add_assoc, Nat.add_comm 1]

/-- The left nodes that an append-only tree has begun last, where the last node of height `i` is at position `m`: at every height
the entry is the last node on the left. -/
def LastLeft (R : α → α → α → Prop) (f : Nat → α) : (i m : Nat) → List α → Prop
  | _, _, [] => True
  | i, m, x :: xs => Node R f i (2 * (m / 2)) x ∧ LastLeft R f (i + 1) (m / 2) xs

theorem LastLeft.entry (h : LastLeft R f i m xs) (k : Nat) (hk : k < xs.length) :
    Node R f (i + k) (2 * (m / 2 ^ k / 2)) xs[k] := by
  induction xs generalizing i m k with
  | nil => cases hk
  | cons x xs ih =>
    cases k with
    | zero => simpa using h.1
    | succ k =>
      have hdiv : m / 2 / 2 ^ k = m / 2 ^ (k + 1) := by rw [Nat.div_div_eq_div_mul, Nat.pow_succ']
      have hentry := ih h.2 k (Nat.lt_of_succ_lt_succ hk)
      rwa [hdiv, Nat.add_assoc, Nat.add_comm 1] at hentry

/-! ## Leaf lists -/

def padded (z : α) (leaves : List α) (k : Nat) : α := leaves.getD k z

theorem padded_append_left (h : k < leaves.length) : padded z (leaves ++ more) k = padded z leaves k := by
  simp [padded, List.getElem?_append_left h]

theorem padded_append_length (z x : α) (leaves : List α) : padded z (leaves ++ [x]) leaves.length = x := by
  simp [padded]

theorem padded_of_length_le (h : leaves.length ≤ k) : padded z leaves k = z := by
  simp [padded, List.getElem?_eq_none h]

theorem padded_map (g : α → β) (z : α) (leaves : List α) (k : Nat) : padded (g z) (leaves.map g) k = g (padded z leaves k) := by
  simp [padded, List.getD_eq_getElem?_getD, Option.getD_map]

/-! ## Total hashes -/

/-- The node at height `i` and position `j` under a pair hash that always returns. -/
def node (H : α → α → α) (f : Nat → α) : (i j : Nat) → α
  | 0, j => f j
  | i + 1, j => H (node H f i (2 * j)) (node H f i (2 * j + 1))

def completeRoot (H : α → α → α) (z : α) (depth : Nat) (leaves : List α) : α := node H (padded z leaves) depth 0

variable {H : α → α → α}

/-- The one node there can be under a relation that the hash decides. -/
theorem node_iff (hR : ∀ a b r, R a b r ↔ H a b = r) : Node R f i j r ↔ node H f i j = r := by
  induction i generalizing j r with
  | zero => exact eq_comm
  | succ i ih =>
    rw [Node, node]
    constructor
    · rintro ⟨a, b, ha, hb, hr⟩
      rw [ih.mp ha, ih.mp hb]
      exact (hR a b r).mp hr
    · intro hr
      exact ⟨_, _, ih.mpr rfl, ih.mpr rfl, (hR _ _ _).mpr hr⟩

/-- Folding with a pair hash that always returns, in the order the bits of the position give. -/
def fold (H : α → α → α) : (c : α) → (j : Nat) → (ss : List α) → α
  | c, _, [] => c
  | c, j, s :: ss => fold H (if j % 2 = 1 then H s c else H c s) (j / 2) ss

def sibling (j : Nat) : Nat := if j % 2 = 1 then j - 1 else j + 1

theorem node_parent :
    (if j % 2 = 1 then H (node H f i (sibling j)) (node H f i j) else H (node H f i j) (node H f i (sibling j))) =
      node H f (i + 1) (j / 2) := by
  rw [node, sibling]
  split
  · rename_i hodd
    have hleft : 2 * (j / 2) = j - 1 := by omega
    have hright : 2 * (j / 2) + 1 = j := by omega
    rw [hright, hleft]
  · rename_i heven
    have hleft : 2 * (j / 2) = j := by omega
    rw [hleft]

theorem fold_node {f : Nat → α} {i j : Nat} {ss : List α}
    (h : ∀ k (hk : k < ss.length), ss[k] = node H f (i + k) (sibling (j / 2 ^ k))) :
    fold H (node H f i j) j ss = node H f (i + ss.length) (j / 2 ^ ss.length) := by
  induction ss generalizing i j with
  | nil => simp [fold]
  | cons s ss ih =>
    have hs : s = node H f i (sibling j) := by simpa using h 0 (Nat.succ_pos _)
    have hdiv : ∀ k, j / 2 / 2 ^ k = j / 2 ^ (k + 1) := fun k => by rw [Nat.div_div_eq_div_mul, Nat.pow_succ']
    rw [fold, hs, node_parent, ih, hdiv, List.length_cons, Nat.add_assoc, Nat.add_comm 1]
    intro k hk
    have hk' := h (k + 1) (by simpa using hk)
    rwa [List.getElem_cons_succ, ← Nat.add_assoc, Nat.add_right_comm, ← hdiv] at hk'

theorem Fold.of_fold (hR : ∀ a b, R a b (H a b)) (c : α) (j : Nat) (ss : List α) : Fold R c j ss (fold H c j ss) := by
  induction ss generalizing c j with
  | nil => rfl
  | cons s ss ih =>
    refine ⟨_, ?_, ih _ (j / 2)⟩
    split
    · exact hR s c
    · exact hR c s

theorem fold_map (hg : ∀ a b, g (H a b) = P (g a) (g b)) (c : α) (j : Nat) (ss : List α) :
    g (fold H c j ss) = fold P (g c) j (ss.map g) := by
  induction ss generalizing c j with
  | nil => rfl
  | cons s ss ih =>
    rw [fold, ih, List.map_cons, fold]
    split
    · rw [hg]
    · rw [hg]

end HashTree
