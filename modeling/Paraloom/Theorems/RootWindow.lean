import Paraloom.Lemmas.MerkleTree
import Paraloom.Lib.Ring

/-!
# The window of known roots

The ring of the tree account holds the last 64 roots, or all of them while there are fewer, and the search of `is_known_root`
goes through the whole ring once, from the newest root to the oldest slot. A slot that has not been used holds the empty word,
which is refused before the search.
-/

namespace Paraloom

open List Checked

namespace IncrementalMerkleTree

open Ring

variable {α : Type}

def appendAll (hash : α → α → Result α) (zeros : List.Vector α treeDepth) (t : IncrementalMerkleTree α) (leaves : List α) :
    Result (IncrementalMerkleTree α) :=
  leaves.foldlM (fun t leaf => return (← append hash zeros t leaf).1) t

/-- The loop of `is_known_root`, which counts no turns: `none` stands for a loop that has not ended after so many of them. -/
def knownRootLoop [DecidableEq α] (t : IncrementalMerkleTree α) (root : α) (start : Fin rootHistorySize) :
    (turns : Nat) → (i : Fin rootHistorySize) → Option Bool
  | 0, _ => none
  | turns + 1, i =>
    if t.rootHistory.get i = root then some true
    else if previousSlot i = start then some false
    else knownRootLoop t root start turns (previousSlot i)

/-- `is_known_root`, given so many turns of its loop. -/
def isKnownRootWithin [DecidableEq α] (empty : α) (t : IncrementalMerkleTree α) (turns : Nat) (root : α) : Option Bool :=
  if root = empty then some false else knownRootLoop t root t.rootIndex turns t.rootIndex

namespace RootWindowAux

/-! ## The search -/

theorem previousSlot_eq : previousSlot i = i - 1 := by
  unfold previousSlot
  split
  · rename_i h
    subst h
    rfl
  · rfl

theorem slot_succ_eq_start_iff (start : Fin rootHistorySize) (h : age < rootHistorySize) :
    slot start (age + 1) = start ↔ age + 1 = rootHistorySize := by
  constructor
  · intro heq
    by_contra hne
    have hlt : age + 1 < rootHistorySize := by omega
    have hzero := slot_injOn start hlt (Nat.pos_of_neZero _) (heq.trans (slot_zero start).symm)
    exact absurd hzero (Nat.succ_ne_zero age)
  · intro heq
    rw [heq, slot, Fin.ofNat_self, sub_zero]

section

variable [DecidableEq α] {root : α}

theorem knownRootLoop_spec (hage : age < rootHistorySize) (hturns : rootHistorySize ≤ age + turns) :
    ∃ known, knownRootLoop t root start turns (slot start age) = some known ∧
      (known = true ↔ ∃ age', age ≤ age' ∧ age' < rootHistorySize ∧ recent t.rootHistory start age' = root) := by
  induction turns generalizing age with
  | zero => omega
  | succ turns ih =>
    rw [knownRootLoop, previousSlot_eq, ← slot_succ]
    split
    · rename_i hfound
      exact ⟨true, rfl, iff_of_true rfl ⟨age, le_rfl, hage, hfound⟩⟩
    rename_i hother
    split
    · -- the loop is back where it started, so no older slot is left
      rename_i hback
      have hlast := (slot_succ_eq_start_iff start hage).mp hback
      refine ⟨false, rfl, iff_of_false Bool.false_ne_true ?_⟩
      rintro ⟨age', hle, hlt, hroot⟩
      obtain rfl : age' = age := by omega
      exact hother hroot
    · rename_i hback
      have hnext : age + 1 < rootHistorySize := by
        have hne := mt (slot_succ_eq_start_iff start hage).mpr hback
        omega
      obtain ⟨known, hloop, hknown⟩ := ih hnext (by omega)
      refine ⟨known, hloop, hknown.trans ⟨?_, ?_⟩⟩
      · rintro ⟨age', hle, hlt, hroot⟩
        exact ⟨age', by omega, hlt, hroot⟩
      · rintro ⟨age', hle, hlt, hroot⟩
        have hne : age' ≠ age := by
          rintro rfl
          exact hother hroot
        exact ⟨age', by omega, hlt, hroot⟩

theorem knownRootLoop_eq_searchRoot (h : knownRootLoop t root start turns i = some known) :
    searchRoot t root start turns i = known := by
  induction turns generalizing i with
  | zero => cases h
  | succ turns ih =>
    rw [knownRootLoop] at h
    rw [searchRoot]
    split at h
    · rename_i hfound
      rw [if_pos hfound]
      exact Option.some.inj h
    · rename_i hother
      rw [if_neg hother]
      split at h
      · rename_i hback
        rw [if_pos hback]
        exact Option.some.inj h
      · rename_i hback
        rw [if_neg hback]
        exact ih h

/-- The search terminates, and finds what is in the ring and not the empty word. -/
theorem isKnownRoot_spec :
    (∀ turns, rootHistorySize ≤ turns → isKnownRootWithin empty t turns root = some (isKnownRoot empty t root)) ∧
      (isKnownRoot empty t root = true ↔
        root ≠ empty ∧ ∃ age < rootHistorySize, recent t.rootHistory t.rootIndex age = root) := by
  by_cases hempty : root = empty
  · simp [isKnownRootWithin, isKnownRoot, hempty]
  have hloop : ∀ turns, rootHistorySize ≤ turns → ∃ known, knownRootLoop t root t.rootIndex turns t.rootIndex = some known ∧
      (known = true ↔ ∃ age < rootHistorySize, recent t.rootHistory t.rootIndex age = root) := by
    intro turns hturns
    obtain ⟨known, hround, hknown⟩ : ∃ known, knownRootLoop t root t.rootIndex turns (slot t.rootIndex 0) = some known ∧
        (known = true ↔ ∃ age, 0 ≤ age ∧ age < rootHistorySize ∧ recent t.rootHistory t.rootIndex age = root) :=
      knownRootLoop_spec (Nat.pos_of_neZero rootHistorySize) (Nat.le_trans hturns (Nat.le_add_left _ _))
    rw [slot_zero] at hround
    exact ⟨known, hround, by simpa using hknown⟩
  obtain ⟨known, hround, hknown⟩ := hloop rootHistorySize le_rfl
  have hsearch : isKnownRoot empty t root = known := by
    rw [isKnownRoot, if_neg hempty]
    exact knownRootLoop_eq_searchRoot hround
  rw [hsearch]
  refine ⟨?_, by rw [hknown]; exact (and_iff_right hempty).symm⟩
  intro turns hturns
  obtain ⟨known', hround', hknown'⟩ := hloop turns hturns
  rw [isKnownRootWithin, if_neg hempty, hround', Bool.eq_iff_iff.mpr (hknown'.trans hknown.symm)]

end

/-! ## The ring -/

/-- The ring after some appends: the roots `R 0` to `R n`, of which the newest have a slot each, and the empty word in the slots
that have not been used. -/
structure Window (empty : α) (R : Nat → α) (n : Nat) (t : IncrementalMerkleTree α) : Prop where
  nextIndex : t.nextIndex = n
  root : t.root = R n
  used : ∀ age ≤ n, age < rootHistorySize → recent t.rootHistory t.rootIndex age = R (n - age)
  unused : ∀ age, n < age → age < rootHistorySize → recent t.rootHistory t.rootIndex age = empty

variable {empty emptyRoot : α}

theorem window_init (hR : R 0 = emptyRoot) : Window empty R 0 (init empty zeros emptyRoot) := by
  refine ⟨rfl, hR.symm, ?_, ?_⟩
  · intro age hage _
    obtain rfl := Nat.le_zero.mp hage
    rw [recent, slot_zero, init, List.Vector.get_set_same, hR]
  · intro age hage hlt
    have hne : slot (0 : Fin rootHistorySize) age ≠ 0 := by
      intro heq
      have hzero := slot_injOn 0 hlt (Nat.pos_of_neZero _) (heq.trans (slot_zero 0).symm)
      omega
    rw [recent, init, List.Vector.get_set_of_ne hne.symm, List.Vector.get_replicate]

theorem Window.append {hash : α → α → Result α} (h : Window empty R n t)
    (happend : IncrementalMerkleTree.append hash zeros t leaf = .ok (t', r)) (hR : R (n + 1) = r) :
    Window empty R (n + 1) t' := by
  obtain ⟨-, -, filled, -, rfl⟩ := append_ok_iff.mp happend
  refine ⟨by rw [h.nextIndex], hR.symm, ?_, ?_⟩
  · intro age hage hlt
    cases age with
    | zero => rw [recent_push_zero, Nat.sub_zero, hR]
    | succ age =>
      rw [recent_push_succ _ _ _ hlt, h.used age (by omega) (by omega), Nat.add_sub_add_right]
  · intro age hage hlt
    cases age with
    | zero => omega
    | succ age => rw [recent_push_succ _ _ _ hlt, h.unused age (by omega) (by omega)]

/-- What the ring knows: the newest roots, as many as it has slots. -/
theorem Window.isKnownRoot_iff [DecidableEq α] (h : Window empty R n t) (hR : ∀ k ≤ n, R k ≠ empty) (root : α) :
    isKnownRoot empty t root = true ↔
      ∃ k, n + 1 - min rootHistorySize (n + 1) ≤ k ∧ k ≤ n ∧ root = R k := by
  rw [(isKnownRoot_spec).2]
  constructor
  · rintro ⟨hne, age, hlt, rfl⟩
    have hage : age ≤ n := by
      by_contra hage
      exact hne (h.unused age (by omega) hlt)
    exact ⟨n - age, by omega, by omega, h.used age hage hlt⟩
  · rintro ⟨k, hrecent, hk, rfl⟩
    have hage := h.used (n - k) (by omega) (by omega)
    rw [Nat.sub_sub_self hk] at hage
    exact ⟨hR k hk, n - k, by omega, hage⟩

/-! ## Whole runs of appends -/

theorem appendAll_concat {hash : α → α → Result α} (h : appendAll hash zeros s leaves = .ok t)
    (happend : IncrementalMerkleTree.append hash zeros t leaf = .ok (t', r)) :
    appendAll hash zeros s (leaves ++ [leaf]) = .ok t' := by
  rw [appendAll] at h
  rw [appendAll, foldlM_append, h, seq_ok_iff]
  exact ⟨t, rfl, by rw [foldlM_cons, happend]; rfl⟩

/-- The loop over the heights ends in a hash. -/
theorem climb_root {zeros filled filled' : List.Vector α (n + 1)} {current root : α}
    (h : climb (total H) zeros filled m current = .ok (root, filled')) : ∃ a b, root = H a b := by
  induction n generalizing m current root with
  | zero =>
    rw [climb] at h
    split at h <;>
      · obtain ⟨next, hnext, h⟩ := seq_ok_iff.mp h
        obtain ⟨r, hr, h⟩ := seq_ok_iff.mp h
        obtain rfl := Except.ok.inj hnext
        obtain rfl := Except.ok.inj hr
        exact ⟨_, _, (congrArg Prod.fst (Except.ok.inj h)).symm⟩
  | succ n ih =>
    rw [climb] at h
    split at h <;>
      · obtain ⟨next, -, h⟩ := seq_ok_iff.mp h
        obtain ⟨r, hr, h⟩ := seq_ok_iff.mp h
        obtain ⟨rfl, -⟩ := Prod.mk.inj (Except.ok.inj h)
        exact ih hr

theorem Window.congr (h : Window empty R n t) (hR : ∀ k ≤ n, R' k = R k) : Window empty R' n t := by
  refine ⟨h.nextIndex, h.root.trans (hR n le_rfl).symm, ?_, h.unused⟩
  intro age hage hlt
  rw [h.used age hage hlt, hR (n - age) (Nat.sub_le n age)]

theorem append_hash (hroom : t.nextIndex < 2 ^ treeDepth) :
    ∃ t' a b, IncrementalMerkleTree.append (total H) zeros t leaf = .ok (t', H a b) := by
  obtain ⟨root, filled, hclimb⟩ := climb_total H zeros t.filledSubtrees t.nextIndex leaf
  obtain ⟨a, b, rfl⟩ := climb_root hclimb
  have hfits : t.nextIndex + 1 ≤ u64Max := by
    have hmax : 2 ^ treeDepth ≤ u64Max := by decide
    omega
  exact ⟨_, a, b, append_ok_iff.mpr ⟨hroom, hfits, filled, hclimb, rfl⟩⟩

theorem exists_window {H : α → α → α} (hH : ∀ a b, H a b ≠ empty) (hempty : emptyRoot ≠ empty)
    (hlen : leaves.length ≤ 2 ^ treeDepth) :
    ∃ R t, appendAll (total H) zeros (init empty zeros emptyRoot) leaves = .ok t ∧ Window empty R leaves.length t ∧
      R 0 = emptyRoot ∧ (∀ k ≤ leaves.length, R k ≠ empty) ∧
      ∀ k ≤ leaves.length, ∃ s, appendAll (total H) zeros (init empty zeros emptyRoot) (leaves.take k) = .ok s ∧ s.root = R k := by
  induction leaves using reverseRecOn with
  | nil =>
    refine ⟨fun _ => emptyRoot, _, rfl, window_init rfl, rfl, fun _ _ => hempty, ?_⟩
    intro k _
    exact ⟨_, by rw [take_nil]; rfl, rfl⟩
  | append_singleton leaves leaf ih =>
    rw [length_append, length_singleton] at hlen
    obtain ⟨R, t, ht, hwindow, hzero, hne, hroots⟩ := ih (by omega)
    obtain ⟨t', a, b, happend⟩ := append_hash (by rw [hwindow.nextIndex]; omega)
    have hlast := appendAll_concat ht happend
    have hold : ∀ k ≤ leaves.length, (Function.update R (leaves.length + 1) (H a b)) k = R k := by
      intro k hk
      exact Function.update_of_ne (by omega) _ _
    have hnew : (Function.update R (leaves.length + 1) (H a b)) (leaves.length + 1) = H a b := Function.update_self ..
    have hwindow' := (hwindow.congr hold).append happend hnew
    rw [length_append, length_singleton]
    refine ⟨_, t', hlast, hwindow', (hold 0 (Nat.zero_le _)).trans hzero, ?_, ?_⟩
    · intro k hk
      rcases Nat.le_succ_iff.mp hk with hk | rfl
      · rw [hold k hk]
        exact hne k hk
      · rw [hnew]
        exact hH a b
    · intro k hk
      rcases Nat.le_succ_iff.mp hk with hk | rfl
      · obtain ⟨s, hs, hroot⟩ := hroots k hk
        exact ⟨s, by rw [take_append_of_le_length hk, hs], hroot.trans (hold k hk).symm⟩
      · exact ⟨t', by rw [take_of_length_le (by simp), hlast], hwindow'.root⟩

end RootWindowAux

end IncrementalMerkleTree

open IncrementalMerkleTree in
/-- After some appends to the empty tree of the program, with any pair hash that never is the empty word, a word is a known root
exactly if it is one of the last 64 roots, or of all of them while there are fewer, and the search for it ends. -/
theorem known_root_iff_recent (H : Bytes32 → Bytes32 → Bytes32) (hH : ∀ a b, H a b ≠ zero32) (leaves : List Bytes32)
    (hlen : leaves.length ≤ 2 ^ treeDepth) :
    ∃ (R : Nat → Bytes32) (t : MerkleTree), R 0 = zeroHash treeDepth ∧
      (∀ k ≤ leaves.length, ∃ s, appendAll (total H) zeroSiblings MerkleTree.empty (leaves.take k) = .ok s ∧ s.root = R k) ∧
      appendAll (total H) zeroSiblings MerkleTree.empty leaves = .ok t ∧
      ∀ root, (∀ turns, rootHistorySize ≤ turns → isKnownRootWithin zero32 t turns root = some (t.isKnownRoot root)) ∧
        (t.isKnownRoot root = true ↔
          ∃ k, leaves.length + 1 - min rootHistorySize (leaves.length + 1) ≤ k ∧ k ≤ leaves.length ∧ root = R k) := by
  have hempty : zeroHash treeDepth ≠ zero32 := by decide +kernel
  obtain ⟨R, t, ht, hwindow, hzero, hne, hroots⟩ := RootWindowAux.exists_window hH hempty hlen
  refine ⟨R, t, hzero, hroots, ht, ?_⟩
  intro root
  exact ⟨(RootWindowAux.isKnownRoot_spec).1, hwindow.isKnownRoot_iff hne root⟩

/-- A pair hash that is constant, and as many appends as push the empty root out of the window. -/
theorem known_root_iff_recent_wrapped :
    ∃ (R : Nat → Bytes32) (t : MerkleTree), R 0 = zeroHash treeDepth ∧ ∀ root, t.isKnownRoot root = true ↔
      ∃ k, 64 + 1 - min rootHistorySize (64 + 1) ≤ k ∧ k ≤ 64 ∧ root = R k := by
  obtain ⟨R, t, hzero, -, -, hknown⟩ := known_root_iff_recent (fun _ _ => zeroHash 1) (fun _ _ => by decide +kernel)
    (replicate 64 (zeroHash 2)) (by rw [length_replicate]; decide)
  rw [length_replicate] at hknown
  exact ⟨R, t, hzero, fun root => (hknown root).2⟩

end Paraloom
