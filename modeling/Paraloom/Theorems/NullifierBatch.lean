import Paraloom.Lemmas.Storage

/-!
# Batches of nullifiers

A batch leaves the memory and the disk as the single inserts do. It counts a new nullifier as often as it occurs.
-/

namespace Paraloom.OffChain

open List

namespace NullifierSet

/-- The single inserts one after the other, each acknowledged: how many return true, and the set afterwards. -/
def insertEach : List Bytes32 → NullifierSet → Nat × NullifierSet
  | [], s => (0, s)
  | n :: ns, s =>
    let rest := insertEach ns (s.insert true n).2
    ((if (s.insert true n).1 = .ok true then 1 else 0) + rest.1, rest.2)

/-- The memory and the disk hold the same set. -/
def Mirrored (s : NullifierSet) : Prop := ∀ n, n ∈ s.nullifiers ↔ (s.storage.nullifierSet.get n.toList).isSome

end NullifierSet

open NullifierSet

namespace NullifierAux

variable {s : NullifierSet}

/-- The disk after more nullifiers were marked. -/
def mark (store : PrivacyStorage) (ns : List Bytes32) : PrivacyStorage :=
  { store with nullifierSet := store.nullifierSet.putAll (ns.map fun n => (n.toList, [])) }

theorem mark_cons : mark store (n :: ns) = mark (mark store [n]) ns := rfl

theorem get_mark (store : PrivacyStorage) (ns : List Bytes32) (k : Bytes) :
    (mark store ns).nullifierSet.get k = if k ∈ ns.map List.Vector.toList then some [] else store.nullifierSet.get k := by
  induction ns generalizing store with
  | nil => rfl
  | cons n ns ih =>
    have hone : (mark store [n]).nullifierSet.get k = if k = n.toList then some [] else store.nullifierSet.get k := by
      simp [mark, Column.putAll, Column.get_put]
    rw [mark_cons, ih, hone]
    by_cases hn : k = n.toList <;> by_cases hns : k ∈ ns.map List.Vector.toList <;> simp [hn, hns]

/-- A nullifier may be marked again, and the order does not matter. -/
theorem mark_congr (h : ∀ n, n ∈ ns ↔ n ∈ ns') : mark store ns = mark store ns' := by
  have hcolumn : (mark store ns).nullifierSet = (mark store ns').nullifierSet := by
    refine Column.ext_get fun k => ?_
    simp only [get_mark, mem_map, h]
  exact congrArg (fun column => { store with nullifierSet := column }) hcolumn

theorem insert_new (h : n ∉ s.nullifiers) : s.insert true n = (.ok true, ⟨insert n s.nullifiers, mark s.storage [n]⟩) := by
  rw [NullifierSet.insert, if_neg h]
  rfl

/-- What the single inserts come to. -/
theorem insertEach_eq (ns : List Bytes32) (s : NullifierSet) :
    (insertEach ns s).1 + s.nullifiers.card = (s.nullifiers ∪ ns.toFinset).card ∧
      (insertEach ns s).2 = ⟨s.nullifiers ∪ ns.toFinset, mark s.storage (ns.filter (· ∉ s.nullifiers))⟩ := by
  induction ns generalizing s with
  | nil => simp [insertEach, mark, Column.putAll]
  | cons n ns ih =>
    rw [insertEach, toFinset_cons, Finset.union_insert, ← Finset.insert_union]
    by_cases hold : n ∈ s.nullifiers
    · have hsame : s.insert true n = (.ok false, s) := if_pos hold
      rw [hsame, Finset.insert_eq_of_mem hold, filter_cons_of_neg (by simpa using hold)]
      simpa using ih s
    · obtain ⟨hcount, hset⟩ := ih ⟨insert n s.nullifiers, mark s.storage [n]⟩
      rw [insert_new hold, hset, ← mark_cons]
      refine ⟨?_, congrArg _ (mark_congr fun n' => ?_)⟩
      · dsimp only at hcount
        rw [Finset.card_insert_of_notMem hold] at hcount
        simp only [if_true]
        omega
      · by_cases hn : n' = n <;> simp [hn, hold]

/-- What a batch comes to. -/
theorem insertBatch_cases (s : NullifierSet) (acknowledged : Bool) (ns : List Bytes32) :
    s.insertBatch acknowledged ns = (.error .write, s) ∨
      s.insertBatch acknowledged ns = (.ok (ns.filter (· ∉ s.nullifiers)).length, (insertEach ns s).2) := by
  have hfold : ∀ (new : List Bytes32) (set : Finset Bytes32),
      new.foldl (fun set n => insert n set) set = set ∪ new.toFinset := by
    intro new
    induction new with
    | nil => simp
    | cons n new ih => simp [ih, Finset.insert_union, Finset.union_insert]
  have hunion : s.nullifiers ∪ (ns.filter (· ∉ s.nullifiers)).toFinset = s.nullifiers ∪ ns.toFinset := by
    ext n
    by_cases hn : n ∈ s.nullifiers <;> simp [hn]
  rw [(insertEach_eq ns s).2, ← hunion]
  unfold insertBatch
  dsimp only
  split
  · rename_i hempty
    right
    rw [isEmpty_iff.mp hempty]
    simp [mark, Column.putAll]
  · cases acknowledged with
    | false => exact .inl rfl
    | true => exact .inr (by rw [← hfold]; rfl)

/-! ## Runs -/

/-- The disk can be read back, and the memory holds what it reads. -/
structure Backed (s : NullifierSet) : Prop where
  keys : ∀ k, (s.storage.nullifierSet.get k).isSome → k.length = 32
  mirrored : s.Mirrored

theorem backed_mark (h : Backed s) : Backed ⟨insert n s.nullifiers, mark s.storage [n]⟩ := by
  refine ⟨fun k hk => ?_, fun n' => ?_⟩
  · rw [get_mark] at hk
    split at hk
    · rename_i hmem
      rw [mem_singleton.mp hmem]
      exact n.toList_length
    · exact h.keys k hk
  · rw [get_mark, Finset.mem_insert, h.mirrored n']
    by_cases hn : n' = n <;> simp [hn, List.Vector.toList_injective.eq_iff]

theorem backed_insert (h : Backed s) : Backed (s.insert acknowledged n).2 := by
  by_cases hold : n ∈ s.nullifiers
  · rwa [NullifierSet.insert, if_pos hold]
  · cases acknowledged with
    | false => rwa [NullifierSet.insert, if_neg hold]
    | true =>
      rw [insert_new hold]
      exact backed_mark h

theorem backed_insertEach (h : Backed s) : Backed (insertEach ns s).2 := by
  induction ns generalizing s with
  | nil => exact h
  | cons n ns ih => exact ih (backed_insert h)

/-- The disk is read back as the set of its keys, or one of them is not a word. -/
theorem getAllNullifiers_cases (store : PrivacyStorage) :
    (∃ l, store.getAllNullifiers = .ok l ∧ (∀ e ∈ store.nullifierSet.entries, e.1.length = 32) ∧
        ∀ n, n ∈ l ↔ n.toList ∈ store.nullifierSet.entries.map Prod.fst) ∨
      (∃ e, store.getAllNullifiers = .error e) ∧ ¬ ∀ e ∈ store.nullifierSet.entries, e.1.length = 32 := by
  unfold PrivacyStorage.getAllNullifiers
  generalize store.nullifierSet.entries = es
  induction es with
  | nil => exact .inl ⟨[], rfl, nofun, by simp⟩
  | cons e es ih =>
    rw [mapM_cons, forall_mem_cons]
    by_cases he : e.1.length = 32
    · rw [dif_pos he]
      rcases ih with ⟨l, hl, hkeys, hmem⟩ | ⟨⟨err, herr⟩, hnot⟩
      · refine .inl ⟨word e.1 he :: l, by rw [hl]; rfl, ⟨he, hkeys⟩, fun n => ?_⟩
        rw [mem_cons, map_cons, mem_cons, hmem, eq_word_iff, eq_comm]
      · exact .inr ⟨⟨err, by rw [herr]; rfl⟩, fun h => hnot h.2⟩
    · exact .inr ⟨⟨_, by rw [dif_neg he]; rfl⟩, fun h => he h.1⟩

theorem withStorage_ok_iff {store : PrivacyStorage} : withStorage store = .ok s ↔ s.storage = store ∧ Backed s := by
  have hkey : ∀ k, k ∈ store.nullifierSet.entries.map Prod.fst ↔ (store.nullifierSet.get k).isSome := by
    simp [← Column.mem_entries_iff, Option.isSome_iff_exists]
  have hwords : (∀ e ∈ store.nullifierSet.entries, e.1.length = 32) ↔
      ∀ k, (store.nullifierSet.get k).isSome → k.length = 32 := by
    simp [← hkey]
  obtain ⟨set, store'⟩ := s
  rcases getAllNullifiers_cases store with ⟨l, hl, hkeys, hmem⟩ | ⟨⟨err, herr⟩, hnot⟩
  · have hopen : withStorage store = .ok ⟨l.toFinset, store⟩ := by
      rw [withStorage, hl]
      rfl
    rw [hopen, Except.ok.injEq, NullifierSet.mk.injEq]
    constructor
    · rintro ⟨rfl, rfl⟩
      exact ⟨rfl, hwords.mp hkeys, fun n => by rw [mem_toFinset, hmem, hkey]⟩
    · rintro ⟨rfl, -, hset⟩
      refine ⟨Finset.ext fun n => ?_, rfl⟩
      rw [mem_toFinset, hmem, hkey, hset n]
  · rw [withStorage, herr]
    refine iff_of_false nofun ?_
    rintro ⟨rfl, hbacked⟩
    exact hnot (hwords.mpr hbacked.keys)

theorem backed_exec (h : Backed s) (call : NullifierCall) : ∃ s', s.exec call = .ok s' ∧ Backed s' := by
  cases call with
  | insert acknowledged n => exact ⟨_, rfl, backed_insert h⟩
  | insertBatch acknowledged ns =>
    refine ⟨_, rfl, ?_⟩
    rcases insertBatch_cases s acknowledged ns with hfailed | hdone
    · rwa [hfailed]
    · rw [hdone]
      exact backed_insertEach h
  | restart => exact ⟨s, withStorage_ok_iff.mpr ⟨rfl, h⟩, h⟩

theorem backed_run (h : Backed s) (calls : List NullifierCall) : ∃ s', calls.foldlM exec s = .ok s' ∧ Backed s' := by
  induction calls generalizing s with
  | nil => exact ⟨s, rfl, h⟩
  | cons call calls ih =>
    obtain ⟨s₁, hexec, h₁⟩ := backed_exec h call
    obtain ⟨s', hrun, h'⟩ := ih h₁
    exact ⟨s', by rw [foldlM_cons, hexec]; exact hrun, h'⟩

end NullifierAux

open NullifierAux in
/-- A batch fails and changes nothing, or it ends in the memory and on the disk as the single inserts do, of which as many
return true as the set grows by. The count of the batch is that number exactly if no new nullifier occurs twice in the batch.
After every sequence of inserts, batches and restarts the memory and the disk hold the same set. -/
theorem nullifier_batch_refines_iff (s : NullifierSet) (acknowledged : Bool) (ns : List Bytes32) :
    (s.insertBatch acknowledged ns = (.error .write, s) ∨ ∃ count,
      s.insertBatch acknowledged ns = (.ok count, (insertEach ns s).2) ∧
      (insertEach ns s).1 + s.nullifiers.card = (insertEach ns s).2.nullifiers.card ∧
      (count = (insertEach ns s).1 ↔ (ns.filter (· ∉ s.nullifiers)).Nodup)) ∧
    ∀ storage s₀, withStorage storage = .ok s₀ → ∀ calls : List NullifierCall,
      ∃ s', calls.foldlM exec s₀ = .ok s' ∧ s'.Mirrored := by
  refine ⟨?_, fun storage s₀ hopen calls => ?_⟩
  · rcases insertBatch_cases s acknowledged ns with hfailed | hdone
    · exact .inl hfailed
    · obtain ⟨hcount, hset⟩ := insertEach_eq ns s
      refine .inr ⟨_, hdone, by rw [hcount, hset], ?_⟩
      -- the set grows by the new nullifiers, each counted once
      have hgrowth : (insertEach ns s).1 = (ns.filter (· ∉ s.nullifiers)).dedup.length := by
        have hnew : (ns.filter (· ∉ s.nullifiers)).toFinset = ns.toFinset \ s.nullifiers := by
          ext n
          simp
        rw [← card_toFinset, hnew]
        have hcard := Finset.card_sdiff_add_card ns.toFinset s.nullifiers
        rw [Finset.union_comm] at hcard
        omega
      rw [hgrowth, ← dedup_eq_self]
      exact ⟨fun hlength => (dedup_sublist _).eq_of_length hlength.symm, fun hsame => congrArg length hsame.symm⟩
  · obtain ⟨s', hrun, hbacked⟩ := backed_run (withStorage_ok_iff.mp hopen).2 calls
    exact ⟨s', hrun, hbacked.mirrored⟩

/-- A new nullifier that occurs twice in a batch is counted twice, and the set grows by one. -/
theorem batch_counts_repeated_nullifier :
    ((⟨∅, .empty⟩ : NullifierSet).insertBatch true [zero32, zero32]).1 = .ok 2 ∧
      (insertEach [zero32, zero32] ⟨∅, .empty⟩).1 = 1 := by
  decide +kernel

end Paraloom.OffChain
