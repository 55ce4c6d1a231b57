import Paraloom.OffChain.Leader

/-!
# Agreement on the leader

Two nodes with the same validators draw the same number from a seed, and walk along the cumulative weights in the orders of their
own maps. They are sure to stop at the same validator only when one validator weighs more than the number drawn and the others
together weigh no more than it.
-/

namespace Paraloom.OffChain

open WeightedChoice

namespace LeaderSelector

def totalWeight (s : LeaderSelector) : Nat := Table.total (fun _ v => v.selectionWeight) s

/-- The number drawn falls to one validator wherever it stands: it is below the weight of that validator and not below the weight
of all the others. -/
def Dominates (sha256 : Bytes → Bytes32) (s : LeaderSelector) (seed : Bytes) (v : ValidatorInfo) : Prop :=
  deterministicRandom sha256 seed s.totalWeight < v.selectionWeight ∧
    s.totalWeight - v.selectionWeight ≤ deterministicRandom sha256 seed s.totalWeight

instance (sha256 : Bytes → Bytes32) (s : LeaderSelector) (seed : Bytes) (v : ValidatorInfo) :
    Decidable (s.Dominates sha256 seed v) :=
  inferInstanceAs (Decidable (_ ∧ _))

end LeaderSelector

namespace LeaderAux

open LeaderSelector

variable {s : LeaderSelector}

abbrev weight (e : NodeId × ValidatorInfo) : Nat := e.2.selectionWeight

abbrev active (order : List (NodeId × ValidatorInfo)) : List (NodeId × ValidatorInfo) := order.filter (·.2.isActive)

theorem sumU128_eq : sumU128 weights = if weights.sum ≤ u128Max then some weights.sum else none := by
  -- over the sum so far, which fits
  have hfrom : ∀ sum, sum ≤ u128Max →
      weights.foldlM (fun sum weight => if sum + weight ≤ u128Max then some (sum + weight) else none) sum =
        if sum + weights.sum ≤ u128Max then some (sum + weights.sum) else none := by
    induction weights with
    | nil =>
      intro sum hsum
      simp [hsum]
    | cons weight weights ih =>
      intro sum hsum
      rw [List.foldlM_cons, List.sum_cons, ← Nat.add_assoc]
      split
      · rename_i hfits
        exact ih _ hfits
      · rename_i hover
        rw [if_neg (by omega)]
        rfl
  rw [sumU128, hfrom 0 (Nat.zero_le _), Nat.zero_add]

theorem total_active : total weight (active order) = total weight order := by
  induction order with
  | nil => rfl
  | cons e order ih =>
    rw [active, List.filter_cons, total_cons]
    split
    · rw [total_cons, ih]
    · rename_i hinactive
      have hzero : weight e = 0 := if_neg hinactive
      rw [ih, hzero, Nat.zero_add]

theorem total_visits (h : s.Visits order) : total weight (active order) = s.totalWeight := by
  rw [total_active, total_perm h, total, pairs, List.map_map]
  rfl

theorem pairs_fst_nodup : (s.pairs.map Prod.fst).Nodup := by
  have hkeys : s.pairs.map Prod.fst = s.keys := by
    rw [pairs, List.map_map]
    rfl
  rw [hkeys]
  exact s.keys_nodup

theorem mem_pairs : (nodeId, v) ∈ s.pairs ↔ s.lookup nodeId = some v := by
  rw [← Option.mem_def, AList.mem_lookup_iff, pairs, List.mem_map]
  constructor
  · rintro ⟨e, he, heq⟩
    obtain ⟨rfl, rfl⟩ := Prod.mk.inj heq
    exact he
  · intro he
    exact ⟨_, he, rfl⟩

/-- Nodes with the same entries may iterate in the same orders. -/
theorem visits_congr {t : LeaderSelector} (hsame : ∀ nodeId, s.lookup nodeId = t.lookup nodeId) :
    s.Visits order ↔ t.Visits order := by
  have hentries : s.entries.Perm t.entries :=
    List.lookup_ext s.nodupKeys t.nodupKeys fun nodeId v => Eq.to_iff (congrArg (v ∈ ·) (hsame nodeId))
  have hperm : s.pairs.Perm t.pairs := hentries.map _
  exact ⟨fun h => h.trans hperm, fun h => h.trans hperm.symm⟩

theorem active_nodup (h : s.Visits order) : (active order).Nodup :=
  (h.nodup_iff.mpr (pairs_fst_nodup).of_map).filter _

theorem eq_of_fst_eq (he : e ∈ s.pairs) (he' : e' ∈ s.pairs) (hid : e.1 = e'.1) : e = e' :=
  List.inj_on_of_nodup_map (pairs_fst_nodup) he he' hid

/-- Every arrangement of the active entries comes from an order of all entries. -/
theorem exists_visits (h : actives.Perm (active s.pairs)) : ∃ order, s.Visits order ∧ active order = actives := by
  refine ⟨actives ++ s.pairs.filter (!·.2.isActive), ?_, ?_⟩
  · exact (h.append_right _).trans (List.filter_append_perm _ _)
  · have hactive : ∀ e ∈ actives, e.2.isActive = true := by
      intro e he
      exact (List.mem_filter.mp (h.mem_iff.mp he)).2
    rw [active, List.filter_append, List.filter_eq_self.mpr hactive, List.filter_filter]
    simp

theorem sumU128_visits (h : s.Visits order) :
    sumU128 ((active order).map weight) = if s.totalWeight ≤ u128Max then some s.totalWeight else none := by
  rw [sumU128_eq, ← total_visits h]
  rfl

theorem selectLeader_fails (h : s.Visits order) (h' : s.Visits order') (hweight : s.totalWeight = 0 ∨ u128Max < s.totalWeight) :
    selectLeader sha256 order seed = selectLeader sha256 order' seed := by
  have hempty : active order = [] ↔ active order' = [] := by
    have hperm : (active order).Perm (active order') := (h.trans h'.symm).filter _
    rw [← List.length_eq_zero_iff, hperm.length_eq, List.length_eq_zero_iff]
  have hguard : ∀ e : Checked.Failure String, Checked.require (active order ≠ []) e = Checked.require (active order' ≠ []) e := by
    intro e
    rw [Checked.require, Checked.require]
    exact if_congr hempty.not rfl rfl
  have hsum : sumU128 ((active order).map weight) = sumU128 ((active order').map weight) := by
    rw [sumU128_visits h, sumU128_visits h']
  have hfail : sumU128 ((active order').map weight) = some 0 ∨ sumU128 ((active order').map weight) = none := by
    rw [sumU128_visits h']
    rcases hweight with hzero | hover
    · exact .inl (by rw [hzero, if_pos (Nat.zero_le _)])
    · exact .inr (if_neg (Nat.not_le.mpr hover))
  rw [selectLeader, selectLeader, hguard, hsum]
  rcases hfail with hfail | hfail
  · rw [hfail]
    rfl
  · rw [hfail]
    rfl

/-- A selection that does not fail returns the validator the draw falls to. -/
theorem selectLeader_eq (h : s.Visits order) (hweight : s.totalWeight ≠ 0) (hfits : s.totalWeight ≤ u128Max) :
    ∃ e, choose weight (deterministicRandom sha256 seed s.totalWeight) 0 (active order) = some e ∧
      selectLeader sha256 order seed = .ok e.1 := by
  have htotal := total_visits h
  have hne : active order ≠ [] := by
    intro hnil
    rw [hnil] at htotal
    exact hweight htotal.symm
  have hdraw : deterministicRandom sha256 seed s.totalWeight < total weight (active order) := by
    rw [htotal]
    exact Nat.mod_lt _ (Nat.pos_of_ne_zero hweight)
  obtain ⟨e, he⟩ := exists_choose (Nat.zero_le _) (hdraw.trans_eq (Nat.zero_add _).symm)
  refine ⟨e, he, ?_⟩
  simp [selectLeader, Checked.require, Checked.okOr, hne, sumU128_visits h, hfits, hweight, he, bind, Except.bind]

/-- Orders agree on the leader exactly when they agree on the entry. -/
theorem selectLeader_congr_iff (h : s.Visits order) (h' : s.Visits order') (hweight : s.totalWeight ≠ 0)
    (hfits : s.totalWeight ≤ u128Max) :
    selectLeader sha256 order seed = selectLeader sha256 order' seed ↔
      choose weight (deterministicRandom sha256 seed s.totalWeight) 0 (active order) =
        choose weight (deterministicRandom sha256 seed s.totalWeight) 0 (active order') := by
  obtain ⟨e, he, hleader⟩ := selectLeader_eq h hweight hfits
  obtain ⟨e', he', hleader'⟩ := selectLeader_eq h' hweight hfits
  have hmem : e ∈ s.pairs := h.mem_iff.mp (List.mem_of_mem_filter (mem_of_choose he))
  have hmem' : e' ∈ s.pairs := h'.mem_iff.mp (List.mem_of_mem_filter (mem_of_choose he'))
  rw [he, he', hleader, hleader', Except.ok.injEq, Option.some.injEq]
  constructor
  · exact eq_of_fst_eq hmem hmem'
  · intro heq
    rw [heq]

theorem agreement_iff_choice (hweight : s.totalWeight ≠ 0) (hfits : s.totalWeight ≤ u128Max) :
    (∀ order₁ order₂, s.Visits order₁ → s.Visits order₂ → selectLeader sha256 order₁ seed = selectLeader sha256 order₂ seed) ↔
    ∀ actives₁ actives₂, actives₁.Perm (active s.pairs) → actives₂.Perm (active s.pairs) →
      choose weight (deterministicRandom sha256 seed s.totalWeight) 0 actives₁ =
        choose weight (deterministicRandom sha256 seed s.totalWeight) 0 actives₂ := by
  constructor
  · intro hagree actives₁ actives₂ h₁ h₂
    obtain ⟨order₁, hvisits₁, rfl⟩ := exists_visits h₁
    obtain ⟨order₂, hvisits₂, rfl⟩ := exists_visits h₂
    exact (selectLeader_congr_iff hvisits₁ hvisits₂ hweight hfits).mp (hagree _ _ hvisits₁ hvisits₂)
  · intro hagree order₁ order₂ h₁ h₂
    exact (selectLeader_congr_iff h₁ h₂ hweight hfits).mpr (hagree _ _ (h₁.filter _) (h₂.filter _))

theorem selectLeader_ok (h : s.Visits order) (hok : selectLeader sha256 order seed = .ok leader) :
    ∃ v, s.lookup leader = some v ∧ v.isActive = true ∧ v.selectionWeight ≠ 0 := by
  have htotal : s.totalWeight ≠ 0 ∧ s.totalWeight ≤ u128Max := by
    rw [selectLeader] at hok
    obtain ⟨-, -, hok⟩ := Checked.seq_ok_iff.mp hok
    obtain ⟨total, hsum, hok⟩ := Checked.seq_ok_iff.mp hok
    obtain ⟨_, hne, -⟩ := Checked.seq_ok_iff.mp hok
    rw [Checked.okOr_ok_iff, sumU128_visits h] at hsum
    split at hsum
    · rename_i hfits
      obtain rfl := Option.some.inj hsum
      exact ⟨Checked.require_ok_iff.mp hne, hfits⟩
    · cases hsum
  obtain ⟨⟨nodeId, v⟩, hchosen, hleader⟩ := selectLeader_eq h htotal.1 htotal.2
  obtain rfl := Except.ok.inj (hleader.symm.trans hok)
  have hmem := List.mem_filter.mp (mem_of_choose hchosen)
  obtain ⟨before, -, -, hbefore, hinterval⟩ := choose_some hchosen (Nat.zero_le _)
  refine ⟨v, mem_pairs.mp (h.mem_iff.mp hmem.1), hmem.2, ?_⟩
  intro hzero
  have hweight : weight (nodeId, v) = 0 := hzero
  omega

end LeaderAux

open LeaderSelector LeaderAux in
/-- Two nodes that hold the same entries select the same leader in all orders of their maps exactly when there is none to select,
the weights overflow, or one validator dominates the draw. A leader that is selected is active and weighs something. -/
theorem select_leader_agreement (sha256 : Bytes → Bytes32) (calls₁ calls₂ : List LeaderCall) (seed : Bytes)
    (hsame : ∀ nodeId, (after calls₁).lookup nodeId = (after calls₂).lookup nodeId) :
    ((∀ order₁ order₂, (after calls₁).Visits order₁ → (after calls₂).Visits order₂ →
        selectLeader sha256 order₁ seed = selectLeader sha256 order₂ seed) ↔
      (after calls₁).totalWeight = 0 ∨ u128Max < (after calls₁).totalWeight ∨
        ∃ nodeId v, (after calls₁).lookup nodeId = some v ∧ (after calls₁).Dominates sha256 seed v) ∧
    ∀ order leader, (after calls₁).Visits order → selectLeader sha256 order seed = .ok leader →
      ∃ v, (after calls₁).lookup leader = some v ∧ v.isActive = true ∧ v.selectionWeight ≠ 0 := by
  refine ⟨?_, fun order leader horder hok => selectLeader_ok horder hok⟩
  generalize after calls₁ = s at hsame ⊢
  simp only [← visits_congr hsame]
  by_cases hfail : s.totalWeight = 0 ∨ u128Max < s.totalWeight
  · exact iff_of_true (fun order₁ order₂ h₁ h₂ => selectLeader_fails h₁ h₂ hfail) (hfail.imp_right Or.inl)
  obtain ⟨hweight, hfits⟩ := not_or.mp hfail
  rw [Nat.not_lt] at hfits
  have hdraw : deterministicRandom sha256 seed s.totalWeight < WeightedChoice.total weight (active s.pairs) := by
    rw [total_visits (List.Perm.refl _)]
    exact Nat.mod_lt _ (Nat.pos_of_ne_zero hweight)
  rw [agreement_iff_choice hweight hfits, WeightedChoice.choose_perm_iff (active_nodup (List.Perm.refl _)) hdraw,
    total_visits (List.Perm.refl _)]
  constructor
  · rintro ⟨⟨nodeId, v⟩, hmem, hlt, hle⟩
    exact .inr (.inr ⟨nodeId, v, mem_pairs.mp (List.mem_of_mem_filter hmem), hlt, Nat.sub_le_iff_le_add.mpr hle⟩)
  · rintro (hzero | hover | ⟨nodeId, v, hv, hlt, hle⟩)
    · exact absurd hzero hweight
    · exact absurd hover (Nat.not_lt.mpr hfits)
    · have hactive : v.isActive = true := by
        by_contra hinactive
        rw [ValidatorInfo.selectionWeight, if_neg hinactive] at hlt
        exact Nat.not_lt_zero _ hlt
      exact ⟨(nodeId, v), List.mem_filter.mpr ⟨mem_pairs.mpr hv, hactive⟩, hlt, Nat.sub_le_iff_le_add.mp hle⟩

/-! ## Two validators -/

namespace LeaderSample

open LeaderSelector

def sha256 (bytes : Bytes) : Bytes32 :=
  if bytes = utf8 "request-1" then LittleEndian.vec 32 0xba74ee0bbf326f224b4f59fc7106726c26d71c26c7ea9253d3499d614b06f119
  else LittleEndian.vec 32 0

def seed : Bytes := utf8 "request-1"

/-- An active validator with the stake given and the base reputation. -/
def staked (lamports : Nat) : ValidatorInfo := ⟨lamports, 1000, true, none⟩

def first : NodeId × ValidatorInfo := ([1], staked 10000000000)

def second (lamports : Nat) : NodeId × ValidatorInfo := ([2], staked lamports)

/-- Two registrations, in the order of one node. -/
def calls (lamports : Nat) : List LeaderCall :=
  [.registerValidator first.1 first.2, .registerValidator (second lamports).1 (second lamports).2]

theorem calls_reverse (nodeId : NodeId) :
    (after (calls lamports)).lookup nodeId = (after (calls lamports).reverse).lookup nodeId := by
  simp only [after, calls, exec, LeaderSelector.registerValidator, List.reverse_cons, List.reverse_nil, List.nil_append,
    List.cons_append, List.foldl_cons, List.foldl_nil, Table.lookup_insert_if, first, second]
  split
  · rename_i h
    subst h
    rfl
  · rfl

end LeaderSample

open LeaderSelector LeaderSample in
/-- The second validator has so little stake that the draw falls to the first in both orders. -/
theorem select_leader_agreement_small :
    selectLeader sha256 [first, second 100] seed = selectLeader sha256 [second 100, first] seed :=
  (select_leader_agreement sha256 (calls 100) (calls 100).reverse seed (calls_reverse)).1.mpr
    (.inr (.inr ⟨first.1, first.2, rfl, by decide +kernel⟩)) _ _ (List.Perm.swap ..) (List.Perm.swap ..)

open LeaderSelector LeaderSample in
/-- With equal stakes, the two nodes select the validator that their own map visits first. -/
theorem leaders_differ :
    (∀ nodeId, (after (calls 10000000000)).lookup nodeId = (after (calls 10000000000).reverse).lookup nodeId) ∧
    (after (calls 10000000000)).Visits [first, second 10000000000] ∧
    (after (calls 10000000000).reverse).Visits [second 10000000000, first] ∧
    selectLeader sha256 [first, second 10000000000] seed = .ok [1] ∧
    selectLeader sha256 [second 10000000000, first] seed = .ok [2] :=
  ⟨calls_reverse, List.Perm.swap .., List.Perm.swap .., by decide +kernel, by decide +kernel⟩

end Paraloom.OffChain
