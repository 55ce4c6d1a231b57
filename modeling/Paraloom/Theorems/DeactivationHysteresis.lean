import Paraloom.Lib.Hysteresis
import Paraloom.OffChain.PeerRegistry

/-!
# Deactivation after consecutive absences

A peer is deactivated at a tick exactly when it was connected before, has been away since, and has been away for as many ticks as
the threshold (for one tick where the threshold is zero).
-/

namespace Paraloom.OffChain

open AList Hysteresis

namespace Tracking

def streak (t : Tracking) (peer : NodeId) : Nat := (t.misses.lookup peer).getD 0

/-- The ticks since a followed peer was last there. -/
def age (t : Tracking) (peer : NodeId) : Option Nat := if peer ∈ t.known then some (t.streak peer) else none

/-- Streaks are kept for known peers only. -/
def Tidy (t : Tracking) : Prop := ∀ peer ∈ t.misses, peer ∈ t.known

variable {t t' : Tracking} {peer p : NodeId}

theorem Tidy.markPresent (h : t.Tidy) (peer : NodeId) : (t.markPresent peer).Tidy := by
  intro q hq
  have hmem : q ≠ peer ∧ q ∈ t.misses := (mem_erase ..).mp hq
  exact Finset.mem_insert_of_mem (h q hmem.2)

theorem age_markPresent : (t.markPresent peer).age p = if p = peer then some 0 else t.age p := by
  by_cases hp : p = peer
  · subst hp
    simp [age, streak, Tracking.markPresent]
  · simp [age, streak, Tracking.markPresent, hp, lookup_erase_ne hp]

/-- The first loop sets the age of every peer it visits to zero. -/
theorem foldl_markPresent (peers : List NodeId) (t : Tracking) (h : t.Tidy) : (peers.foldl Tracking.markPresent t).Tidy ∧
      ∀ p, (peers.foldl Tracking.markPresent t).age p = if p ∈ peers then some 0 else t.age p := by
  induction peers generalizing t with
  | nil => exact ⟨h, fun p => by simp⟩
  | cons peer peers ih =>
    obtain ⟨htidy, hage⟩ := ih (t.markPresent peer) (h.markPresent peer)
    refine ⟨htidy, fun p => ?_⟩
    rw [List.foldl_cons, hage, age_markPresent]
    by_cases hp : p ∈ peers <;> by_cases hhead : p = peer <;> simp [hp, hhead]

/-- One turn of the second loop: it bumps one streak, or gives the peer up. -/
theorem markAbsent_spec (htidy : t.Tidy) (hknown : peer ∈ t.known) (hroom : t.streak peer < max threshold.toNat 1) :
    ∃ t', Tracking.markAbsent threshold (t, deactivate) peer =
        some (t', if threshold.toNat ≤ t.streak peer + 1 then deactivate ++ [peer] else deactivate) ∧
      t'.Tidy ∧ (∀ p ≠ peer, t'.streak p = t.streak p ∧ (p ∈ t'.known ↔ p ∈ t.known)) ∧
      t'.age peer = next threshold.toNat (t.age peer) False := by
  have hfits : t.streak peer + 1 < UInt32.size := by
    have := threshold.toNat_lt_size
    have : (1 : Nat) < UInt32.size := by decide
    omega
  have hage : t.age peer = some (t.streak peer) := if_pos hknown
  have hstreak : (t.misses.lookup peer).getD 0 = t.streak peer := rfl
  unfold Tracking.markAbsent
  simp only [hstreak, if_pos hfits, hage, next, if_false, Option.bind_some]
  by_cases hlimit : threshold.toNat ≤ t.streak peer + 1
  · simp only [if_pos hlimit]
    refine ⟨_, rfl, fun q hq => ?_, fun q hne => ?_, ?_⟩
    · rw [mem_erase, mem_insert] at hq
      exact Finset.mem_erase.mpr ⟨hq.1, htidy q (hq.2.resolve_left hq.1)⟩
    · simp [streak, lookup_erase_ne hne, lookup_insert_ne hne, hne]
    · simp [age]
  · simp only [if_neg hlimit]
    refine ⟨_, rfl, fun q hq => ?_, fun q hne => ?_, ?_⟩
    · rcases (mem_insert _).mp hq with rfl | hmem
      · exact hknown
      · exact htidy q hmem
    · simp [streak, lookup_insert_ne hne]
    · simp [age, streak, hknown]

/-- The second loop ages every peer it visits and returns those at the threshold. -/
theorem foldlM_markAbsent (absent : List NodeId) (hnodup : absent.Nodup) (deactivate : List NodeId) (htidy : t.Tidy)
    (hknown : ∀ p ∈ absent, p ∈ t.known) (hroom : ∀ p ∈ absent, t.streak p < max threshold.toNat 1) :
    ∃ t', absent.foldlM (Tracking.markAbsent threshold) (t, deactivate) =
        some (t', deactivate ++ absent.filter fun p => threshold.toNat ≤ t.streak p + 1) ∧
      t'.Tidy ∧ ∀ p, t'.age p = if p ∈ absent then next threshold.toNat (t.age p) False else t.age p := by
  induction absent generalizing t deactivate with
  | nil => exact ⟨t, by simp, htidy, fun p => by simp⟩
  | cons peer absent ih =>
    obtain ⟨hfresh, hnodup⟩ := List.nodup_cons.mp hnodup
    obtain ⟨t₁, hturn, htidy₁, hframe, hpeer⟩ :=
      markAbsent_spec htidy (hknown peer (by simp)) (hroom peer (by simp))
    have hne : ∀ p ∈ absent, p ≠ peer := fun p hp heq => hfresh (heq ▸ hp)
    have hage : ∀ p ≠ peer, t₁.age p = t.age p := fun p hp => by simp [age, hframe p hp]
    obtain ⟨t₂, hloop, htidy₂, hage₂⟩ := ih hnodup
      (if threshold.toNat ≤ t.streak peer + 1 then deactivate ++ [peer] else deactivate) htidy₁
      (fun p hp => (hframe p (hne p hp)).2.mpr (hknown p (List.mem_cons_of_mem _ hp)))
      (fun p hp => (hframe p (hne p hp)).1.symm ▸ hroom p (List.mem_cons_of_mem _ hp))
    refine ⟨t₂, ?_, htidy₂, fun p => ?_⟩
    · -- the later turns see the streaks of the start, as no peer is visited twice
      have hfilter : (absent.filter fun p => threshold.toNat ≤ t₁.streak p + 1) =
          absent.filter fun p => threshold.toNat ≤ t.streak p + 1 :=
        List.filter_congr fun p hp => by rw [(hframe p (hne p hp)).1]
      rw [List.foldlM_cons, hturn, Option.bind_eq_bind, Option.bind_some, hloop, hfilter]
      by_cases hlimit : threshold.toNat ≤ t.streak peer + 1 <;> simp [hlimit]
    · rw [hage₂]
      by_cases hp : p = peer
      · subst hp
        simp [hfresh, hpeer]
      · simp [hp, hage p hp]

end Tracking

section Ticks

variable {t : Tracking} {threshold : UInt32}

/-- One tick: it returns, ages every peer, and its result is the peers given up. -/
theorem reconcileDeactivations_spec (ι ι' : SetOrder NodeId) (connected : Finset NodeId) (htidy : t.Tidy)
    (hroom : ∀ p a, t.age p = some a → a < max threshold.toNat 1) :
    ∃ t' dropped, reconcileDeactivations ι ι' t connected threshold = some (t', dropped) ∧ t'.Tidy ∧ dropped.Nodup ∧
      (∀ p, t'.age p = next threshold.toNat (t.age p) (p ∈ connected)) ∧
      ∀ p, p ∈ dropped ↔ Dropped threshold.toNat (t.age p) (p ∈ connected) := by
  obtain ⟨htidy₁, hage₁⟩ := Tracking.foldl_markPresent (ι.visit connected) t htidy
  simp only [ι.mem_visit] at hage₁
  unfold reconcileDeactivations
  generalize (ι.visit connected).foldl Tracking.markPresent t = t₁ at htidy₁ hage₁ ⊢
  simp only
  have habsent : ∀ p, p ∈ (ι'.visit t₁.known).filter (· ∉ connected) ↔ p ∈ t₁.known ∧ p ∉ connected := by
    simp [ι'.mem_visit]
  -- a peer that is away has the age it had before the first loop
  have hold : ∀ p ∉ connected, t.age p = if p ∈ t₁.known then some (t₁.streak p) else none := by
    intro p hc
    rw [← (if_neg hc : _ = t.age p), ← hage₁ p, Tracking.age]
  obtain ⟨t₂, hloop, htidy₂, hage₂⟩ := Tracking.foldlM_markAbsent ((ι'.visit t₁.known).filter (· ∉ connected))
    ((ι'.visit_nodup _).filter _) [] htidy₁ (fun p hp => ((habsent p).mp hp).1)
    (fun p hp => hroom p _ (by rw [hold p ((habsent p).mp hp).2, if_pos ((habsent p).mp hp).1]))
  refine ⟨t₂, _, hloop, htidy₂, ((ι'.visit_nodup _).filter _).filter _, fun p => ?_, fun p => ?_⟩
  · simp only [hage₂, hage₁, habsent]
    by_cases hc : p ∈ connected
    · simp [hc, next]
    · by_cases hknown : p ∈ t₁.known <;> simp [hc, hknown, hold p hc, next]
  · rw [List.nil_append, List.mem_filter, habsent, Dropped]
    by_cases hc : p ∈ connected
    · simp [hc]
    · by_cases hknown : p ∈ t₁.known <;> simp [hc, hknown, hold p hc]

variable (orders orders' : Nat → SetOrder NodeId) {sets : Nat → Finset NodeId}

/-- Ages of a trace leave room for one more tick below the threshold. -/
theorem age_lt (hage : ∀ p, t.age p = ages threshold.toNat (fun i => p ∈ sets i) k) (p : NodeId) (a : Nat)
    (ha : t.age p = some a) : a < max threshold.toNat 1 := by
  rw [hage p] at ha
  exact ((ages_eq_some_iff k a).mp ha).1

variable (threshold sets)

/-- Before every tick each peer has the age its presence so far gives it. -/
theorem trackingBefore_spec (k : Nat) : ∃ t, trackingBefore orders orders' threshold sets k = some t ∧ t.Tidy ∧
      ∀ p, t.age p = ages threshold.toNat (fun i => p ∈ sets i) k := by
  induction k with
  | zero => exact ⟨.empty, rfl, fun p hp => absurd hp (notMem_empty p), fun p => rfl⟩
  | succ k ih =>
    obtain ⟨t, ht, htidy, hage⟩ := ih
    obtain ⟨t', dropped, htick, htidy', -, hage', -⟩ :=
      reconcileDeactivations_spec (orders k) (orders' k) (sets k) htidy (age_lt hage)
    refine ⟨t', by simp [trackingBefore, ht, htick], htidy', fun p => ?_⟩
    rw [hage', hage p]
    rfl

/-- Every tick returns the peers that its trace gives up, each once. -/
theorem deactivatedAt_spec (k : Nat) : ∃ dropped, deactivatedAt orders orders' threshold sets k = some dropped ∧ dropped.Nodup ∧
      ∀ p, p ∈ dropped ↔ ∃ j < k, p ∈ sets j ∧ (∀ i, j < i → i ≤ k → p ∉ sets i) ∧ k - j = max threshold.toNat 1 := by
  obtain ⟨t, ht, htidy, hage⟩ := trackingBefore_spec threshold orders orders' sets k
  obtain ⟨t', dropped, htick, -, hnodup, -, hdropped⟩ :=
    reconcileDeactivations_spec (orders k) (orders' k) (sets k) htidy (age_lt hage)
  refine ⟨dropped, by simp [deactivatedAt, ht, htick], hnodup, fun p => ?_⟩
  rw [hdropped, hage p]
  exact dropped_iff k

theorem Tracking.Tidy.exists_age (h : t.Tidy) (hp : p ∈ t.known ∨ p ∈ t.misses) : ∃ a, t.age p = some a :=
  ⟨t.streak p, if_pos (hp.elim id (h p))⟩

end Ticks

/-- A peer is returned at a tick exactly when it was connected at an earlier one, has been away ever since, and that is the
threshold's number of ticks ago, or one where the threshold is zero. After the tick the maps hold only peers connected within
as many ticks. Sequences are infinite here: what happens at a tick depends on the sets up to it alone. -/
theorem deactivated_iff_away_for_threshold (orders orders' : Nat → SetOrder NodeId) (threshold : UInt32)
    (connected : Nat → Finset NodeId) (k : Nat) :
    ∃ t dropped, trackingBefore orders orders' threshold connected (k + 1) = some t ∧
      deactivatedAt orders orders' threshold connected k = some dropped ∧ dropped.Nodup ∧
      (∀ p, p ∈ dropped ↔
        ∃ j < k, p ∈ connected j ∧ (∀ i, j < i → i ≤ k → p ∉ connected i) ∧ k - j = max threshold.toNat 1) ∧
      (∀ p ∈ dropped, ∀ k' < k, ∀ dropped', deactivatedAt orders orders' threshold connected k' = some dropped' →
        p ∈ dropped' → ∃ i, k' < i ∧ i < k ∧ p ∈ connected i) ∧
      (∀ p, (∀ j ≤ k, p ∉ connected j) → p ∉ dropped) ∧
      ∀ p, p ∈ t.known ∨ p ∈ t.misses → ∃ j ≤ k, k - j < max threshold.toNat 1 ∧ p ∈ connected j := by
  obtain ⟨t, ht, htidy, hage⟩ := trackingBefore_spec threshold orders orders' connected (k + 1)
  obtain ⟨dropped, hat, hnodup, hdropped⟩ := deactivatedAt_spec threshold orders orders' connected k
  refine ⟨t, dropped, ht, hat, hnodup, hdropped, ?_, ?_, ?_⟩
  · intro p hp k' hk' dropped' hat' hp'
    obtain ⟨_, hat'', -, hdropped'⟩ := deactivatedAt_spec threshold orders orders' connected k'
    obtain rfl := Option.some.inj (hat'.symm.trans hat'')
    obtain ⟨j, hjk, hj, -, hlen⟩ := (hdropped p).mp hp
    obtain ⟨j', hjk', hj', habsent', hlen'⟩ := (hdropped' p).mp hp'
    -- the later absence is as long as the earlier one, so it starts later, and at its start the peer is there
    have hlater : k' < j := by
      by_contra hle
      exact habsent' j (by omega) (by omega) hj
    exact ⟨j, hlater, hjk, hj⟩
  · intro p hnever hp
    obtain ⟨j, hjk, hj, -⟩ := (hdropped p).mp hp
    exact hnever j hjk.le hj
  · intro p hp
    obtain ⟨a, ha⟩ := htidy.exists_age hp
    rw [hage p] at ha
    obtain ⟨hlt, j, hseen, hk⟩ := (Hysteresis.ages_eq_some_iff (k + 1) a).mp ha
    exact ⟨j, by omega, by omega, hseen.seen⟩

end Paraloom.OffChain
