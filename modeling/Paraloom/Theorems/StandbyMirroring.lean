import Paraloom.OffChain.CoordinatorCalls

/-!
# The mirror of a standby

The role check of a heartbeat, its sequence check and the four writes of its snapshot are separate critical sections. Where
these do not overlap with another heartbeat or a promotion, the standby holds the newest snapshot. Otherwise a slow older
heartbeat writes over a newer one, or over the state of a primary.
-/

namespace Paraloom.OffChain

open Interleaving List

/-- The snapshot has been accepted and is not all written. -/
def HeartbeatPoint.mirrors : HeartbeatPoint → Bool
  | writeValidators | writeActiveTasks | writeParentTasks | writeResults => true
  | _ => false

def StandbyCall.Mirrors : StandbyCall → Prop
  | applyHeartbeat call => call.point.mirrors = true
  | tryPromoteIfStalled _ _ => False

instance : DecidablePred StandbyCall.Mirrors
  | .applyHeartbeat call => inferInstanceAs (Decidable (call.point.mirrors = true))
  | .tryPromoteIfStalled _ _ => inferInstanceAs (Decidable False)

/-- The call is about to pass the check of its sequence. -/
def HeartbeatCall.Accepts (call : HeartbeatCall) (s : Standby) : Prop :=
  call.point = .writeSequence ∧
    ¬ (call.request.sequence ≤ s.coordinator.heartbeatSequence ∧ s.coordinator.heartbeatSequence ≠ 0)

instance (call : HeartbeatCall) (s : Standby) : Decidable (call.Accepts s) := inferInstanceAs (Decidable (_ ∧ _))

/-- No call is between the acceptance of its heartbeat and the last write of its snapshot. -/
def Undisturbed (c : Config Standby StandbyCall) : Prop := c.All (¬ ·.Mirrors)

instance (c : Config Standby StandbyCall) : Decidable (Undisturbed c) := inferInstanceAs (Decidable (c.All _))

/-- A heartbeat is accepted only while no other one is being mirrored and the standby is not promoted, and with sequence zero only
as the first one; the standby is promoted only while no heartbeat is being mirrored. -/
def StandbyCall.Orderly (c : Config Standby StandbyCall) : StandbyCall → Prop
  | applyHeartbeat call => call.Accepts c.state →
      Undisturbed c ∧ c.state.coordinator.role.isPrimary = false ∧ (c.state.accepted.isEmpty ∨ call.request.sequence ≠ 0)
  | tryPromoteIfStalled now _ => c.state.coordinator.role.isStalled now → Undisturbed c

instance (c : Config Standby StandbyCall) : DecidablePred (StandbyCall.Orderly c)
  | .applyHeartbeat _ => inferInstanceAs (Decidable (_ → _))
  | .tryPromoteIfStalled _ _ => inferInstanceAs (Decidable (_ → _))

/-- A grant to a call that is in order. -/
def OrderlyStep (c : Config Standby StandbyCall) (id : Nat) (c' : Config Standby StandbyCall) : Prop :=
  c.Step standbyProtocol id c' ∧ ∀ call, c.calls.lookup id = some call → call.Orderly c

instance (c : Config Standby StandbyCall) (id : Nat) : Decidable (∀ call, c.calls.lookup id = some call → call.Orderly c) :=
  inferInstanceAs (Decidable (∀ call ∈ c.calls.lookup id, call.Orderly c))

/-- The call has not begun, or it has returned. -/
def HeartbeatPoint.atRest : HeartbeatPoint → Bool
  | readRole | returned _ => true
  | _ => false

/-- A promotion is one critical section, so it is never in progress. -/
def StandbyCall.AtRest : StandbyCall → Prop
  | applyHeartbeat call => call.point.atRest = true
  | tryPromoteIfStalled _ _ => True

instance : DecidablePred StandbyCall.AtRest
  | .applyHeartbeat call => inferInstanceAs (Decidable (call.point.atRest = true))
  | .tryPromoteIfStalled _ _ => inferInstanceAs (Decidable True)

/-- No call is in progress. -/
def Idle (c : Config Standby StandbyCall) : Prop := c.All StandbyCall.AtRest

instance (c : Config Standby StandbyCall) : Decidable (Idle c) := inferInstanceAs (Decidable (c.All _))

namespace MirroringAux

/-- What of a snapshot is written when a call stands at a point. -/
def Written (snapshot held : CoordinatorSnapshot) : HeartbeatPoint → Prop
  | .writeActiveTasks => held.validators = snapshot.validators
  | .writeParentTasks => held.validators = snapshot.validators ∧ held.activeTasks = snapshot.activeTasks
  | .writeResults =>
    held.validators = snapshot.validators ∧ held.activeTasks = snapshot.activeTasks ∧ held.parentTasks = snapshot.parentTasks
  | .writeRole => held = snapshot
  | _ => True

/-- What one section of `apply_heartbeat` does. -/
inductive Section (call : HeartbeatCall) (s : Standby) : Standby → HeartbeatPoint → Prop where
  /-- Nothing that is mirrored changes. -/
  | quiet {role : CoordinatorRole} {point : HeartbeatPoint} (hbefore : call.point.mirrors = false)
      (hafter : point.mirrors = false) (hrole : role.isPrimary = s.coordinator.role.isPrimary) :
      Section call s { s with coordinator := { s.coordinator with role } } point
  | accept (haccepts : call.Accepts s) :
      Section call s ⟨{ s.coordinator with heartbeatSequence := call.request.sequence }, s.accepted ++ [call.request]⟩
        .writeValidators
  /-- One of the four parts is written. -/
  | write {s' : Standby} {point : HeartbeatPoint} (hbefore : call.point.mirrors = true)
      (hafter : point.mirrors = true ∨ point = .writeRole) (hrole : s'.coordinator.role = s.coordinator.role)
      (hsequence : s'.coordinator.heartbeatSequence = s.coordinator.heartbeatSequence) (haccepted : s'.accepted = s.accepted)
      (hwritten : Written call.request.snapshot s.coordinator.held call.point →
        Written call.request.snapshot s'.coordinator.held point) : Section call s s' point

theorem proceed_section (call : HeartbeatCall) (s : Standby) : Section call s (call.proceed s).1 (call.proceed s).2 := by
  obtain ⟨source, request, now, point⟩ := call
  cases point with
  | readRole =>
    unfold HeartbeatCall.proceed
    dsimp only
    split
    · exact .quiet rfl rfl rfl
    · refine .quiet rfl ?_ rfl
      split <;> rfl
  | refusedByPrimary | refusedSource | returned response => exact .quiet rfl rfl rfl
  | writeSequence =>
    unfold HeartbeatCall.proceed
    dsimp only
    split
    · exact .quiet rfl rfl rfl
    · rename_i hfresh
      exact .accept ⟨rfl, hfresh⟩
  | writeValidators => exact .write rfl (.inl rfl) rfl rfl rfl fun _ => rfl
  | writeActiveTasks => exact .write rfl (.inl rfl) rfl rfl rfl fun h => ⟨h, rfl⟩
  | writeParentTasks => exact .write rfl (.inl rfl) rfl rfl rfl fun h => ⟨h.1, h.2, rfl⟩
  | writeResults =>
    refine .write rfl (.inr rfl) rfl rfl rfl ?_
    rintro ⟨hvalidators, hactive, hparents⟩
    -- the three parts before are the snapshot's already, and the fourth is written here
    change CoordinatorSnapshot.mk s.coordinator.held.validators s.coordinator.held.activeTasks s.coordinator.held.parentTasks
      request.snapshot.results = request.snapshot
    rw [hvalidators, hactive, hparents]
  | writeRole => exact .quiet rfl rfl (by simp)

/-- What holds in every state of an orderly run. -/
structure Mirrored (c : Config Standby StandbyCall) : Prop where
  increasing : (c.state.accepted.map (·.sequence)).Pairwise (· < ·)
  bounded : ∀ heartbeat ∈ c.state.accepted, heartbeat.sequence ≤ c.state.coordinator.heartbeatSequence
  alone : ∀ id id' call call', c.calls.lookup id = some call → c.calls.lookup id' = some call' → call.Mirrors → call'.Mirrors →
    id = id'
  /-- The snapshot that is being mirrored is the newest one. -/
  newest : ∀ id call, c.calls.lookup id = some (.applyHeartbeat call) → call.point.mirrors = true →
    c.state.accepted.getLast? = some call.request ∧ Written call.request.snapshot c.state.coordinator.held call.point
  unpromoted : c.Some StandbyCall.Mirrors → c.state.coordinator.role.isPrimary = false
  settled : Undisturbed c → ∀ heartbeat, c.state.accepted.getLast? = some heartbeat →
    c.state.coordinator.held = heartbeat.snapshot

variable {c c' : Config Standby StandbyCall} {id : Nat} {call next : StandbyCall}

theorem mirrored_start : Mirrored (standbyStart primary stallThreshold now calls) := by
  have hnone : ∀ id call, (standbyStart primary stallThreshold now calls).calls.lookup id = some call → ¬ call.Mirrors := by
    intro id call hcall
    rw [standbyStart, Table.lookup_mapValues, Option.map_eq_some_iff] at hcall
    obtain ⟨args, -, rfl⟩ := hcall
    cases args <;> simp [StandbyArgs.start, StandbyCall.Mirrors, HeartbeatPoint.mirrors]
  refine ⟨List.Pairwise.nil, by simp [standbyStart], ?_, ?_, ?_, by simp [standbyStart]⟩
  · intro id _ call _ hcall _ hmirrors
    exact absurd hmirrors (hnone id call hcall)
  · intro id call hcall hmirrors
    exact absurd hmirrors (hnone id _ hcall)
  · rintro ⟨id, call, hcall, hmirrors⟩
    exact absurd hmirrors (hnone id call hcall)

theorem moved_of_mirrors (hothers : ∀ id' call', id' ≠ id → c.calls.lookup id' = some call' → ¬ call'.Mirrors)
    (h : (c.calls.insert id next).lookup id' = some call') (hmirrors : call'.Mirrors) : id' = id ∧ call' = next := by
  rcases Table.lookup_insert_eq_some.mp h with hmoved | ⟨hne, h⟩
  · exact hmoved
  · exact absurd hmirrors (hothers id' call' hne h)

theorem undisturbed_of_insert (hcall : c.calls.lookup id = some call) (hbefore : ¬ call.Mirrors)
    (h : Undisturbed ⟨s, c.calls.insert id next⟩) : Undisturbed c := by
  intro id' call' hcall'
  by_cases hid : id' = id
  · subst hid
    obtain rfl := Option.some.inj (hcall.symm.trans hcall')
    exact hbefore
  · exact h id' call' ((AList.lookup_insert_ne hid).trans hcall')

/-- A call that neither begins nor goes on to mirror a snapshot, and changes nothing that is mirrored. -/
theorem Mirrored.quiet (h : Mirrored c) (hcall : c.calls.lookup id = some call) (hbefore : ¬ call.Mirrors) (hnext : ¬ next.Mirrors)
    (hheld : s.coordinator.held = c.state.coordinator.held)
    (hsequence : s.coordinator.heartbeatSequence = c.state.coordinator.heartbeatSequence)
    (haccepted : s.accepted = c.state.accepted)
    (hrole : Undisturbed c ∨ s.coordinator.role.isPrimary = c.state.coordinator.role.isPrimary) :
    Mirrored ⟨s, c.calls.insert id next⟩ := by
  -- a call that mirrors a snapshot is not the one that moved
  have hold : ∀ id' call', (c.calls.insert id next).lookup id' = some call' → call'.Mirrors →
      c.calls.lookup id' = some call' := by
    intro id' call' hcall' hmirrors
    rcases Table.lookup_insert_eq_some.mp hcall' with ⟨-, rfl⟩ | ⟨-, hcall'⟩
    · exact absurd hmirrors hnext
    · exact hcall'
  refine ⟨haccepted ▸ h.increasing, haccepted ▸ hsequence ▸ h.bounded, ?_, ?_, ?_, ?_⟩
  · intro id₁ id₂ call₁ call₂ h₁ h₂ hmirrors₁ hmirrors₂
    exact h.alone id₁ id₂ call₁ call₂ (hold _ _ h₁ hmirrors₁) (hold _ _ h₂ hmirrors₂) hmirrors₁ hmirrors₂
  · intro id' call' hcall' hmirrors
    have hnewest := h.newest id' call' (hold _ _ hcall' hmirrors) hmirrors
    rwa [← haccepted, ← hheld] at hnewest
  · rintro ⟨id', call', hcall', hmirrors⟩
    have hcall' := hold _ _ hcall' hmirrors
    rcases hrole with hundisturbed | hrole
    · exact absurd hmirrors (hundisturbed id' call' hcall')
    · exact hrole.trans (h.unpromoted ⟨id', call', hcall', hmirrors⟩)
  · intro hundisturbed heartbeat hlast
    change s.accepted.getLast? = some heartbeat at hlast
    rw [haccepted] at hlast
    exact hheld.trans (h.settled (undisturbed_of_insert hcall hbefore hundisturbed) heartbeat hlast)

theorem Mirrored.accept (h : Mirrored c) (haccepts : hb.Accepts c.state)
    (horderly : (StandbyCall.applyHeartbeat hb).Orderly c) :
    Mirrored ⟨⟨{ c.state.coordinator with heartbeatSequence := hb.request.sequence }, c.state.accepted ++ [hb.request]⟩,
      c.calls.insert id (.applyHeartbeat { hb with point := .writeValidators })⟩ := by
  obtain ⟨hundisturbed, hrole, hfirst⟩ := horderly haccepts
  have hnew : ∀ heartbeat ∈ c.state.accepted, heartbeat.sequence < hb.request.sequence := by
    intro heartbeat hmem
    have hbound := h.bounded heartbeat hmem
    have hnonzero : hb.request.sequence ≠ 0 := by
      rcases hfirst with hempty | hnonzero
      · rw [List.isEmpty_iff] at hempty
        exact absurd hmem (hempty ▸ not_mem_nil)
      · exact hnonzero
    by_cases hslot : c.state.coordinator.heartbeatSequence = 0
    · rw [hslot] at hbound
      exact UInt64.lt_of_le_of_lt hbound (UInt64.pos_iff_ne_zero.mpr hnonzero)
    · exact UInt64.lt_of_le_of_lt hbound (UInt64.not_le.mp fun hle => haccepts.2 ⟨hle, hslot⟩)
  have hothers : ∀ id' call', id' ≠ id → c.calls.lookup id' = some call' → ¬ call'.Mirrors := fun id' call' _ => hundisturbed id' call'
  refine ⟨?_, ?_, ?_, ?_, fun _ => hrole, ?_⟩
  · simp only [map_append, map_cons, map_nil, pairwise_append, pairwise_singleton]
    refine ⟨h.increasing, trivial, ?_⟩
    simpa using hnew
  · intro heartbeat hmem
    rcases mem_append.mp hmem with hmem | hmem
    · exact UInt64.le_of_lt (hnew heartbeat hmem)
    · obtain rfl := mem_singleton.mp hmem
      exact UInt64.le_refl _
  · intro id₁ id₂ call₁ call₂ h₁ h₂ hmirrors₁ hmirrors₂
    exact (moved_of_mirrors hothers h₁ hmirrors₁).1.trans (moved_of_mirrors hothers h₂ hmirrors₂).1.symm
  · intro id' call' hcall' hmirrors
    obtain ⟨-, hsame⟩ := moved_of_mirrors hothers hcall' hmirrors
    obtain rfl := StandbyCall.applyHeartbeat.inj hsame
    exact ⟨by simp, trivial⟩
  · intro hnone
    exact absurd rfl (hnone id _ (AList.lookup_insert _))

theorem Mirrored.write (h : Mirrored c) (hcall : c.calls.lookup id = some (.applyHeartbeat hb))
    (hbefore : hb.point.mirrors = true) (hafter : point.mirrors = true ∨ point = .writeRole)
    (hrole : s.coordinator.role = c.state.coordinator.role)
    (hsequence : s.coordinator.heartbeatSequence = c.state.coordinator.heartbeatSequence)
    (haccepted : s.accepted = c.state.accepted) (hwritten : Written hb.request.snapshot c.state.coordinator.held hb.point →
      Written hb.request.snapshot s.coordinator.held point) :
    Mirrored ⟨s, c.calls.insert id (.applyHeartbeat { hb with point })⟩ := by
  obtain ⟨hlast, hsofar⟩ := h.newest id hb hcall hbefore
  have hothers : ∀ id' call', id' ≠ id → c.calls.lookup id' = some call' → ¬ call'.Mirrors := by
    intro id' call' hne hcall' hmirrors
    exact hne (h.alone id' id call' _ hcall' hcall hmirrors hbefore)
  refine ⟨haccepted ▸ h.increasing, haccepted ▸ hsequence ▸ h.bounded, ?_, ?_, ?_, ?_⟩
  · intro id₁ id₂ call₁ call₂ h₁ h₂ hmirrors₁ hmirrors₂
    exact (moved_of_mirrors hothers h₁ hmirrors₁).1.trans (moved_of_mirrors hothers h₂ hmirrors₂).1.symm
  · intro id' call' hcall' hmirrors
    obtain ⟨-, hsame⟩ := moved_of_mirrors hothers hcall' hmirrors
    obtain rfl := StandbyCall.applyHeartbeat.inj hsame
    exact ⟨haccepted ▸ hlast, hwritten hsofar⟩
  · intro _
    rw [hrole]
    exact h.unpromoted ⟨id, _, hcall, hbefore⟩
  · intro hundisturbed heartbeat hheartbeat
    change s.accepted.getLast? = some heartbeat at hheartbeat
    rw [haccepted, hlast] at hheartbeat
    obtain rfl := Option.some.inj hheartbeat
    rcases hafter with hmirrors | rfl
    · exact absurd hmirrors (hundisturbed id _ (AList.lookup_insert _))
    · exact hwritten hsofar

theorem Mirrored.step (h : Mirrored c) (hstep : OrderlyStep c id c') : Mirrored c' := by
  obtain ⟨hstep, horderly⟩ := hstep
  obtain ⟨call, -, hcall, -, rfl⟩ := Config.step_cases hstep
  have horderly := horderly call hcall
  cases call with
  | applyHeartbeat hb =>
    change Mirrored ⟨(hb.proceed c.state).1, c.calls.insert id (.applyHeartbeat { hb with point := (hb.proceed c.state).2 })⟩
    have hsection := proceed_section hb c.state
    generalize (hb.proceed c.state).1 = s at hsection
    generalize (hb.proceed c.state).2 = point at hsection
    cases hsection with
    | quiet hbefore hafter hrole =>
      exact h.quiet hcall (by simp [StandbyCall.Mirrors, hbefore]) (by simp [StandbyCall.Mirrors, hafter]) rfl rfl rfl (.inr hrole)
    | accept haccepts => exact h.accept haccepts horderly
    | write hbefore hafter hrole hsequence haccepted hwritten =>
      exact h.write hcall hbefore hafter hrole hsequence haccepted hwritten
  | tryPromoteIfStalled now returned =>
    simp only [standbyProtocol, Coordinator.tryPromoteIfStalled]
    split
    · rename_i hstalled
      exact h.quiet hcall not_false not_false rfl rfl rfl (.inl (horderly hstalled))
    · exact h.quiet hcall not_false not_false rfl rfl rfl (.inr rfl)

/-- A promoted standby keeps its role and what it holds. -/
theorem Mirrored.frozen (h : Mirrored c) (hprimary : c.state.coordinator.role.isPrimary = true) (hstep : OrderlyStep c id c') :
    c'.state.coordinator.role.isPrimary = true ∧ c'.state.coordinator.held = c.state.coordinator.held := by
  obtain ⟨hstep, horderly⟩ := hstep
  obtain ⟨call, -, hcall, -, rfl⟩ := Config.step_cases hstep
  cases call with
  | applyHeartbeat hb =>
    change (hb.proceed c.state).1.coordinator.role.isPrimary = true ∧ (hb.proceed c.state).1.coordinator.held = _
    have hsection := proceed_section hb c.state
    generalize (hb.proceed c.state).1 = s at hsection
    generalize (hb.proceed c.state).2 = point at hsection
    cases hsection with
    | quiet hbefore hafter hrole => exact ⟨hrole.trans hprimary, rfl⟩
    | accept haccepts =>
      obtain ⟨-, hstandby, -⟩ := horderly _ hcall haccepts
      exact absurd (hprimary.symm.trans hstandby) (by simp)
    | write hbefore =>
      have hstandby := h.unpromoted ⟨id, _, hcall, hbefore⟩
      exact absurd (hprimary.symm.trans hstandby) (by simp)
  | tryPromoteIfStalled now returned =>
    simp only [standbyProtocol, Coordinator.tryPromoteIfStalled]
    split
    · exact ⟨CoordinatorRole.isPrimary_promote _, rfl⟩
    · exact ⟨hprimary, rfl⟩

theorem undisturbed_of_idle (h : Idle c) : Undisturbed c := by
  refine Config.All.mono h ?_
  rintro (⟨source, request, now, point⟩ | ⟨now, returned⟩) hrest hmirrors
  · cases point <;> cases hrest <;> cases hmirrors
  · exact hmirrors

theorem getLast?_of_highest {heartbeats : List HeartbeatRequest} (hincreasing : (heartbeats.map (·.sequence)).Pairwise (· < ·))
    (hmem : heartbeat ∈ heartbeats) (hhighest : ∀ other ∈ heartbeats, other.sequence ≤ heartbeat.sequence) :
    heartbeats.getLast? = some heartbeat := by
  rcases eq_nil_or_concat heartbeats with rfl | ⟨front, last, rfl⟩
  · cases hmem
  · rw [concat_eq_append] at *
    rw [getLast?_concat, Option.some.injEq]
    rcases mem_append.mp hmem with hfront | hlast
    · simp only [map_append, map_cons, map_nil, pairwise_append] at hincreasing
      have hlt := hincreasing.2.2 _ (mem_map_of_mem hfront) _ (mem_singleton_self _)
      exact absurd (hhighest last (by simp)) (UInt64.not_le.mpr hlt)
    · exact (mem_singleton.mp hlast).symm

end MirroringAux

open MirroringAux in
/-- In every orderly interleaving of heartbeats and promotions on a standby: the accepted sequences strictly increase; whenever no
call is in progress the standby holds the snapshot of the accepted heartbeat with the highest sequence; and once it is promoted,
what it holds does not change any more. -/
theorem standby_mirrors_newest {primary : NodeId} {stallThreshold now : Nat} {calls : Table Nat StandbyArgs} {grants : List Nat}
    {c : Config Standby StandbyCall} (hrun : Run OrderlyStep (standbyStart primary stallThreshold now calls) grants c) :
    (c.state.accepted.map (·.sequence)).Pairwise (· < ·) ∧
      (Idle c → ∀ heartbeat ∈ c.state.accepted, (∀ other ∈ c.state.accepted, other.sequence ≤ heartbeat.sequence) →
        c.state.coordinator.held = heartbeat.snapshot) ∧
      (c.state.coordinator.role.isPrimary = true → ∀ later c', Run OrderlyStep c later c' →
        c'.state.coordinator.held = c.state.coordinator.held) := by
  have hmirrored : Mirrored c :=
    hrun.invariant (mirrored_start) fun _ _ _ h hstep => h.step hstep
  refine ⟨hmirrored.increasing, ?_, ?_⟩
  · intro hidle heartbeat hmem hhighest
    exact hmirrored.settled (undisturbed_of_idle hidle) heartbeat (getLast?_of_highest hmirrored.increasing hmem hhighest)
  · intro hprimary later c' hlater
    have hfrozen : Mirrored c' ∧ c'.state.coordinator.role.isPrimary = true ∧
        c'.state.coordinator.held = c.state.coordinator.held := by
      refine hlater.invariant (P := fun c' => Mirrored c' ∧ c'.state.coordinator.role.isPrimary = true ∧
        c'.state.coordinator.held = c.state.coordinator.held) ⟨hmirrored, hprimary, rfl⟩ ?_
      rintro t id u ⟨hmirrored, hprimary, hheld⟩ hstep
      obtain ⟨hprimary', hheld'⟩ := hmirrored.frozen hprimary hstep
      exact ⟨hmirrored.step hstep, hprimary', hheld'.trans hheld⟩
    exact hfrozen.2.2

namespace MirroringSample

def snapshot (validator : UInt8) : CoordinatorSnapshot := ⟨[[validator]], ∅, ∅, ∅⟩

/-- A heartbeat of the primary `[1]`. -/
def heartbeat (sequence : UInt64) (validator : UInt8) : StandbyArgs :=
  .applyHeartbeat [1] ⟨[1], sequence, snapshot validator⟩ 5

def calls : Table Nat StandbyArgs :=
  ((AList.insert 0 (heartbeat 1 10) ∅).insert 1 (heartbeat 2 20)).insert 2 (.tryPromoteIfStalled 100)

def twice : Table Nat StandbyArgs := (AList.insert 0 (heartbeat 0 10) ∅).insert 1 (heartbeat 0 10)

/-- A standby that stalls after thirty ticks. -/
def start : Config Standby StandbyCall := standbyStart [1] 30 0 calls

/-- A grant that is only made to a call that is in order. -/
def orderlyAdvance : Config Standby StandbyCall → Nat → Option (Config Standby StandbyCall) :=
  Run.guarded (fun c id => ∀ call, c.calls.lookup id = some call → call.Orderly c) (Config.advance standbyProtocol)

end MirroringSample

open MirroringSample in
/-- Both heartbeats pass the role check, the second is mirrored after the first, and then the standby is promoted. -/
theorem standby_mirrors_newest_in_turn : ∃ c, Run OrderlyStep start [0, 1, 0, 0, 0, 0, 0, 1, 1, 1, 1, 1, 0, 1, 2] c ∧
      (c.state.accepted.map (·.sequence)).Pairwise (· < ·) ∧ c.state.accepted.map (·.sequence) = [1, 2] ∧
      c.state.coordinator.role.isPrimary = true ∧
      ∀ later c', Run OrderlyStep c later c' → c'.state.coordinator.held = c.state.coordinator.held := by
  have hrun : (([0, 1, 0, 0, 0, 0, 0, 1, 1, 1, 1, 1, 0, 1, 2].foldlM orderlyAdvance start).any fun c =>
      decide (c.state.accepted.map (·.sequence) = [1, 2] ∧ c.state.coordinator.role.isPrimary = true)) = true := by
    decide +kernel
  obtain ⟨c, horderly, hsequences, hprimary⟩ : ∃ c, Run OrderlyStep start _ c ∧ c.state.accepted.map (·.sequence) = [1, 2] ∧
      c.state.coordinator.role.isPrimary = true := Run.exists_of_foldlM Run.of_guarded hrun
  obtain ⟨hincreasing, -, hfrozen⟩ := standby_mirrors_newest horderly
  exact ⟨c, horderly, hincreasing, hsequences, hprimary, hfrozen hprimary⟩

open MirroringSample in
/-- A heartbeat with sequence 1 that writes last leaves the standby with its snapshot although sequence 2 is the highest; a
heartbeat that passed the role check before a promotion writes over the state of the new primary; and a heartbeat with sequence
0 is accepted again. -/
theorem standby_mirrors_stale :
    (∃ c, Run (Config.Step standbyProtocol) start [0, 1, 0, 1, 1, 1, 1, 1, 1, 0, 0, 0, 0, 0] c ∧ Idle c ∧
      c.state.accepted.map (·.sequence) = [1, 2] ∧ c.state.coordinator.validators = [[10]]) ∧
    (∃ c c', Run (Config.Step standbyProtocol) start [0, 2] c ∧ Run (Config.Step standbyProtocol) c [0, 0] c' ∧
      c.state.coordinator.role.isPrimary = true ∧ c.state.coordinator.validators = [] ∧
      c'.state.coordinator.validators = [[10]]) ∧
    ∃ c, Run (Config.Step standbyProtocol) (standbyStart [1] 30 0 twice) [0, 1, 0, 1] c ∧
      c.state.accepted.map (·.sequence) = [0, 0] := by
  have hstale : (([0, 1, 0, 1, 1, 1, 1, 1, 1, 0, 0, 0, 0, 0].foldlM (Config.advance standbyProtocol) start).any fun c =>
      decide (Idle c ∧ c.state.accepted.map (·.sequence) = [1, 2] ∧ c.state.coordinator.validators = [[10]])) = true := by
    decide +kernel
  have hlate : (([0, 2].foldlM (Config.advance standbyProtocol) start).any fun c =>
      ([0, 0].foldlM (Config.advance standbyProtocol) c).any fun c' =>
        decide (c.state.coordinator.role.isPrimary = true ∧ c.state.coordinator.validators = [] ∧
          c'.state.coordinator.validators = [[10]])) = true := by
    decide +kernel
  have htwice : (([0, 1, 0, 1].foldlM (Config.advance standbyProtocol) (standbyStart [1] 30 0 twice)).any fun c =>
      decide (c.state.accepted.map (·.sequence) = [0, 0])) = true := by
    decide +kernel
  refine ⟨Run.exists_of_foldlM (fun _ _ _ h => h) hstale, ?_, Run.exists_of_foldlM (fun _ _ _ h => h) htwice⟩
  obtain ⟨c, hc, hrest⟩ := (Option.any_eq_true _ _).mp hlate
  obtain ⟨c', hc', hfacts⟩ := Run.exists_of_foldlM (fun _ _ _ h => h) hrest
  exact ⟨c, c', Run.of_foldlM (fun _ _ _ h => h) hc, hc', hfacts⟩

end Paraloom.OffChain
