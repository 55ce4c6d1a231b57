import Mathlib.Data.Fintype.EquivFin
import Mathlib.Data.Fintype.Lattice
import Paraloom.Lib.Run

/-!
# Locks in lexical scopes

Tasks that take shared and exclusive guards in lexical scopes. A task that asks for a guard joins the queue of the lock, and
enters when its access excludes neither a guard that is held nor an access that has been waiting longer. What holds of the
places where a program asks for a guard holds wherever a run of it waits.
-/

namespace LockOrder

inductive Access where
  | read
  | write
  deriving DecidableEq

/-- Two accesses exclude each other unless both read. -/
def Access.Excludes (a b : Access) : Prop := a = .write ∨ b = .write

instance (a b : Access) : Decidable (a.Excludes b) := inferInstanceAs (Decidable (_ ∨ _))

theorem Access.not_excludes_read : ¬ Access.read.Excludes .read := by decide

/-- What a task does with locks: it runs a body under a guard, and goes on. -/
inductive Program (L : Type) where
  | done
  | guard (access : Access) (lock : L) (body rest : Program L)

inductive Op (L : Type) where
  | acquire (access : Access) (lock : L)
  | release (lock : L)

namespace Program

variable {L : Type}

def andThen : Program L → Program L → Program L
  | done, next => next
  | guard access lock body rest, next => guard access lock body (rest.andThen next)

instance : Append (Program L) := ⟨andThen⟩

def reading (lock : L) (body : Program L) : Program L := guard .read lock body done

def writing (lock : L) (body : Program L) : Program L := guard .write lock body done

/-- The acquisitions and releases in order. -/
def ops : Program L → List (Op L)
  | done => []
  | guard access lock body rest => .acquire access lock :: (body.ops ++ .release lock :: rest.ops)

def Asks (P : List (L × Access) → Access → L → Prop) : (held : List (L × Access)) → Program L → Prop
  | _, done => True
  | held, guard access lock body rest => P held access lock ∧ body.Asks P ((lock, access) :: held) ∧ rest.Asks P held

variable {P : List (L × Access) → Access → L → Prop} {p q : Program L}

@[simp] theorem asks_done : (done : Program L).Asks P held := trivial

@[simp] theorem asks_append : (p ++ q).Asks P held ↔ p.Asks P held ∧ q.Asks P held := by
  change (p.andThen q).Asks P held ↔ _
  induction p with
  | done => simp [andThen]
  | guard access lock body rest _ ih => simp [andThen, Asks, ih, and_assoc]

@[simp] theorem asks_reading : (reading lock p).Asks P held ↔ P held .read lock ∧ p.Asks P ((lock, .read) :: held) := by
  simp [reading, Asks]

@[simp] theorem asks_writing : (writing lock p).Asks P held ↔ P held .write lock ∧ p.Asks P ((lock, .write) :: held) := by
  simp [writing, Asks]

end Program

/-! ## Configurations -/

/-- A task: the guards it holds, the last taken first, and what it has still to do. -/
structure Task (L : Type) where
  held : List (L × Access)
  ops : List (Op L)

/-- The tasks, and the queue of each lock, the longest waiting first. -/
structure Config (ι L : Type) where
  tasks : ι → Task L
  queue : L → List (ι × Access)

variable {ι L : Type}

namespace Config

/-- Every task at its beginning. -/
def start (programs : ι → Program L) : Config ι L := ⟨fun i => ⟨[], (programs i).ops⟩, fun _ => []⟩

/-- The task has not come to its end. -/
def Unfinished (c : Config ι L) (i : ι) : Prop := (c.tasks i).ops ≠ []

variable [DecidableEq ι] [DecidableEq L]

instance (c : Config ι L) (i : ι) : Decidable (c.Unfinished i) := inferInstanceAs (Decidable (_ ≠ _))

inductive Step (c : Config ι L) (i : ι) : Config ι L → Prop where
  /-- It asks for a guard. -/
  | ask {access : Access} {lock : L} {rest : List (Op L)} (hops : (c.tasks i).ops = .acquire access lock :: rest)
      (hnew : ∀ waiting ∈ c.queue lock, waiting.1 ≠ i) :
      Step c i { c with queue := Function.update c.queue lock (c.queue lock ++ [(i, access)]) }
  /-- It gets the guard. -/
  | enter {access : Access} {lock : L} {rest : List (Op L)} {before after : List (ι × Access)}
      (hops : (c.tasks i).ops = .acquire access lock :: rest) (hqueue : c.queue lock = before ++ (i, access) :: after)
      (hahead : ∀ waiting ∈ before, ¬ waiting.2.Excludes access)
      (hfree : ∀ j, ∀ guard ∈ (c.tasks j).held, guard.1 = lock → ¬ guard.2.Excludes access) :
      Step c i ⟨Function.update c.tasks i ⟨(lock, access) :: (c.tasks i).held, rest⟩,
        Function.update c.queue lock (before ++ after)⟩
  /-- It drops the guard it took last. -/
  | leave {access : Access} {lock : L} {rest : List (Op L)} {held : List (L × Access)}
      (hops : (c.tasks i).ops = .release lock :: rest) (hheld : (c.tasks i).held = (lock, access) :: held) :
      Step c i { c with tasks := Function.update c.tasks i ⟨held, rest⟩ }

/-- A task that waits for a lock whose guard keeps it out cannot step. -/
theorem not_step {c c' : Config ι L} (hops : (c.tasks i).ops = .acquire access lock :: rest)
    (hwaiting : (i, access) ∈ c.queue lock) (hguard : (lock, access') ∈ (c.tasks j).held)
    (hexcludes : access'.Excludes access) :
    ¬ c.Step i c' := by
  intro hstep
  cases hstep with
  | ask hops' hnew =>
    rw [hops] at hops'
    cases hops'
    exact hnew _ hwaiting rfl
  | enter hops' _ _ hfree =>
    rw [hops] at hops'
    cases hops'
    exact hfree j _ hguard rfl hexcludes
  | leave hops' _ =>
    rw [hops] at hops'
    cases hops'

end Config

/-! ## Scopes -/

/-- The operations drop the guards that are held, the last taken first, and ask for a guard only where `P` allows it. -/
def Scoped (P : List (L × Access) → Access → L → Prop) : List (L × Access) → List (Op L) → Prop
  | held, [] => held = []
  | held, .acquire access lock :: ops => P held access lock ∧ Scoped P ((lock, access) :: held) ops
  | held, .release lock :: ops => ∃ access rest, held = (lock, access) :: rest ∧ Scoped P rest ops

theorem Program.Asks.scopes {p : Program L} {ops : List (Op L)} (h : p.Asks P held) (hops : Scoped P held ops) :
    Scoped P held (p.ops ++ ops) := by
  induction p generalizing held ops with
  | done => exact hops
  | guard access lock body rest ihBody ihRest =>
    obtain ⟨hasks, hbody, hrest⟩ := h
    rw [Program.ops, List.cons_append, List.append_assoc, List.cons_append]
    exact ⟨hasks, ihBody hbody ⟨access, held, rfl, ihRest hrest hops⟩⟩

/-- What holds of every configuration: the tasks keep to their scopes, and each queue holds, once, the tasks that ask for its
lock. -/
structure Placed (P : ι → List (L × Access) → Access → L → Prop) (c : Config ι L) : Prop where
  scopes : ∀ i, Scoped (P i) (c.tasks i).held (c.tasks i).ops
  waits : ∀ lock, ∀ waiting ∈ c.queue lock, ∃ rest, (c.tasks waiting.1).ops = .acquire waiting.2 lock :: rest
  once : ∀ lock, ((c.queue lock).map Prod.fst).Nodup

variable {P : ι → List (L × Access) → Access → L → Prop}

theorem placed_start (h : ∀ i, (programs i).Asks (P i) []) : Placed P (.start programs) := by
  refine ⟨?_, fun _ _ hwaiting => absurd hwaiting List.not_mem_nil, fun _ => List.nodup_nil⟩
  intro i
  have hend : Scoped (P i) [] [] := by rw [Scoped]
  have hops := (h i).scopes hend
  rwa [List.append_nil] at hops

namespace Placed

variable {c : Config ι L} (h : Placed P c)
include h

theorem not_waiting (hops : ∀ access rest, (c.tasks i).ops ≠ .acquire access lock :: rest) :
    ∀ waiting ∈ c.queue lock, waiting.1 ≠ i := by
  rintro waiting hwaiting rfl
  obtain ⟨rest, hrest⟩ := h.waits lock waiting hwaiting
  exact hops _ _ hrest

/-- A task that is about to ask for a guard is at a place where its program asks. -/
theorem allowed (hops : (c.tasks i).ops = .acquire access lock :: rest) : P i (c.tasks i).held access lock := by
  have hscoped := h.scopes i
  rw [hops] at hscoped
  exact hscoped.1

theorem unfinished {guard : L × Access} (hguard : guard ∈ (c.tasks i).held) : c.Unfinished i := by
  intro hend
  have hscoped := h.scopes i
  rw [hend, Scoped] at hscoped
  rw [hscoped] at hguard
  cases hguard

variable [DecidableEq ι] [DecidableEq L]

omit [DecidableEq ι] in
theorem ask (hops : (c.tasks i).ops = .acquire access lock :: rest) (hnew : ∀ waiting ∈ c.queue lock, waiting.1 ≠ i) :
    Placed P { c with queue := Function.update c.queue lock (c.queue lock ++ [(i, access)]) } := by
  refine ⟨h.scopes, ?_, ?_⟩
  · intro lock' waiting hwaiting
    dsimp only at hwaiting
    rw [Function.update_apply] at hwaiting
    split at hwaiting
    · rename_i heq
      subst heq
      rcases List.mem_append.mp hwaiting with hold | hown
      · exact h.waits lock' waiting hold
      · obtain rfl := List.mem_singleton.mp hown
        exact ⟨rest, hops⟩
    · exact h.waits lock' waiting hwaiting
  · intro lock'
    dsimp only
    rw [Function.update_apply]
    split
    · rw [List.map_append, List.nodup_append]
      refine ⟨h.once lock, List.nodup_singleton _, ?_⟩
      intro j hj k hk
      obtain ⟨waiting, hwaiting, rfl⟩ := List.mem_map.mp hj
      obtain rfl := List.mem_singleton.mp hk
      exact hnew waiting hwaiting
    · exact h.once lock'

theorem enter (hops : (c.tasks i).ops = .acquire access lock :: rest)
    (hqueue : c.queue lock = before ++ (i, access) :: after) :
    Placed P ⟨Function.update c.tasks i ⟨(lock, access) :: (c.tasks i).held, rest⟩,
      Function.update c.queue lock (before ++ after)⟩ := by
  have honce := h.once lock
  rw [hqueue, List.map_append, List.map_cons, List.perm_middle.nodup_iff, List.nodup_cons, ← List.map_append] at honce
  -- the task has left the only queue it was in
  have hgone : ∀ lock', ∀ waiting ∈ Function.update c.queue lock (before ++ after) lock',
      waiting ∈ c.queue lock' ∧ waiting.1 ≠ i := by
    intro lock' waiting hwaiting
    rw [Function.update_apply] at hwaiting
    split at hwaiting
    · rename_i heq
      subst heq
      refine ⟨?_, ?_⟩
      · rw [hqueue]
        rcases List.mem_append.mp hwaiting with hbefore | hafter
        · exact List.mem_append_left _ hbefore
        · exact List.mem_append_right _ (List.mem_cons_of_mem _ hafter)
      · rintro rfl
        exact honce.1 (List.mem_map.mpr ⟨waiting, hwaiting, rfl⟩)
    · rename_i hne
      refine ⟨hwaiting, h.not_waiting ?_ waiting hwaiting⟩
      intro access' rest' hops'
      rw [hops] at hops'
      cases hops'
      exact hne rfl
  refine ⟨?_, ?_, ?_⟩
  · intro j
    dsimp only
    rw [Function.update_apply]
    split
    · rename_i heq
      subst heq
      have hscoped := h.scopes j
      rw [hops] at hscoped
      exact hscoped.2
    · exact h.scopes j
  · intro lock' waiting hwaiting
    obtain ⟨hmem, hne⟩ := hgone lock' waiting hwaiting
    dsimp only
    rw [Function.update_of_ne hne]
    exact h.waits lock' waiting hmem
  · intro lock'
    dsimp only
    rw [Function.update_apply]
    split
    · exact honce.2
    · exact h.once lock'

omit [DecidableEq L] in
theorem leave (hops : (c.tasks i).ops = .release lock :: rest)
    (hheld : (c.tasks i).held = (lock, access) :: held) :
    Placed P { c with tasks := Function.update c.tasks i ⟨held, rest⟩ } := by
  refine ⟨?_, ?_, h.once⟩
  · intro j
    dsimp only
    rw [Function.update_apply]
    split
    · rename_i heq
      subst heq
      have hscoped := h.scopes j
      rw [hops, hheld] at hscoped
      obtain ⟨_, _, heq, hrest⟩ := hscoped
      obtain ⟨-, rfl⟩ := List.cons.inj heq
      exact hrest
    · exact h.scopes j
  · intro lock' waiting hwaiting
    have hne : waiting.1 ≠ i := by
      refine h.not_waiting ?_ waiting hwaiting
      intro access' rest' hops'
      rw [hops] at hops'
      cases hops'
    dsimp only
    rw [Function.update_of_ne hne]
    exact h.waits lock' waiting hwaiting

/-- Every step keeps the order and the queues. -/
theorem step (hstep : c.Step i c') : Placed P c' := by
  cases hstep with
  | ask hops hnew => exact h.ask hops hnew
  | enter hops hqueue _ _ => exact h.enter hops hqueue
  | leave hops hheld => exact h.leave hops hheld

theorem stuck (hunfinished : c.Unfinished i) (hstuck : ∀ c', ¬ c.Step i c') :
    ∃ access lock rest, (c.tasks i).ops = .acquire access lock :: rest ∧ (i, access) ∈ c.queue lock := by
  have hscoped := h.scopes i
  cases hops : (c.tasks i).ops with
  | nil => exact absurd hops hunfinished
  | cons op rest =>
    rw [hops] at hscoped
    cases op with
    | release lock =>
      obtain ⟨_, _, hheld, -⟩ := hscoped
      exact absurd (Config.Step.leave hops hheld) (hstuck _)
    | acquire access lock =>
      refine ⟨access, lock, rest, rfl, ?_⟩
      by_contra hnot
      refine hstuck _ (Config.Step.ask hops ?_)
      rintro ⟨j, access'⟩ hwaiting rfl
      obtain ⟨rest', hrest'⟩ := h.waits lock _ hwaiting
      rw [hops] at hrest'
      cases hrest'
      exact hnot hwaiting

/-- When no task can step, a lock that a task waits for is held, by a guard that excludes the access of the one that has waited
longest. -/
theorem exists_holder (hstuck : ∀ i c', ¬ c.Step i c') (hwaiting : waiting ∈ c.queue lock) :
    ∃ first ∈ c.queue lock, ∃ j, ∃ guard ∈ (c.tasks j).held, guard.1 = lock ∧ guard.2.Excludes first.2 := by
  cases hqueue : c.queue lock with
  | nil =>
    rw [hqueue] at hwaiting
    cases hwaiting
  | cons first others =>
    refine ⟨first, List.mem_cons_self, ?_⟩
    by_contra hfree
    obtain ⟨rest, hops⟩ := h.waits lock first (hqueue ▸ List.mem_cons_self)
    have hhead : c.queue lock = [] ++ (first.1, first.2) :: others := hqueue
    refine hstuck first.1 _ (Config.Step.enter hops hhead ?_ ?_)
    · intro ahead hahead
      cases hahead
    · intro j guard hguard hlock hexcludes
      exact hfree ⟨j, guard, hguard, hlock, hexcludes⟩

/-- A task that waits and cannot enter is kept out by a guard or by an access that has waited longer. -/
theorem exists_excluding (hwaiting : (i, access) ∈ c.queue lock)
    (hstuck : ∀ c', ¬ c.Step i c') : (∃ j, ∃ guard ∈ (c.tasks j).held, guard.1 = lock ∧ guard.2.Excludes access) ∨
      ∃ ahead ∈ c.queue lock, ahead.1 ≠ i ∧ ahead.2.Excludes access := by
  by_contra hnone
  obtain ⟨rest, hops⟩ := h.waits lock _ hwaiting
  obtain ⟨before, after, hqueue⟩ := List.append_of_mem hwaiting
  have honce := h.once lock
  rw [hqueue, List.map_append, List.map_cons, List.perm_middle.nodup_iff, List.nodup_cons] at honce
  refine hstuck _ (Config.Step.enter hops hqueue ?_ ?_)
  · intro ahead hahead hexcludes
    have hmem : ahead ∈ c.queue lock := hqueue ▸ List.mem_append_left _ hahead
    refine hnone (.inr ⟨ahead, hmem, ?_, hexcludes⟩)
    rintro rfl
    exact honce.1 (List.mem_append_left _ (List.mem_map.mpr ⟨ahead, hahead, rfl⟩))
  · intro j guard hguard hlock hexcludes
    exact hnone (.inl ⟨j, guard, hguard, hlock, hexcludes⟩)

end Placed

/-!
## Ordered locks

When every task takes its locks in an increasing order, some task can always step: the highest lock that anyone waits for is held
by no one, because its holder would be waiting for a higher one.
-/

namespace Program

variable {L : Type}

def Ordered (rank : L → Nat) : (floor : Nat) → Program L → Prop
  | _, done => True
  | floor, guard _ lock body rest => floor ≤ rank lock ∧ body.Ordered rank (rank lock + 1) ∧ rest.Ordered rank floor

variable {p q : Program L}

@[simp] theorem ordered_done : (done : Program L).Ordered rank floor := trivial

@[simp] theorem ordered_append : (p ++ q).Ordered rank floor ↔ p.Ordered rank floor ∧ q.Ordered rank floor := by
  change (p.andThen q).Ordered rank floor ↔ _
  induction p with
  | done => simp [andThen]
  | guard access lock body rest _ ih => simp [andThen, Ordered, ih, and_assoc]

@[simp] theorem ordered_reading : (reading lock p).Ordered rank floor ↔ floor ≤ rank lock ∧ p.Ordered rank (rank lock + 1) := by
  simp [reading, Ordered]

@[simp] theorem ordered_writing : (writing lock p).Ordered rank floor ↔ floor ≤ rank lock ∧ p.Ordered rank (rank lock + 1) := by
  simp [writing, Ordered]

def Above (rank : L → Nat) (held : List (L × Access)) (_ : Access) (lock : L) : Prop := ∀ guard ∈ held, rank guard.1 < rank lock

theorem Ordered.asks (h : p.Ordered rank floor) (hheld : ∀ guard ∈ held, rank guard.1 < floor) : p.Asks (Above rank) held := by
  induction p generalizing floor held with
  | done => exact trivial
  | guard access lock body rest ihBody ihRest =>
    obtain ⟨hfloor, hbody, hrest⟩ := h
    refine ⟨fun guard hguard => (hheld guard hguard).trans_le hfloor, ihBody hbody ?_, ihRest hrest hheld⟩
    intro guard hguard
    rcases List.mem_cons.mp hguard with rfl | hguard
    · exact Nat.lt_succ_self _
    · exact ((hheld guard hguard).trans_le hfloor).trans (Nat.lt_succ_self _)

end Program

variable {ι L : Type} {c : Config ι L}

def wantedRank (rank : L → Nat) (c : Config ι L) (i : ι) : Nat :=
  match (c.tasks i).ops with
  | .acquire _ lock :: _ => rank lock
  | _ => 0

variable [DecidableEq ι] [DecidableEq L]

theorem lt_wantedRank (h : Placed (fun _ => Program.Above rank) c) {guard : L × Access} (hguard : guard ∈ (c.tasks i).held)
    (hstuck : ∀ c', ¬ c.Step i c') : c.Unfinished i ∧ rank guard.1 < wantedRank rank c i := by
  have hunfinished := h.unfinished hguard
  obtain ⟨access, lock, rest, hops, -⟩ := h.stuck hunfinished hstuck
  refine ⟨hunfinished, ?_⟩
  rw [wantedRank, hops]
  exact h.allowed hops guard hguard

theorem progress [Finite ι] (h : Placed (fun _ => Program.Above rank) c) (hunfinished : ∃ i, c.Unfinished i) :
    ∃ i c', c.Step i c' := by
  by_contra hnone
  have hstuck : ∀ i c', ¬ c.Step i c' := fun i c' hstep => hnone ⟨i, c', hstep⟩
  -- of the unfinished tasks, one that waits for a lock of the highest rank
  have : Nonempty {i // c.Unfinished i} := nonempty_subtype.mpr hunfinished
  obtain ⟨⟨i, hi⟩, hmax⟩ := Finite.exists_max fun j : {j // c.Unfinished j} => wantedRank rank c j.1
  obtain ⟨access, lock, rest, hops, hqueued⟩ := h.stuck hi (hstuck i)
  have hwanted : wantedRank rank c i = rank lock := by rw [wantedRank, hops]
  -- the holder of that lock waits for a higher one
  obtain ⟨_, _, j, guard, hguard, rfl, -⟩ := h.exists_holder hstuck hqueued
  obtain ⟨hj, hlt⟩ := lt_wantedRank h hguard (hstuck j)
  have hle := hmax ⟨j, hj⟩
  rw [hwanted] at hle
  exact absurd hlt (Nat.not_lt.mpr hle)

/-- Programs that take their locks in an increasing order do not deadlock. -/
theorem progress_of_ordered [Finite ι] (h : ∀ i, (programs i).Ordered rank 0) (hrun : Run Config.Step (.start programs) order c)
    (hunfinished : ∃ i, c.Unfinished i) : ∃ i c', c.Step i c' := by
  have hstart : Placed (fun _ => Program.Above rank) (Config.start programs) :=
    placed_start fun i => (h i).asks fun _ hguard => absurd hguard List.not_mem_nil
  exact progress (hrun.invariant hstart fun _ _ _ hplaced hstep => hplaced.step hstep) hunfinished

end LockOrder
