import Paraloom.Lib.Run
import Paraloom.Lib.Table

/-!
# Calls that interleave between their locks

Calls on one state that take mutexes one after another. A call stands at the lock it asks for next, with the guards it holds. A
step is the grant to one call, which runs to its next lock or to its end; the others stay where they are.
-/

namespace Interleaving

/-- What a kind of calls does at its locks. -/
structure Protocol (S C L : Type) where
  /-- The lock a call asks for next, unless it has ended. -/
  asks : C → Option L
  /-- The guards it holds meanwhile. -/
  holds : C → List L
  /-- What it does once it has the lock: to the state, and where it stands then. -/
  proceed : C → S → S × C

/-- The state, and the calls under their numbers. -/
structure Config (S C : Type) where
  state : S
  calls : Table Nat C

variable {S C L : Type} [DecidableEq L]

namespace Config

def free (c : Config S C) (p : Protocol S C L) (lock : L) : Bool := c.calls.entries.all fun e => !(p.holds e.2).contains lock

def advance (p : Protocol S C L) (c : Config S C) (id : Nat) : Option (Config S C) :=
  (c.calls.lookup id).bind fun call => (p.asks call).bind fun lock =>
    if c.free p lock then some ⟨(p.proceed call c.state).1, c.calls.insert id (p.proceed call c.state).2⟩ else none

/-- A grant as a step. -/
def Step (p : Protocol S C L) (c : Config S C) (id : Nat) (c' : Config S C) : Prop := c.advance p id = some c'

/-- Some call satisfies the predicate. -/
def Some (c : Config S C) (Q : C → Prop) : Prop := ∃ id call, c.calls.lookup id = some call ∧ Q call

/-- Every call satisfies the predicate. -/
def All (c : Config S C) (Q : C → Prop) : Prop := ∀ id call, c.calls.lookup id = some call → Q call

instance (c : Config S C) (Q : C → Prop) [DecidablePred Q] : Decidable (c.All Q) :=
  decidable_of_iff (∀ e ∈ c.calls.entries, Q e.2)
    ⟨fun h id call hcall => h ⟨id, call⟩ (AList.mem_lookup_iff.mp hcall), fun h e he => h e.1 e.2 (AList.mem_lookup_iff.mpr he)⟩

variable {p : Protocol S C L} {c c' : Config S C} {id : Nat} {call next : C} {Q : C → Prop} {s : S}

/-- What a grant does: one call that has not ended proceeds, and the others stay. -/
theorem step_cases (h : c.Step p id c') : ∃ call lock, c.calls.lookup id = some call ∧ p.asks call = some lock ∧
      c' = ⟨(p.proceed call c.state).1, c.calls.insert id (p.proceed call c.state).2⟩ := by
  obtain ⟨call, hcall, h⟩ := Option.bind_eq_some_iff.mp h
  obtain ⟨lock, hlock, h⟩ := Option.bind_eq_some_iff.mp h
  split at h
  · exact ⟨call, lock, hcall, hlock, (Option.some.inj h).symm⟩
  · cases h

/-- A predicate of every call, after one has moved. -/
theorem All.insert (h : c.All Q) (hnext : Q next) : All (⟨s, c.calls.insert id next⟩ : Config S C) Q := by
  intro id' call' hcall'
  rcases Table.lookup_insert_eq_some.mp hcall' with ⟨-, rfl⟩ | ⟨-, hcall'⟩
  · exact hnext
  · exact h id' call' hcall'

theorem All.mono (h : c.All Q) (himp : ∀ call, Q call → R call) : c.All R :=
  fun id call hcall => himp call (h id call hcall)

/-- A call that satisfies a predicate is still there after another has moved, or it was the one that moved. -/
theorem Some.insert (h : c.Some Q) (hcall : c.calls.lookup id = some call) :
    Q call ∨ Some (⟨s, c.calls.insert id next⟩ : Config S C) Q := by
  obtain ⟨id', call', hcall', hQ⟩ := h
  by_cases hid : id' = id
  · subst hid
    obtain rfl := Option.some.inj (hcall.symm.trans hcall')
    exact .inl hQ
  · exact .inr ⟨id', call', (AList.lookup_insert_ne hid).trans hcall', hQ⟩

/-- The call that moved satisfies the predicate. -/
theorem some_insert (hnext : Q next) : Some (⟨s, c.calls.insert id next⟩ : Config S C) Q :=
  ⟨id, next, AList.lookup_insert _, hnext⟩

end Config

end Interleaving
