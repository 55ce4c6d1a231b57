import Mathlib.Data.Nat.Cast.Order.Ring
import Mathlib.Tactic.Ring

/-!
# Checked computations

A computation that stops at its first failed check, as a value of `Except`: a sequence of steps succeeds when each step does,
which is how a transition is taken apart. Bounded counters are natural numbers with additions that are exact or nothing, or
clamped, and a clamped subtraction.
-/

namespace Checked

variable {ε α β : Type}

/-- A sequence of two steps succeeds exactly when the first does and the second does on its result. -/
theorem seq_ok_iff {next : α → Except ε β} : step >>= next = .ok r ↔ ∃ a, step = .ok a ∧ next a = .ok r := by
  cases step <;> simp [bind, Except.bind]

theorem return_ok_iff : (pure a : Except ε α) = .ok r ↔ a = r := Except.ok.injEq a r ▸ Iff.rfl

theorem toOption_eq_some_iff {step : Except ε α} : step.toOption = some r ↔ step = .ok r := by
  cases step <;> simp [Except.toOption]

@[simp] theorem mapError_ok_iff {step : Except ε α} : step.mapError f = .ok r ↔ step = .ok r := by
  cases step <;> simp [Except.mapError]

/-- Continue when the condition holds, stop with the error otherwise. -/
def require (c : Prop) [Decidable c] (e : ε) : Except ε Unit := if c then .ok () else .error e

@[simp] theorem require_ok_iff [Decidable c] : require c e = .ok u ↔ c := by
  unfold require
  split <;> simp_all

def okOr (x : Option α) (e : ε) : Except ε α :=
  match x with
  | some a => .ok a
  | none => .error e

@[simp] theorem okOr_ok_iff : okOr x e = .ok a ↔ x = some a := by
  cases x <;> simp [okOr]

/-- How a computation that may panic fails. -/
inductive Failure (ε : Type) where
  | error (e : ε)
  | panic
  deriving DecidableEq

/-! ## 64-bit registers -/

/-- The largest value of a 64-bit register. -/
def u64Max : Nat := 2 ^ 64 - 1

/-- Addition that fails when the sum does not fit. -/
def checkedAdd (a b : Nat) : Option Nat := if a + b ≤ u64Max then some (a + b) else none

/-- Multiplication that fails when the product does not fit. -/
def checkedMul (a b : Nat) : Option Nat := if a * b ≤ u64Max then some (a * b) else none

/-- Subtraction that fails below zero. -/
def checkedSub (a b : Nat) : Option Nat := if b ≤ a then some (a - b) else none

/-- Addition clamped at the largest value. -/
def satAdd (a b : Nat) : Nat := min (a + b) u64Max

/-- Multiplication clamped at the largest value. -/
def satMul (a b : Nat) : Nat := min (a * b) u64Max

/-- Subtraction clamped at zero, which is the subtraction of natural numbers. -/
def satSub (a b : Nat) : Nat := a - b

@[simp] theorem checkedAdd_some_iff : checkedAdd a b = some c ↔ a + b ≤ u64Max ∧ a + b = c := by
  unfold checkedAdd
  split <;> simp_all

@[simp] theorem checkedMul_some_iff : checkedMul a b = some c ↔ a * b ≤ u64Max ∧ a * b = c := by
  unfold checkedMul
  split <;> simp_all

@[simp] theorem checkedSub_some_iff : checkedSub a b = some c ↔ b ≤ a ∧ a - b = c := by
  unfold checkedSub
  split <;> simp_all

theorem satAdd_eq (h : a + b ≤ u64Max) : satAdd a b = a + b := Nat.min_eq_left h

theorem satAdd_le (a b : Nat) : satAdd a b ≤ a + b := Nat.min_le_left _ _

/-- Clamping at every addition is clamping the sum. -/
theorem foldl_satAdd (f : α → Nat) (l : List α) (h : a ≤ u64Max) :
    l.foldl (fun acc x => satAdd acc (f x)) a = min (a + (l.map f).sum) u64Max := by
  induction l generalizing a with
  | nil => simpa using h
  | cons x l ih =>
    rw [List.foldl_cons, ih (a := satAdd a (f x)) (Nat.min_le_right _ _), satAdd, List.map_cons, List.sum_cons]
    omega

end Checked

/-!
## Computations that act on the outside

A computation that may fail and that leaves a trace of what it did on the way. A failure ends the computation and keeps the
trace, so what has been done before a check fails stays done.
-/

/-- What a computation did and what it returned. -/
structure Traced (ω ε α : Type) where
  trace : List ω
  result : Except ε α

namespace Traced

variable {ω ε α β : Type}

instance : Monad (Traced ω ε) where
  pure a := ⟨[], .ok a⟩
  bind x f := match x.result with
    | .error e => ⟨x.trace, .error e⟩
    | .ok a => ⟨x.trace ++ (f a).trace, (f a).result⟩

/-- A computation that does nothing on the outside. -/
def lift (x : Except ε α) : Traced ω ε α := ⟨[], x⟩

/-- Continue when the condition holds, stop with the error otherwise. -/
def check (c : Prop) [Decidable c] (e : ε) : Traced ω ε Unit := lift (Checked.require c e)

def perform (action : ω) (answer : Except ε α) : Traced ω ε α := ⟨[action], answer⟩

@[simp] theorem trace_pure (a : α) : (pure a : Traced ω ε α).trace = [] := rfl

@[simp] theorem result_pure (a : α) : (pure a : Traced ω ε α).result = .ok a := rfl

@[simp] theorem trace_lift (x : Except ε α) : (lift x : Traced ω ε α).trace = [] := rfl

@[simp] theorem result_lift (x : Except ε α) : (lift x : Traced ω ε α).result = x := rfl

@[simp] theorem trace_check (c : Prop) [Decidable c] (e : ε) : (check c e : Traced ω ε Unit).trace = [] := rfl

@[simp] theorem result_check_ok_iff [Decidable c] : (check c e : Traced ω ε Unit).result = .ok u ↔ c :=
  Checked.require_ok_iff

@[simp] theorem trace_perform (action : ω) (answer : Except ε α) : (perform action answer).trace = [action] := rfl

@[simp] theorem result_perform (action : ω) (answer : Except ε α) : (perform action answer).result = answer := rfl

theorem result_bind_ok_iff {f : α → Traced ω ε β} :
    (x >>= f).result = .ok b ↔ ∃ a, x.result = .ok a ∧ (f a).result = .ok b := by
  obtain ⟨trace, result⟩ := x
  cases result <;> simp [bind]

/-- A sequence does what its first part does, and what its second part does if the first succeeds. -/
theorem mem_trace_bind {f : α → Traced ω ε β} :
    action ∈ (x >>= f).trace ↔ action ∈ x.trace ∨ ∃ a, x.result = .ok a ∧ action ∈ (f a).trace := by
  obtain ⟨trace, result⟩ := x
  cases result <;> simp [bind]

end Traced
