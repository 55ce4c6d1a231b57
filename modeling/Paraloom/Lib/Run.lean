import Mathlib.Data.List.Basic

/-!
# Runs of a transition relation

A run is a finite sequence of steps, each with its label. An invariant that holds at the start and that every step keeps
holds at the end of every run, and since every beginning of a run is a run, in each of its states.
-/

/-- A run of `step` from `s`, with the labels of its steps in order. -/
inductive Run {σ α : Type} (step : σ → α → σ → Prop) (s : σ) : List α → σ → Prop where
  | nil : Run step s [] s
  | snoc {as : List α} {t u : σ} {a : α} (run : Run step s as t) (last : step t a u) : Run step s (as ++ [a]) u

namespace Run

open List

variable {σ α : Type} {step : σ → α → σ → Prop} {s t u : σ} {as bs : List α}

/-- An invariant of states and the labels so far. -/
theorem induction {P : List α → σ → Prop} (h : Run step s as t) (hstart : P [] s)
    (hstep : ∀ as t a u, Run step s as t → P as t → step t a u → P (as ++ [a]) u) : P as t := by
  induction h with
  | nil => exact hstart
  | snoc run last ih => exact hstep _ _ _ _ run ih last

theorem invariant {P : σ → Prop} (h : Run step s as t) (hstart : P s) (hstep : ∀ t a u, P t → step t a u → P u) : P t :=
  h.induction (P := fun _ t => P t) hstart (fun _ t a u _ ht hlast => hstep t a u ht hlast)

/-- An invariant that is kept by the steps whose label is allowed. -/
theorem invariant_of {P : σ → Prop} {ok : α → Prop} (h : Run step s as t) (hok : ∀ a ∈ as, ok a) (hstart : P s)
    (hstep : ∀ t a u, ok a → P t → step t a u → P u) : P t := by
  induction h with
  | nil => exact hstart
  | snoc _ last ih =>
    exact hstep _ _ _ (hok _ (by simp)) (ih fun a ha => hok a (mem_append_left _ ha)) last

theorem mono (h : Run step s as t) (hstep : ∀ s a t, step s a t → step' s a t) : Run step' s as t := by
  induction h with
  | nil => exact nil
  | snoc _ last ih => exact ih.snoc (hstep _ _ _ last)

theorem trans (h : Run step s as t) (h' : Run step t bs u) : Run step s (as ++ bs) u := by
  induction h' with
  | nil => simpa using h
  | snoc _ last ih =>
    rw [← append_assoc]
    exact ih.snoc last

/-- A run of two lists of labels is a run of the first and one of the second. -/
theorem split (h : Run step s (as ++ bs) u) : ∃ t, Run step s as t ∧ Run step t bs u := by
  generalize hcs : as ++ bs = cs at h
  induction h generalizing bs with
  | nil =>
    obtain ⟨rfl, rfl⟩ := append_eq_nil_iff.mp hcs
    exact ⟨s, nil, nil⟩
  | @snoc cs t u b run last ih =>
    rcases eq_nil_or_concat bs with rfl | ⟨bs, b', rfl⟩
    · rw [append_nil] at hcs
      exact ⟨u, hcs ▸ run.snoc last, nil⟩
    · rw [concat_eq_append, ← append_assoc] at hcs
      obtain ⟨hinit, hb⟩ := append_inj' hcs rfl
      obtain rfl := singleton_inj.mp hb
      obtain ⟨r, hfirst, hsecond⟩ := ih hinit
      exact ⟨r, hfirst, concat_eq_append ▸ hsecond.snoc last⟩

theorem last_step (h : Run step s (as ++ [a]) u) : ∃ t, Run step s as t ∧ step t a u := by
  generalize hbs : as ++ [a] = bs at h
  cases h with
  | nil => simp at hbs
  | snoc run last =>
    obtain ⟨rfl, hlast⟩ := append_inj' hbs rfl
    rw [singleton_inj] at hlast
    exact ⟨_, run, hlast ▸ last⟩

theorem eq_of_nil (h : Run step s [] t) : s = t := by
  generalize hbs : [] = bs at h
  cases h with
  | nil => rfl
  | snoc => simp at hbs

theorem first_step (h : Run step s (a :: as) u) : ∃ t, step s a t ∧ Run step t as u := by
  generalize hbs : a :: as = bs at h
  induction h generalizing as with
  | nil => cases hbs
  | @snoc cs t u b run last ih =>
    cases cs with
    | nil =>
      obtain ⟨rfl, rfl⟩ := cons.inj hbs
      obtain rfl := run.eq_of_nil
      exact ⟨u, last, nil⟩
    | cons c cs =>
      obtain ⟨rfl, rfl⟩ := cons.inj hbs
      obtain ⟨r, hfirst, hrest⟩ := ih rfl
      exact ⟨r, hfirst, hrest.snoc last⟩

/-- What one step of a run brings about, from the states that satisfy `Q`, and what the steps keep, holds at the end. -/
theorem established {P Q : σ → Prop} {ok : α → Prop} (h : Run step s as t) (hok : ∀ b ∈ as, ok b) (ha : a ∈ as) (hstart : Q s)
    (hQ : ∀ t b u, ok b → Q t → step t b u → Q u) (hset : ∀ t u, Q t → step t a u → P u)
    (hP : ∀ t b u, ok b → P t → step t b u → P u) : P t := by
  obtain ⟨before, after, rfl⟩ := append_of_mem ha
  obtain ⟨r, hbefore, hrest⟩ := h.split
  obtain ⟨r', hstep, hafter⟩ := hrest.first_step
  have hr : Q r := hbefore.invariant_of (fun b hb => hok b (mem_append_left _ hb)) hstart hQ
  refine hafter.invariant_of (fun b hb => hok b ?_) (hset r r' hr hstep) hP
  exact mem_append_right _ (mem_cons_of_mem _ hb)

theorem functional (h : Run step s as t) (hstep : ∀ s a t u, step s a t → step s a u → t = u) (h' : Run step s as u) :
    t = u := by
  induction h generalizing u with
  | nil => exact h'.eq_of_nil
  | snoc _ last ih =>
    obtain ⟨t', hrun, hlast⟩ := h'.last_step
    rw [← ih hrun] at hlast
    exact hstep _ _ _ _ last hlast

/-- Executing a list of labels makes a run. -/
theorem of_foldlM (hf : ∀ s a t, f s a = some t → step s a t) (h : as.foldlM f s = some t) : Run step s as t := by
  induction as generalizing s with
  | nil =>
    obtain rfl : s = t := Option.some.inj h
    exact nil
  | cons a as ih =>
    rw [foldlM_cons, Option.bind_eq_bind, Option.bind_eq_some_iff] at h
    obtain ⟨u, hu, hrest⟩ := h
    exact (nil.snoc (hf s a u hu)).trans (ih hrest)

/-- Executing a list of labels to a state of which a decidable fact holds makes a run to such a state. -/
theorem exists_of_foldlM {f : σ → α → Option σ} [DecidablePred P] (hf : ∀ s a t, f s a = some t → step s a t)
    (h : ((as.foldlM f s).any fun t => decide (P t)) = true) : ∃ t, Run step s as t ∧ P t := by
  obtain ⟨t, ht, hfact⟩ := (Option.any_eq_true _ _).mp h
  exact ⟨t, of_foldlM hf ht, of_decide_eq_true hfact⟩

/-- A step function that is only applied where a condition holds. -/
def guarded (ok : σ → α → Prop) [∀ s a, Decidable (ok s a)] (f : σ → α → Option σ) (s : σ) (a : α) : Option σ :=
  if ok s a then f s a else none

theorem of_guarded [∀ s a, Decidable (ok s a)] (s : σ) (a : α) (t : σ) (h : guarded ok f s a = some t) :
    f s a = some t ∧ ok s a := by
  unfold guarded at h
  split at h
  · rename_i hok
    exact ⟨h, hok⟩
  · cases h

end Run
