import Mathlib.Data.Set.Insert

/-!
# Messages that arrive late and more than once

A sender works through a list of messages over a channel that may deliver a message any number of times and at any later
moment. Where the sender waits for a confirmation, a message has arrived at least once before the next one is sent.
-/

namespace Redelivery

variable {M A : Type} {carries : M → A → Prop} {other : A → Prop} {confirmed : Prop}


/-- What the receiver may see once the messages `sent` are out. -/
def Seen (carries : M → A → Prop) (other : A → Prop) (sent : Set M) (a : A) : Prop := other a ∨ ∃ m ∈ sent, carries m a

theorem Seen.mono (h : Seen carries other sent a) (hsub : sent ⊆ sent') : Seen carries other sent' a := by
  rcases h with h | ⟨m, hm, h⟩
  · exact .inl h
  · exact .inr ⟨m, hsub hm, h⟩

/-- The receiver sees `as` while a list of messages is sent in order, after the messages `sent`. -/
inductive Sends (carries : M → A → Prop) (other : A → Prop) (confirmed : Prop) : Set M → List M → List A → Prop where
  | done {sent : Set M} {as : List A} (seen : ∀ a ∈ as, Seen carries other sent a) : Sends carries other confirmed sent [] as
  | next {sent : Set M} {m : M} {ms : List M} {as bs : List A} (seen : ∀ a ∈ as, Seen carries other (insert m sent) a)
      (arrived : confirmed → ∃ a ∈ as, carries m a) (rest : Sends carries other confirmed (insert m sent) ms bs) :
      Sends carries other confirmed sent (m :: ms) (as ++ bs)

/-- Every message arrives before the next one is sent, as the copies `f` gives. -/
theorem Sends.inTurn (f : M → List A) (hf : ∀ m, ∀ a ∈ f m, carries m a) (hsome : confirmed → ∀ m, f m ≠ [])
    (sent : Set M) (ms : List M) : Sends carries other confirmed sent ms (ms.flatMap f) := by
  induction ms generalizing sent with
  | nil => exact .done (by simp)
  | cons m ms ih =>
    refine .next (fun a ha => .inr ⟨m, Set.mem_insert _ _, hf m a ha⟩) (fun hconfirmed => ?_) (ih _)
    obtain ⟨a, ha⟩ := List.exists_mem_of_ne_nil _ (hsome hconfirmed m)
    exact ⟨a, ha, hf m a ha⟩

/-- Everything the receiver sees is one of the messages, or of those before them, or has nothing to do with the sender. -/
theorem Sends.seen (h : Sends carries other confirmed sent ms as) : ∀ a ∈ as, Seen carries other (sent ∪ {m | m ∈ ms}) a := by
  induction h with
  | done seen => exact fun a ha => (seen a ha).mono Set.subset_union_left
  | next seen _ _ ih =>
    intro a ha
    rcases List.mem_append.mp ha with ha | ha
    · refine (seen a ha).mono (Set.insert_subset ?_ Set.subset_union_left)
      exact .inr List.mem_cons_self
    · refine (ih a ha).mono (Set.union_subset (Set.insert_subset ?_ Set.subset_union_left) ?_)
      · exact .inr List.mem_cons_self
      · exact fun m hm => .inr (List.mem_cons_of_mem _ hm)

theorem Sends.arrives (h : Sends carries other confirmed sent ms as) (hconfirmed : confirmed) (hm : m ∈ ms) :
    ∃ a ∈ as, carries m a := by
  induction h with
  | done => cases hm
  | next _ arrived _ ih =>
    rcases List.mem_cons.mp hm with rfl | hm
    · obtain ⟨a, ha, hcarries⟩ := arrived hconfirmed
      exact ⟨a, List.mem_append_left _ ha, hcarries⟩
    · obtain ⟨a, ha, hcarries⟩ := ih hm
      exact ⟨a, List.mem_append_right _ ha, hcarries⟩

theorem Sends.split (h : Sends carries other confirmed sent (ms ++ ns) as) :
    ∃ bs cs sent', as = bs ++ cs ∧ Sends carries other confirmed sent ms bs ∧ Sends carries other confirmed sent' ns cs := by
  induction ms generalizing sent as with
  | nil => exact ⟨[], as, sent, rfl, .done (by simp), h⟩
  | cons m ms ih =>
    cases h with
    | next seen arrived rest =>
      obtain ⟨bs, cs, sent', rfl, hfirst, hrest⟩ := ih rest
      exact ⟨_, cs, sent', (List.append_assoc _ _ _).symm, .next seen arrived hfirst, hrest⟩

end Redelivery
