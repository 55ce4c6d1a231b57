import Mathlib.Data.List.Induction
import Mathlib.Data.Set.Function

/-!
# Chains of hashes

Each element of a chain names the hash of the element before it, and the first one a hash that the chain starts from. Where the
hash has no collision among the elements that occur and none of them hashes to the start, the hash of the last element determines
the whole chain, its length included.
-/

namespace HashChain

open List

variable {α H : Type} (prior hash : α → H)

def Linked (start : H) : List α → H → Prop
  | [], tip => tip = start
  | x :: xs, tip => prior x = start ∧ Linked (hash x) xs tip

variable {prior hash} {start tip : H} {xs ys : List α} {s : Set α}

theorem linked_concat : Linked prior hash start (xs ++ [x]) tip ↔ Linked prior hash start xs (prior x) ∧ tip = hash x := by
  induction xs generalizing start with
  | nil => rfl
  | cons y xs ih =>
    rw [cons_append, Linked, Linked, ih, and_assoc]

/-- A chain that ends where it starts is empty. -/
theorem eq_nil_of_linked_start (hstart : ∀ x ∈ xs, hash x ≠ start) (h : Linked prior hash start xs start) : xs = [] := by
  rcases eq_nil_or_concat xs with hnil | ⟨init, last, rfl⟩
  · exact hnil
  · rw [concat_eq_append] at h hstart
    exact absurd (linked_concat.mp h).2.symm (hstart last (mem_concat_self))

theorem eq_of_linked (hinj : Set.InjOn hash s) (hstart : ∀ x ∈ s, hash x ≠ start) (hxs : ∀ x ∈ xs, x ∈ s)
    (hys : ∀ y ∈ ys, y ∈ s) (hx : Linked prior hash start xs tip) (hy : Linked prior hash start ys tip) : xs = ys := by
  -- from the tip back to the start: equal hashes give equal elements, which name the same hash before them
  induction xs using reverseRecOn generalizing ys tip with
  | nil =>
    obtain rfl : tip = start := hx
    exact (eq_nil_of_linked_start (fun y hmem => hstart y (hys y hmem)) hy).symm
  | append_singleton xs x ih =>
    obtain ⟨hxs', rfl⟩ := linked_concat.mp hx
    rcases eq_nil_or_concat ys with rfl | ⟨init, y, rfl⟩
    · exact absurd hy (hstart x (hxs x mem_concat_self))
    · rw [concat_eq_append] at hy hys ⊢
      obtain ⟨hinit, hhash⟩ := linked_concat.mp hy
      obtain rfl : x = y := hinj (hxs x mem_concat_self) (hys y mem_concat_self) hhash
      rw [ih (fun z hz => hxs z (mem_append_left _ hz)) (fun z hz => hys z (mem_append_left _ hz)) hxs' hinit]

end HashChain
