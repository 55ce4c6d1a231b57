import Mathlib.Data.List.Nodup
import Mathlib.Data.List.TakeWhile

/-!
# Pages of an append-only log

A log lists entries with distinct keys, the oldest first. A page is asked for with a key that its entries have to be older than,
a key that they have to be newer than, and a limit, and lists the newest such entries first. A log that has grown has the same
page below a key that was in it before.
-/

namespace Paging

open List

variable {α κ : Type} [DecidableEq κ] (key : α → κ)

def olderThan (before : Option κ) (log : List α) : List α :=
  match before with
  | none => log
  | some k => log.takeWhile fun e => key e ≠ k

def newerThan (boundary : Option κ) (log : List α) : List α :=
  match boundary with
  | none => log
  | some k => if k ∈ log.map key then (log.dropWhile fun e => key e ≠ k).tail else log

/-- A page, newest first. -/
def page (before boundary : Option κ) (limit : Nat) (log : List α) : List α :=
  (newerThan key boundary (olderThan key before log)).reverse.take limit

variable {key} {pre rest post log : List α} {x y : α}

theorem ne_of_not_mem (hx : key x ∉ pre.map key) : ∀ e ∈ pre, decide (key e ≠ key x) = true := by
  intro e he
  rw [decide_eq_true_iff]
  intro heq
  exact hx (heq ▸ mem_map_of_mem he)

theorem olderThan_split (hx : key x ∉ pre.map key) : olderThan key (some (key x)) (pre ++ x :: post) = pre := by
  rw [olderThan, takeWhile_append_of_pos (ne_of_not_mem hx), takeWhile_cons_of_neg (by simp), append_nil]

theorem newerThan_split (hx : key x ∉ pre.map key) : newerThan key (some (key x)) (pre ++ x :: post) = post := by
  have hmem : key x ∈ (pre ++ x :: post).map key := by simp
  rw [newerThan, if_pos hmem, dropWhile_append_of_pos (ne_of_not_mem hx), dropWhile_cons_of_neg (by simp), tail_cons]

theorem page_above (hx : key x ∉ pre.map key) :
    page key none (some (key x)) limit (pre ++ x :: post) = post.reverse.take limit := by
  rw [page, olderThan, newerThan_split hx]

theorem page_between (hnodup : ((pre ++ x :: (rest ++ y :: post)).map key).Nodup) :
    page key (some (key y)) (some (key x)) limit (pre ++ x :: (rest ++ y :: post)) = rest.reverse.take limit := by
  have hassoc : pre ++ x :: (rest ++ y :: post) = (pre ++ x :: rest) ++ y :: post := by simp
  have hy : key y ∉ (pre ++ x :: rest).map key := by
    rw [hassoc, map_append, map_cons, nodup_append] at hnodup
    exact fun hmem => hnodup.2.2 _ hmem _ (mem_cons_self ..) rfl
  have hx : key x ∉ pre.map key := by
    rw [map_append, map_cons, nodup_append] at hnodup
    exact fun hmem => hnodup.2.2 _ hmem _ (mem_cons_self ..) rfl
  rw [page, hassoc, olderThan_split hy, newerThan_split hx]

theorem page_newest : page key none none limit log = (log.drop (log.length - limit)).reverse := by
  rw [page, olderThan, newerThan, take_reverse]

end Paging
