/-
# Lists that keep their last elements

A deque of bounded length discards its oldest element when one is appended to a
full one. Whatever was appended to it, it holds the last of that, so what a log, a
backlog or a window keeps is a function of its history.
-/

import Mathlib.Data.List.Basic

namespace Deque

universe u

variable {α : Type u}

/-- The last `max` elements. -/
def keep (max : Nat) (l : List α) : List α := l.drop (l.length - max)

/-- `deque(maxlen=max).append(a)` on the deque `l`. -/
def append (max : Nat) (l : List α) (a : α) : List α := keep max (l ++ [a])

@[simp] theorem keep_nil (max : Nat) : keep max ([] : List α) = [] := List.drop_nil

theorem length_keep (max : Nat) (l : List α) : (keep max l).length = min max l.length := by
  simp only [keep, List.length_drop]
  omega

theorem keep_suffix (max : Nat) (l : List α) : keep max l <:+ l := List.drop_suffix _ _

theorem keep_of_length_le {max : Nat} {l : List α} (short : l.length ≤ max) : keep max l = l := by
  rw [keep, Nat.sub_eq_zero_of_le short, List.drop_zero]

/-- Of a list whose last part is long enough nothing else is kept. -/
theorem keep_append {max : Nat} {l m : List α} (long : max ≤ m.length) :
    keep max (l ++ m) = keep max m := by
  rw [keep, keep, List.length_append, List.drop_append, List.drop_eq_nil_of_le (by omega),
    List.nil_append]
  congr 1
  omega

/-- The first of too many is not kept. -/
theorem keep_tail {max : Nat} {l : List α} (long : max < l.length) :
    keep max l.tail = keep max l := by
  rw [keep, keep, List.drop_tail, List.length_tail]
  congr 1
  omega

theorem keep_append_singleton (max : Nat) (l : List α) (a : α) :
    keep (max + 1) (l ++ [a]) = keep max l ++ [a] := by
  rw [keep, keep, List.length_append, List.length_singleton, Nat.add_sub_add_right,
    List.drop_append_of_le_length (Nat.sub_le ..)]

theorem map_keep {β : Type*} (f : α → β) (max : Nat) (l : List α) :
    (keep max l).map f = keep max (l.map f) := by
  rw [keep, keep, List.map_drop, List.length_map]

/-- Appending to what was kept is keeping what was appended. -/
theorem append_keep (max : Nat) (l : List α) (a : α) :
    append max (keep max l) a = keep max (l ++ [a]) := by
  rcases Nat.le_total l.length max with short | long
  · rw [keep_of_length_le short, append]
  · have split : keep max l ++ [a] = (l ++ [a]).drop (l.length - max) := by
      rw [keep, List.drop_append_of_le_length (Nat.sub_le ..)]
    rw [append, split, keep, keep, List.drop_drop, List.length_drop, List.length_append,
      List.length_singleton]
    congr 1
    omega

theorem foldl_append_keep (max : Nat) (l m : List α) :
    m.foldl (append max) (keep max l) = keep max (l ++ m) := by
  induction m generalizing l with
  | nil => rw [List.foldl_nil, List.append_nil]
  | cons a m ih => rw [List.foldl_cons, append_keep, ih, List.append_assoc, List.singleton_append]

theorem append_suffix (max : Nat) (l : List α) (a : α) : append max l a <:+ l ++ [a] :=
  keep_suffix _ _

theorem length_append (max : Nat) (l : List α) (a : α) :
    (append max l a).length = min max (l.length + 1) := by
  rw [append, length_keep, List.length_append, List.length_singleton]

end Deque
