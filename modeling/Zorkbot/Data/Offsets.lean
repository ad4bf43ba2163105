/-
# Pages by offset

A client reads an ordering page by page while the order changes. Each page is cut out of the
order of that moment, behind as many places as there have been before. As long as whoever is
in front of the next page stays in front of it, the pages together are what is in front. When
that fails once, the pages are never again what they should be.
-/

import Mathlib.Data.List.Perm.Basic
import Mathlib.Order.Basic

namespace Offsets

universe u v

variable {α : Type u} {limit k n : Nat} {rows : Nat → List α} {row : List α}

/-- The page behind this many. -/
def page (limit n : Nat) (row : List α) : List α := (row.drop (n * limit)).take limit

/-- This many pages from one on, each of the order at its moment. -/
def visitedFrom (limit : Nat) (rows : Nat → List α) (k : Nat) : Nat → List α
  | 0 => []
  | n + 1 => visitedFrom limit rows k n ++ page limit (k + n) (rows (k + n))

/-- The first pages. -/
def visited (limit : Nat) (rows : Nat → List α) (n : Nat) : List α := visitedFrom limit rows 0 n

/-- Nobody passes the place where the page behind this one begins. -/
def Steady (limit n : Nat) (before after : List α) : Prop :=
  (before.take ((n + 1) * limit)).Perm (after.take ((n + 1) * limit))

instance [DecidableEq α] (limit n : Nat) (before after : List α) :
    Decidable (Steady limit n before after) :=
  inferInstanceAs (Decidable (List.Perm _ _))

/-! ## One page -/

theorem take_append_page (limit n : Nat) (row : List α) :
    row.take (n * limit) ++ page limit n row = row.take ((n + 1) * limit) := by
  rw [page, Nat.succ_mul, List.take_add]

theorem length_page (limit n : Nat) (row : List α) :
    (page limit n row).length = min limit (row.length - n * limit) := by
  rw [page, List.length_take, List.length_drop]

/-- Nothing is behind a page that is not full. -/
theorem length_le_of_short (short : (page limit n row).length ≠ limit) :
    row.length ≤ (n + 1) * limit := by
  rw [length_page] at short
  rw [Nat.succ_mul]
  omega

/-- A full page is behind rows that are there. -/
theorem le_length_of_full (one : 1 ≤ limit) (full : (page limit n row).length = limit) :
    (n + 1) * limit ≤ row.length := by
  rw [length_page] at full
  rw [Nat.succ_mul]
  omega

theorem map_page {β : Type v} (f : α → β) (limit n : Nat) (row : List α) :
    (page limit n row).map f = page limit n (row.map f) := by
  rw [page, page, List.map_take, List.map_drop]

/-! ## All pages -/

theorem visited_succ (limit : Nat) (rows : Nat → List α) (n : Nat) :
    visited limit rows (n + 1) = visited limit rows n ++ page limit n (rows n) := by
  rw [visited, visitedFrom, Nat.zero_add]
  rfl

theorem visited_add (limit : Nat) (rows : Nat → List α) (k n : Nat) :
    visited limit rows (k + n) = visited limit rows k ++ visitedFrom limit rows k n := by
  induction n with
  | zero => rw [visitedFrom, List.append_nil, Nat.add_zero]
  | succ n ih => rw [← Nat.add_assoc, visited_succ, ih, visitedFrom, List.append_assoc]

/-- Pages behind what is in front are what is in front of the next page. -/
theorem front_append_visitedFrom
    (steady : ∀ i, k ≤ i → i < k + n → Steady limit i (rows i) (rows (i + 1))) :
    ((rows k).take (k * limit) ++ visitedFrom limit rows k (n + 1)).Perm
      ((rows (k + n)).take ((k + n + 1) * limit)) := by
  induction n with
  | zero => rw [visitedFrom, visitedFrom, List.nil_append, Nat.add_zero, take_append_page]
  | succ n ih =>
      have before := ih fun i from_ less => steady i from_ (Nat.lt_succ_of_lt less)
      have still := steady (k + n) (Nat.le_add_right k n) (Nat.lt_succ_self _)
      rw [visitedFrom, ← List.append_assoc, ← take_append_page]
      exact (before.trans still).append_right _

/-- What has been visited is what is in front of the next page. -/
theorem visited_perm (steady : ∀ i < n, Steady limit i (rows i) (rows (i + 1))) :
    (visited limit rows (n + 1)).Perm ((rows n).take ((n + 1) * limit)) := by
  have front := front_append_visitedFrom (k := 0) (n := n) fun i _ less =>
    steady i (Nat.lt_of_lt_of_eq less (Nat.zero_add n))
  rwa [Nat.zero_mul, List.take_zero, List.nil_append, Nat.zero_add] at front

/-- After a page that is not full everything has been visited once. -/
theorem visited_all (steady : ∀ i < n, Steady limit i (rows i) (rows (i + 1)))
    (short : (page limit n (rows n)).length ≠ limit) :
    (visited limit rows (n + 1)).Perm (rows n) := by
  have front := visited_perm steady
  rwa [List.take_of_length_le (length_le_of_short short)] at front

/-- Somebody who passes the place where a page begins is not made up for by pages that nobody
passes. -/
theorem steady_of_visited_all (before : ∀ i < k, Steady limit i (rows i) (rows (i + 1)))
    (behind : ∀ i, k < i → Steady limit i (rows i) (rows (i + 1))) (less : k < n)
    (short : (page limit n (rows n)).length ≠ limit)
    (all : (visited limit rows (n + 1)).Perm (rows n)) :
    Steady limit k (rows k) (rows (k + 1)) := by
  obtain ⟨m, rfl⟩ := Nat.exists_eq_add_of_lt less
  have front := front_append_visitedFrom (k := k + 1) (n := m) fun i from_ _ =>
    behind i (Nat.lt_of_succ_le from_)
  have last : k + 1 + m = k + m + 1 := Nat.add_right_comm k 1 m
  rw [last, List.take_of_length_le (length_le_of_short short)] at front
  have split : k + m + 1 + 1 = k + 1 + (m + 1) := by omega
  rw [split, visited_add] at all
  have same := all.trans front.symm
  rw [List.perm_append_right_iff] at same
  exact (visited_perm before).symm.trans same

end Offsets
