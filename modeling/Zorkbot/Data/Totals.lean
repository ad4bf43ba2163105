/-
# Totals

What the elements of a list, the values of a table or the tasks of a roster come to together, in
any commutative monoid. When one of them changes the rest of the total stays, which is how a
total is compared before and after.

A total of what is left to do is a workload: pieces in an order without infinite descents. It gets
lighter when any number of pieces come in the place of some, all lighter than one of those, so a
step may make more pieces of one as long as they are smaller.
-/

import Mathlib.Algebra.BigOperators.Group.Finset.Basic
import Mathlib.Data.Multiset.DershowitzManna
import Zorkbot.Data.Roster

universe u v w

section

variable {M : Type w} [AddCommMonoid M]

/-- One element of a list changes. -/
theorem List.exists_sum_set {l : List M} {n : Nat} {a : M} (there : l[n]? = some a) (b : M) :
    ∃ rest, l.sum = rest + a ∧ (l.set n b).sum = rest + b := by
  induction l generalizing n with
  | nil => simp at there
  | cons c l ih =>
      cases n with
      | zero =>
          simp only [List.getElem?_cons_zero, Option.some.injEq] at there
          exact ⟨l.sum, by simp [there, add_comm], by simp [add_comm]⟩
      | succ n =>
          obtain ⟨rest, before, after⟩ := ih there
          exact ⟨c + rest, by simp [before, add_assoc], by simp [after, add_assoc]⟩

namespace Table

variable {κ : Type u} {β : Type v}

/-- What the values come to. -/
def total (t : Table κ β) (f : β → M) : M := (t.rows.map fun row => f row.2).sum

variable [DecidableEq κ]

theorem total_erase (t : Table κ β) (k : κ) (f : β → M) :
    t.total f = (t.erase k).total f + (t.get k).elim 0 f := by
  have rows : (t.erase k).rows = t.rows.kerase k := rfl
  rw [total, total, rows]
  by_cases bound : k ∈ t.keys
  · obtain ⟨v, before, after, -, whole, rest⟩ := List.exists_of_kerase bound
    change t.rows = _ at whole
    change t.rows.kerase k = _ at rest
    have found : t.get k = some v := by
      rw [← mem_rows_iff, whole]
      simp
    rw [rest, whole, found, Option.elim_some]
    simp only [List.map_append, List.map_cons, List.sum_append, List.sum_cons]
    rw [add_comm (f v), add_assoc]
  · have absent : t.get k = none := by
      cases found : t.get k with
      | none => rfl
      | some v => exact absurd (mem_keys_iff.mpr ⟨v, found⟩) bound
    have same : t.rows.kerase k = t.rows := List.kerase_of_notMem_keys bound
    rw [same, absent, Option.elim_none, add_zero]

/-- One value of a table changes, or is new. -/
theorem exists_total_set (t : Table κ β) (k : κ) (v : β) (f : β → M) :
    ∃ rest, t.total f = rest + (t.get k).elim 0 f ∧ (t.set k v).total f = rest + f v := by
  refine ⟨(t.erase k).total f, total_erase t k f, ?_⟩
  change ((⟨k, v⟩ :: t.rows.kerase k).map _).sum = _
  rw [List.map_cons, List.sum_cons, add_comm]
  rfl

end Table

namespace Roster

open Finset

variable {κ : Type u} {ω : Type v} {r : Roster κ ω}

/-- What the tasks come to, each by its number and where it is. -/
def total (r : Roster κ ω) (f : Nat → ω → M) : M :=
  ∑ n ∈ range r.tasks.length, (r.task n).elim 0 fun task => f n task.2

/-- One task goes on, and what it counts for may change with more than its point. -/
theorem exists_total_move {n : Nat} {k : κ} {v : ω} (there : r.task n = some (k, v)) (w : ω)
    {f g : Nat → ω → M} (others : ∀ m ≠ n, ∀ u, g m u = f m u) :
    ∃ rest, r.total f = rest + f n v ∧ (r.move n w).total g = rest + g n w := by
  have early : n ∈ range r.tasks.length :=
    mem_range.mpr (List.getElem?_eq_some_iff.mp there).1
  have length : (r.move n w).tasks.length = r.tasks.length := List.length_modify ..
  refine ⟨∑ m ∈ (range r.tasks.length).erase n, (r.task m).elim 0 fun task => f m task.2, ?_, ?_⟩
  · rw [total, ← sum_erase_add _ _ early, there]
    rfl
  · rw [total, length, ← sum_erase_add _ _ early, task_move, if_pos rfl, there]
    congr 1
    apply sum_congr rfl
    intro m other
    rw [task_move, if_neg (ne_of_mem_erase other).symm]
    cases r.task m with
    | none => rfl
    | some task => exact others m (ne_of_mem_erase other) task.2

theorem move_self {n : Nat} {k : κ} {w : ω} (there : r.task n = some (k, w)) : r.move n w = r := by
  have same : r.tasks.modify n (fun task => (task.1, w)) = r.tasks := by
    apply List.ext_getElem?
    intro m
    rw [List.getElem?_modify]
    split
    · next own =>
        subst own
        rw [task] at there
        rw [there]
        rfl
    · exact id_map _
  rw [move, same]

/-- What one task counts for changes although it stays where it is. -/
theorem exists_total_change {n : Nat} {k : κ} {w : ω} (there : r.task n = some (k, w))
    {f g : Nat → ω → M} (others : ∀ m ≠ n, ∀ u, g m u = f m u) :
    ∃ rest, r.total f = rest + f n w ∧ r.total g = rest + g n w := by
  obtain ⟨rest, before, after⟩ := exists_total_move there w others
  exact ⟨rest, before, by rw [← after, move_self there]⟩

variable [DecidableEq κ]

/-- A task that is created counts too. -/
theorem total_hire (k : κ) (w : ω) (r : Roster κ ω) (f : Nat → ω → M) :
    (r.hire k w).total f = r.total f + f r.tasks.length w := by
  have length : (r.hire k w).tasks.length = r.tasks.length + 1 := List.length_append
  rw [total, length, sum_range_succ, task_hire, if_pos rfl]
  congr 1
  apply sum_congr rfl
  intro m early
  rw [task_hire, if_neg (Nat.ne_of_lt (mem_range.mp early))]

end Roster

end

/-! ## Workloads -/

namespace Workload

variable {ρ : Type u} [Preorder ρ] {after before : Multiset ρ}

/-- Lighter pieces come in the place of some. -/
def Lighter (after before : Multiset ρ) : Prop := after.IsDershowitzMannaLT before

theorem founded [WellFoundedLT ρ] : WellFounded (Lighter : Multiset ρ → Multiset ρ → Prop) :=
  Multiset.wellFounded_isDershowitzMannaLT

/-- Some pieces are replaced by others that are all lighter than one of them. -/
theorem lighter (rest old new : Multiset ρ) (heavy : ρ) (was : before = rest + old)
    (is : after = rest + new) (replaced : heavy ∈ old) (light : ∀ piece ∈ new, piece < heavy) :
    Lighter after before := by
  refine ⟨rest, new, old, ?_, is, was, fun piece there => ⟨heavy, replaced, light piece there⟩⟩
  rintro rfl
  exact Multiset.notMem_zero heavy replaced

/-- One piece is done with. -/
theorem lighter_drop (rest : Multiset ρ) (piece : ρ) (was : before = rest + {piece})
    (is : after = rest) : Lighter after before :=
  lighter rest {piece} 0 piece was (is.trans (add_zero rest).symm) (Multiset.mem_singleton_self _)
    fun _ none => absurd none (Multiset.notMem_zero _)

/-- One piece becomes a lighter one. -/
theorem lighter_replace (rest : Multiset ρ) {old new : ρ} (was : before = rest + {old})
    (is : after = rest + {new}) (light : new < old) : Lighter after before :=
  lighter rest {old} {new} old was is (Multiset.mem_singleton_self _) fun _ there =>
    Multiset.mem_singleton.mp there ▸ light

/-- Two pieces become one that is lighter than the first. -/
theorem lighter_merge (rest : Multiset ρ) (old other new : ρ)
    (was : before = rest + {old} + {other}) (is : after = rest + {new}) (light : new < old) :
    Lighter after before :=
  lighter rest ({old} + {other}) {new} old (was.trans (add_assoc ..)) is
    (Multiset.mem_add.mpr (.inl (Multiset.mem_singleton_self _))) fun _ there =>
    Multiset.mem_singleton.mp there ▸ light

/-- It does not matter what else there is to do. -/
theorem Lighter.beside (lighter : Lighter after before) (beside : Multiset ρ) :
    Lighter (after + beside) (before + beside) := by
  obtain ⟨rest, new, old, some, rfl, rfl, less⟩ := lighter
  exact ⟨rest + beside, new, old, some, add_right_comm .., add_right_comm .., less⟩

end Workload
