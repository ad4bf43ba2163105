/-
# Lists that have lost what does not matter

Elements of a list matter or they do not. A list that has lost some that do not is as good as the
whole one for every question that only what matters can answer, and it stays so when both grow
and when both are updated.
-/

import Mathlib.Data.List.Basic

universe u v

section

variable {α : Type u} {β : Type v} {matters : α → Bool} {kept all : List α}

/-- What is kept of a list has all that matters. -/
structure Retains (matters : α → Bool) (kept all : List α) : Prop where
  sublist : kept.Sublist all
  same : kept.filter matters = all.filter matters

namespace Retains

theorem refl (matters : α → Bool) (all : List α) : Retains matters all all :=
  ⟨List.Sublist.refl all, rfl⟩

theorem append (retains : Retains matters kept all) (added : List α) :
    Retains matters (kept ++ added) (all ++ added) := by
  refine ⟨retains.sublist.append_right added, ?_⟩
  rw [List.filter_append, List.filter_append, retains.same]

/-- More may be left out. -/
theorem thin {keeps : α → Bool} (retains : Retains matters kept all)
    (harmless : ∀ a, matters a = true → keeps a = true) :
    Retains matters (kept.filter keeps) all := by
  refine ⟨List.filter_sublist.trans retains.sublist, ?_⟩
  rw [List.filter_filter, ← retains.same]
  apply List.filter_congr
  intro a _
  cases matter : matters a with
  | false => rfl
  | true => exact (Bool.true_and _).trans (harmless a matter)

/-- A question that only what matters can answer. -/
theorem filter {asks : α → Bool} (retains : Retains matters kept all)
    (relevant : ∀ a ∈ all, asks a = true → matters a = true) : kept.filter asks = all.filter asks := by
  have narrowed {l : List α} (listed : ∀ a ∈ l, a ∈ all) :
      l.filter asks = (l.filter matters).filter asks := by
    rw [List.filter_filter]
    apply List.filter_congr
    intro a there
    cases asked : asks a with
    | false => rfl
    | true => exact (relevant a (listed a there) asked).symm
  rw [narrowed fun a there => retains.sublist.subset there, retains.same, ← narrowed fun a => id]

theorem filterMap {f : α → Option β} (retains : Retains matters kept all)
    (relevant : ∀ a ∈ all, (f a).isSome = true → matters a = true) :
    kept.filterMap f = all.filterMap f := by
  have narrowed (l : List α) : l.filterMap f = (l.filter fun a => (f a).isSome).filterMap f := by
    rw [List.filterMap_filter]
    apply List.filterMap_congr
    intro a _
    cases f a with
    | none => rfl
    | some b => rfl
  rw [narrowed kept, narrowed all, retains.filter relevant]

/-- Both are updated, and nothing that did not matter comes to matter. -/
theorem map {f : α → α} (retains : Retains matters kept all)
    (still : ∀ a ∈ all, matters (f a) = true → matters a = true) :
    Retains matters (kept.map f) (all.map f) := by
  refine ⟨retains.sublist.map f, ?_⟩
  rw [List.filter_map, List.filter_map]
  exact congrArg (List.map f) (retains.filter still)

end Retains

end
