/-
# What comes whatever is done

Some steps of a system may have to come to an end: in whichever order they are taken, a goal is
reached. A rank that each of them lowers, and that there is always one to take before the goal,
is what shows it.
-/

import Mathlib.Order.WellFounded
import Zorkbot.Transition.System

universe u v w

namespace Transition.System

variable {σ : Type u} {α : Type v} {M : System σ α} {guard : σ → α → Prop} {goal : σ → Prop}
  {s : σ}

/-- Finitely many guarded steps lead to the goal, whichever are taken, and until then there is one
that can be taken. -/
inductive Inevitable (M : System σ α) (guard : σ → α → Prop) (goal : σ → Prop) : σ → Prop
  | now {s : σ} (there : goal s) : Inevitable M guard goal s
  | later {s : σ} (moves : ∃ a t, guard s a ∧ M.step s a = some t)
      (all : ∀ a t, guard s a → M.step s a = some t → Inevitable M guard goal t) :
      Inevitable M guard goal s

/-- The rule of ranks. The invariant only has to survive the guarded steps. -/
theorem inevitable_of_rank {ρ : Type w} {lower : ρ → ρ → Prop} (founded : WellFounded lower)
    (rank : σ → ρ) {invariant : σ → Prop}
    (kept : ∀ s a t, invariant s → guard s a → M.step s a = some t → invariant t)
    (descends : ∀ s a t, guard s a → M.step s a = some t → lower (rank t) (rank s))
    (moves : ∀ s, invariant s → goal s ∨ ∃ a t, guard s a ∧ M.step s a = some t)
    (holds : invariant s) : M.Inevitable guard goal s := by
  induction of : rank s using founded.induction generalizing s with
  | h r ih =>
      rcases moves s holds with there | next
      · exact .now there
      · apply Inevitable.later next
        intro a t allowed taken
        exact ih (rank t) (of ▸ descends s a t allowed taken) (kept s a t holds allowed taken) rfl

/-- What is inevitable can be run into. -/
theorem Inevitable.path (inevitable : M.Inevitable guard goal s) :
    ∃ t, M.Path guard s t ∧ goal t := by
  induction inevitable with
  | now there => exact ⟨_, .refl _, there⟩
  | later moves _ ih =>
      obtain ⟨a, t, allowed, taken⟩ := moves
      obtain ⟨u, path, there⟩ := ih a t allowed taken
      exact ⟨u, (Path.tail (.refl _) allowed taken).trans path, there⟩

end Transition.System
