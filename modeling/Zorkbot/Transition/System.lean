/-
# Labelled transition systems with guarded runs

A system is an initial state and a partial, executable step function. One
definition serves replaying a concrete schedule and proving a property of every
run: `exec` evaluates a schedule, `Reachable` quantifies over all of them.

Every notion carries a guard, a relation between a state and the action taken
in it. Running under a guard restricts which steps a run may contain, so an
assumption about the environment, or the exact condition under which a faulty
step is harmless, is one argument here and never a second transition relation.
-/

import Mathlib.Logic.Basic

namespace Transition

universe u v w

/-- An initial state and a step that is `none` when the action is disabled. -/
structure System (σ : Type u) (α : Type v) where
  init : σ
  step : σ → α → Option σ

namespace System

variable {σ : Type u} {α : Type v} (M : System σ α)

/-- Runs from one state to another all of whose steps meet the guard. -/
inductive Path (guard : σ → α → Prop) : σ → σ → Prop
  | refl (s : σ) : Path guard s s
  | tail {s t u : σ} {a : α} :
      Path guard s t → guard t a → M.step t a = some u → Path guard s u

/-- The states some guarded run from the initial state ends in. -/
def Reachable (guard : σ → α → Prop) (s : σ) : Prop :=
  M.Path guard M.init s

variable {M} {guard : σ → α → Prop}

theorem reachable_init : M.Reachable guard M.init := .refl _

theorem Reachable.step {s t : σ} {a : α} (reached : M.Reachable guard s)
    (allowed : guard s a) (taken : M.step s a = some t) :
    M.Reachable guard t :=
  .tail reached allowed taken

/-- The invariant rule: what holds initially and is preserved by each guarded
step holds of every reachable state. The step may use that its source is
reachable, so invariants can be proved one on top of another. -/
theorem Reachable.invariant {motive : σ → Prop} (initial : motive M.init)
    (preserved : ∀ s a t, M.Reachable guard s → motive s → guard s a →
      M.step s a = some t → motive t)
    {s : σ} (reached : M.Reachable guard s) : motive s := by
  induction reached with
  | refl => exact initial
  | tail prior allowed taken ih => exact preserved _ _ _ prior ih allowed taken

/-- A weaker guard admits at least the same runs. -/
theorem Reachable.mono {weaker : σ → α → Prop}
    (weaken : ∀ s a, guard s a → weaker s a) {s : σ}
    (reached : M.Reachable guard s) : M.Reachable weaker s := by
  induction reached with
  | refl => exact .refl _
  | tail _ allowed taken ih => exact .tail ih (weaken _ _ allowed) taken

/-- Two runs compose. -/
theorem Path.trans {s t u : σ} (first : M.Path guard s t)
    (second : M.Path guard t u) : M.Path guard s u := by
  induction second with
  | refl => exact first
  | tail _ allowed taken ih => exact .tail ih allowed taken

/-- A run of one system is one of another that has its actions among others. -/
theorem Path.embed {β : Type*} {N : System σ β} (embed : α → β)
    (same : ∀ s a, N.step s (embed a) = M.step s a) {s t : σ} (path : M.Path guard s t) :
    N.Path (fun _ _ => True) s t := by
  induction path with
  | refl => exact .refl _
  | tail _ _ taken ih => exact .tail ih trivial ((same _ _).trans taken)

/-- A property preserved by each guarded step, once true, stays true along the
rest of the run. -/
theorem Path.stable {motive : σ → Prop}
    (preserved : ∀ s a t, motive s → guard s a → M.step s a = some t → motive t)
    {s t : σ} (path : M.Path guard s t) (holds : motive s) : motive t := by
  induction path with
  | refl => exact holds
  | tail _ allowed taken ih => exact preserved _ _ _ ih allowed taken

/-! ## Replaying a schedule -/

variable (M) (guard)

/-- Replay a schedule, refusing a step that is disabled or that the guard
forbids. -/
def exec [∀ s a, Decidable (guard s a)] : σ → List α → Option σ
  | s, [] => some s
  | s, a :: rest =>
      if guard s a then
        match M.step s a with
        | some t => exec t rest
        | none => none
      else none

variable {M} {guard}

theorem path_of_exec [∀ s a, Decidable (guard s a)] {actions : List α} {s t : σ}
    (replayed : M.exec guard s actions = some t) : M.Path guard s t := by
  induction actions generalizing s with
  | nil =>
      simp only [exec, Option.some.injEq] at replayed
      exact replayed ▸ .refl _
  | cons a rest ih =>
      simp only [exec] at replayed
      split at replayed
      · rename_i allowed
        split at replayed
        · rename_i next taken
          exact (Path.tail (.refl s) allowed taken).trans (ih replayed)
        · exact absurd replayed (by simp)
      · exact absurd replayed (by simp)

/-- Replay under the decidable half of a guard whose other half is known of
every action of the schedule, in whatever state it is taken. -/
theorem path_and_of_exec [∀ s a, Decidable (guard s a)] {other : σ → α → Prop}
    {actions : List α} {s t : σ} (known : ∀ a ∈ actions, ∀ u, other u a)
    (replayed : M.exec guard s actions = some t) :
    M.Path (fun u a => guard u a ∧ other u a) s t := by
  induction actions generalizing s with
  | nil =>
      simp only [exec, Option.some.injEq] at replayed
      exact replayed ▸ .refl _
  | cons a rest ih =>
      simp only [exec] at replayed
      split at replayed
      · rename_i allowed
        split at replayed
        · rename_i next taken
          have tail := ih (fun b later => known b (List.mem_cons_of_mem _ later)) replayed
          exact (Path.tail (.refl s) ⟨allowed, known a List.mem_cons_self s⟩ taken).trans tail
        · exact absurd replayed (by simp)
      · exact absurd replayed (by simp)

variable (M) (guard) in
/-- A schedule that runs to its end reaches a state, about which whatever is
evaluated there holds. -/
theorem reaches [∀ s a, Decidable (guard s a)] (goal : σ → Prop) [DecidablePred goal]
    {other : σ → α → Prop} (actions : List α) (known : ∀ a ∈ actions, ∀ u, other u a)
    (replayed : (M.exec guard M.init actions).any (fun t => decide (goal t)) = true) :
    ∃ t, M.Reachable (fun u a => guard u a ∧ other u a) t ∧ goal t := by
  cases runs : M.exec guard M.init actions with
  | none => simp [runs] at replayed
  | some t =>
      rw [runs, Option.any_some, decide_eq_true_eq] at replayed
      exact ⟨t, path_and_of_exec known runs, replayed⟩

/-! ## Simulation -/

variable {τ : Type w}

/-- A forward simulation: a relation to an abstract system such that each
guarded concrete step is matched by an abstract run, possibly empty. -/
structure Simulation {β : Type*} (M : System σ α) (guard : σ → α → Prop) (N : System τ β)
    (related : σ → τ → Prop) : Prop where
  init : related M.init N.init
  step : ∀ {s a t u}, M.Reachable guard s → related s u → guard s a →
    M.step s a = some t → ∃ v, N.Path (fun _ _ => True) u v ∧ related t v

/-- Every reachable concrete state is related to a reachable abstract one. -/
theorem Simulation.reachable {β : Type*} {N : System τ β} {related : σ → τ → Prop}
    (sim : Simulation M guard N related) {s : σ} (reached : M.Reachable guard s) :
    ∃ u, N.Reachable (fun _ _ => True) u ∧ related s u := by
  induction reached with
  | refl => exact ⟨_, reachable_init, sim.init⟩
  | tail prior allowed taken ih =>
      obtain ⟨u, reachedU, linked⟩ := ih
      obtain ⟨v, path, linkedV⟩ := sim.step prior linked allowed taken
      exact ⟨v, Path.trans reachedU path, linkedV⟩

end System

end Transition
