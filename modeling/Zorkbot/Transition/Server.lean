/-
# A single server with a waiting line

What a queue with one consumer is for: items are accepted in some order and each
is served to its end before the next is taken. Nothing is said about who serves
or when, so any implementation whose steps are runs of this machine serves every
item once and in the order of acceptance.
-/

import Zorkbot.Transition.System

namespace Transition

universe u v w

/-- The items at a server, oldest first. -/
structure Server (ι : Type u) where
  waiting : List ι
  inHand : Option ι
  served : List ι
  /-- Every item ever accepted. -/
  accepted : List ι

namespace Server

variable {ι : Type u}

inductive Act (ι : Type u)
  | accept (i : ι)
  | take
  | finish

def init : Server ι := ⟨[], none, [], []⟩

def step (s : Server ι) : Act ι → Option (Server ι)
  | .accept i => some { s with waiting := s.waiting ++ [i], accepted := s.accepted ++ [i] }
  | .take =>
      match s.inHand, s.waiting with
      | none, i :: rest => some { s with waiting := rest, inHand := some i }
      | _, _ => none
  | .finish =>
      match s.inHand with
      | some i => some { s with inHand := none, served := s.served ++ [i] }
      | none => none

/-- The runs of a server. -/
def machine (ι : Type u) : System (Server ι) (Act ι) := ⟨init, step⟩

/-- The runs from one state of a server to another. -/
abbrev Path (s t : Server ι) : Prop := (machine ι).Path (fun _ _ => True) s t

theorem path_accept (s : Server ι) (i : ι) :
    s.Path { s with waiting := s.waiting ++ [i], accepted := s.accepted ++ [i] } := by
  apply System.Path.tail (M := machine ι) (a := .accept i) (.refl s) trivial
  rfl

theorem path_take {s : Server ι} {i : ι} {rest : List ι} (idle : s.inHand = none)
    (line : s.waiting = i :: rest) : s.Path { s with waiting := rest, inHand := some i } := by
  apply System.Path.tail (M := machine ι) (a := .take) (.refl s) trivial
  simp only [machine, step, idle, line]

theorem path_finish {s : Server ι} {i : ι} (busy : s.inHand = some i) :
    s.Path { s with inHand := none, served := s.served ++ [i] } := by
  apply System.Path.tail (M := machine ι) (a := .finish) (.refl s) trivial
  simp only [machine, step, busy]

/-- The items in the order of their acceptance: those served, the one in hand,
those that wait. -/
def line (s : Server ι) : List ι := s.served ++ s.inHand.toList ++ s.waiting

theorem line_step {s t : Server ι} {a : Act ι} (taken : s.step a = some t)
    (inOrder : s.accepted = s.line) : t.accepted = t.line := by
  obtain ⟨waiting, inHand, served, accepted⟩ := s
  cases a with
  | accept i =>
      cases taken
      have same : accepted = served ++ inHand.toList ++ waiting := inOrder
      simp [line, same]
  | take =>
      cases inHand <;> cases waiting <;> cases taken
      simpa [line] using inOrder
  | finish =>
      cases inHand <;> cases taken
      simpa [line] using inOrder

/-- Nothing is lost, repeated or overtaken. -/
theorem accepted_eq_line {s : Server ι} (reached : (machine ι).Reachable (fun _ _ => True) s) :
    s.accepted = s.line := by
  apply reached.invariant (motive := fun s => s.accepted = s.line)
  · rfl
  · intro s a t _ inOrder _ taken
    exact line_step taken inOrder

/-- What a server that simulates another machine knows about its items. -/
theorem accepted_of_simulation {σ : Type v} {α : Type w} {M : System σ α}
    {guard : σ → α → Prop} {view : σ → Server ι}
    (sim : M.Simulation guard (machine ι) fun s v => view s = v) {s : σ}
    (reached : M.Reachable guard s) : (view s).accepted = (view s).line := by
  obtain ⟨v, served, rfl⟩ := sim.reachable reached
  exact accepted_eq_line served

end Server

end Transition
