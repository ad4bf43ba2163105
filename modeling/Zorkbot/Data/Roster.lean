/-
# Tasks registered under keys

An event loop creates tasks, each for a key, and a table keeps for a key the
task that was created for it last. Tasks are never forgotten, so a task that is
still at work although the table has another one for its key is a state that can
be written down; `Staffed` says that there is none.
-/

import Zorkbot.Data.Table

universe u v

/-- The tasks of an event loop, by their number, each with its key and where it
is. -/
structure Roster (κ : Type u) (ω : Type v) where
  registered : Table κ Nat
  tasks : List (κ × ω)

namespace Roster

variable {κ : Type u} {ω : Type v}

def empty : Roster κ ω := ⟨.empty, []⟩

/-- A task, by its number. -/
def task (r : Roster κ ω) (n : Nat) : Option (κ × ω) := r.tasks[n]?

/-- A task goes on to another point. -/
def move (n : Nat) (w : ω) (r : Roster κ ω) : Roster κ ω :=
  { r with tasks := r.tasks.modify n fun task => (task.1, w) }

variable [DecidableEq κ]

/-- Where the task registered for a key is. -/
def current (r : Roster κ ω) (k : κ) : Option ω :=
  (r.registered.get k).bind fun n => (r.task n).map (·.2)

/-- A task is created for a key and registered. -/
def hire (k : κ) (w : ω) (r : Roster κ ω) : Roster κ ω where
  registered := r.registered.set k r.tasks.length
  tasks := r.tasks ++ [(k, w)]

/-- No task is registered for a key any more. -/
def dismiss (k : κ) (r : Roster κ ω) : Roster κ ω :=
  { r with registered := r.registered.erase k }

variable {r : Roster κ ω} {live : ω → Prop}

omit [DecidableEq κ] in
theorem task_move (n m : Nat) (w : ω) (r : Roster κ ω) :
    (r.move n w).task m = if n = m then (r.task m).map fun task => (task.1, w) else r.task m := by
  simp only [task, move, List.getElem?_modify]
  split <;> simp

theorem task_hire (k : κ) (w : ω) (r : Roster κ ω) (m : Nat) :
    (r.hire k w).task m = if m = r.tasks.length then some (k, w) else r.task m := by
  simp only [task, hire, List.getElem?_append]
  rcases Nat.lt_trichotomy m r.tasks.length with early | same | late
  · rw [if_pos early, if_neg (by omega)]
  · subst same
    simp
  · rw [if_neg (by omega), if_neg (by omega)]
    have beyond : [(k, w)].length ≤ m - r.tasks.length := by simp; omega
    rw [List.getElem?_eq_none beyond, List.getElem?_eq_none (by omega)]

/-- A registered task is one of its key, and a live task is registered. -/
structure Staffed (live : ω → Prop) (r : Roster κ ω) : Prop where
  registered : ∀ {k n}, r.registered.get k = some n → ∃ w, r.task n = some (k, w)
  sole : ∀ {n k w}, r.task n = some (k, w) → live w → r.registered.get k = some n

theorem staffed_empty : (empty : Roster κ ω).Staffed live :=
  ⟨fun known => by simp [empty] at known, fun there => by simp [empty, task] at there⟩

/-- The live task of a key is the one that is registered. -/
theorem Staffed.current (staffed : r.Staffed live) {n : Nat} {k : κ} {w : ω}
    (there : r.task n = some (k, w)) (active : live w) : r.current k = some w := by
  simp [Roster.current, staffed.sole there active, there]

theorem Staffed.of_current (staffed : r.Staffed live) {k : κ} {w : ω}
    (now : r.current k = some w) :
    ∃ n, r.registered.get k = some n ∧ r.task n = some (k, w) := by
  obtain ⟨n, known, at_⟩ := Option.bind_eq_some_iff.mp now
  obtain ⟨v, there⟩ := staffed.registered known
  rw [there, Option.map_some, Option.some.injEq] at at_
  subst at_
  exact ⟨n, known, there⟩

/-- A key has at most one live task. -/
theorem Staffed.unique (staffed : r.Staffed live) {n m : Nat} {k : κ} {v w : ω}
    (first : r.task n = some (k, v)) (active : live v) (second : r.task m = some (k, w))
    (alive : live w) : n = m := by
  have one := staffed.sole first active
  have two := staffed.sole second alive
  simpa [one] using two

theorem Staffed.bounded (staffed : r.Staffed live) {k : κ} {n : Nat}
    (known : r.registered.get k = some n) : n < r.tasks.length := by
  obtain ⟨w, there⟩ := staffed.registered known
  exact (List.getElem?_eq_some_iff.mp there).1

theorem current_hire (staffed : r.Staffed live) (k k' : κ) (w : ω) :
    (r.hire k w).current k' = if k' = k then some w else r.current k' := by
  simp only [current, task_hire]
  simp only [hire, Table.get_set]
  split
  · simp
  · cases known : r.registered.get k' with
    | none => rfl
    | some n =>
        have early := staffed.bounded known
        simp [Nat.ne_of_lt early]

/-- What the registered task of one key does is not seen at another. -/
theorem current_move_of_ne (staffed : r.Staffed live) {n : Nat} {k : κ} {v : ω} (w : ω)
    (there : r.task n = some (k, v)) {k' : κ} (other : k' ≠ k) :
    (r.move n w).current k' = r.current k' := by
  simp only [current, task_move]
  change (r.registered.get k').bind _ = _
  cases known : r.registered.get k' with
  | none => rfl
  | some m =>
      have apart : n ≠ m := by
        rintro rfl
        obtain ⟨u, again⟩ := staffed.registered known
        rw [there, Option.some.injEq, Prod.mk.injEq] at again
        exact other again.1.symm
      simp [apart]

theorem current_move (staffed : r.Staffed live) {n : Nat} {k : κ} {v : ω} (w : ω)
    (there : r.task n = some (k, v)) (active : live v) (k' : κ) :
    (r.move n w).current k' = if k' = k then some w else r.current k' := by
  split
  · next same =>
      have mine : r.registered.get k = some n := staffed.sole there active
      simp only [current, task_move]
      change (r.registered.get k').bind _ = _
      simp [same, mine, there]
  · next other => exact current_move_of_ne staffed w there other

theorem current_dismiss (r : Roster κ ω) (k k' : κ) :
    (r.dismiss k).current k' = if k' = k then none else r.current k' := by
  simp only [current, dismiss, Table.get_erase]
  split <;> rfl

/-- A task may be hired for a key whose current task is not at work. -/
theorem Staffed.hire (staffed : r.Staffed live) {k : κ} (w : ω)
    (free : ∀ v, r.current k = some v → ¬ live v) : (r.hire k w).Staffed live := by
  constructor
  · intro k' n known
    simp only [task_hire]
    simp only [Roster.hire, Table.get_set] at known
    split at known
    · next same =>
        simp only [Option.some.injEq] at known
        exact ⟨w, by simp [known, same]⟩
    · have early := staffed.bounded known
      obtain ⟨v, there⟩ := staffed.registered known
      exact ⟨v, by simp [Nat.ne_of_lt early, there]⟩
  · intro n k' v there active
    rw [task_hire] at there
    simp only [Roster.hire, Table.get_set]
    split at there
    · next newest =>
        simp only [Option.some.injEq, Prod.mk.injEq] at there
        rw [if_pos there.1.symm, newest]
    · split
      · next same =>
          subst same
          exact absurd active (free v (staffed.current there active))
      · exact staffed.sole there active

theorem Staffed.move (staffed : r.Staffed live) {n : Nat} {k : κ} {v : ω} (w : ω)
    (there : r.task n = some (k, v)) (active : live v) : (r.move n w).Staffed live := by
  constructor
  · intro k' m known
    obtain ⟨u, before⟩ := staffed.registered known
    rw [task_move, before]
    split <;> simp
  · intro m k' u after alive
    rw [task_move] at after
    split at after
    · next same =>
        subst same
        simp only [there, Option.map_some, Option.some.injEq, Prod.mk.injEq] at after
        rw [← after.1]
        exact staffed.sole there active
    · exact staffed.sole after alive

/-- A task that goes to where it is not at work breaks nothing. -/
theorem Staffed.retire (staffed : r.Staffed live) (n : Nat) {w : ω} (idle : ¬ live w) :
    (r.move n w).Staffed live := by
  constructor
  · intro k m known
    obtain ⟨u, before⟩ := staffed.registered known
    rw [task_move, before]
    split <;> simp
  · intro m k u after alive
    rw [task_move] at after
    split at after
    · next same =>
        obtain ⟨task, -, gone⟩ := Option.map_eq_some_iff.mp after
        rw [Prod.mk.injEq] at gone
        exact absurd alive (gone.2 ▸ idle)
    · exact staffed.sole after alive

/-- What a task does that is not the registered one of its key is not seen. -/
theorem current_move_replaced (staffed : r.Staffed live) {n : Nat} {k : κ} {v : ω} (w : ω)
    (there : r.task n = some (k, v)) (replaced : r.registered.get k ≠ some n) (k' : κ) :
    (r.move n w).current k' = r.current k' := by
  simp only [current, task_move]
  change (r.registered.get k').bind _ = _
  cases known : r.registered.get k' with
  | none => rfl
  | some m =>
      have apart : n ≠ m := by
        rintro rfl
        obtain ⟨u, again⟩ := staffed.registered known
        rw [there, Option.some.injEq, Prod.mk.injEq] at again
        exact replaced (again.1 ▸ known)
      simp [apart]

/-- The task registered for a key may be dismissed when it is not at work. -/
theorem Staffed.dismiss (staffed : r.Staffed live) {k : κ}
    (free : ∀ v, r.current k = some v → ¬ live v) : (r.dismiss k).Staffed live := by
  constructor
  · intro k' n known
    simp only [Roster.dismiss, Table.get_erase] at known
    split at known
    · simp at known
    · exact staffed.registered known
  · intro n k' v there active
    simp only [Roster.dismiss, Table.get_erase]
    split
    · next same =>
        subst same
        exact absurd active (free v (staffed.current there active))
    · exact staffed.sole there active

end Roster
