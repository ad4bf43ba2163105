/-
# The lane of one player

A player's worker and queue together are in one of five situations. Every step
of the gate moves the lane of one player between them and leaves the lanes of
all others alone; that a queue is never stranded, that nobody has two workers and
that only interrupts wait behind a response are read off the five.
-/

import Zorkbot.Bot.Gate

namespace Zorkbot.Bot

open Transition

namespace Gate

variable {s t : Gate}

/-! ## What the operations do to a lane -/

@[simp]
theorem drop_queue (i : Item) (r : RejectReason) (s : Gate) (p : Str) :
    (s.drop i r).queue p = s.queue p := rfl

@[simp]
theorem drop_worker (i : Item) (r : RejectReason) (s : Gate) (p : Str) :
    (s.drop i r).worker p = s.worker p := rfl

theorem put_queue (i : Item) (s : Gate) (p : Str) :
    (s.put i).queue p = if p = i.player then s.queue i.player ++ [i] else s.queue p := by
  simp only [queue, put, Table.get_set]
  split <;> simp

@[simp]
theorem put_worker (i : Item) (s : Gate) (p : Str) : (s.put i).worker p = s.worker p := rfl

@[simp]
theorem employ_queue (p q : Str) (s : Gate) : (s.employ p).queue q = s.queue q := rfl

@[simp]
theorem setTask_queue (n : Nat) (w : Worker) (s : Gate) (p : Str) :
    (s.setTask n w).queue p = s.queue p := rfl

theorem employ_worker (staffed : s.workers.Staffed (· ≠ .done)) (p q : Str) :
    (s.employ p).worker q = if q = p then some .created else s.worker q :=
  Roster.current_hire staffed p q .created

theorem setTask_worker (staffed : s.workers.Staffed (· ≠ .done)) {n : Nat} {p : Str} {v : Worker}
    (w : Worker) (there : s.workers.task n = some (p, v)) (live : v ≠ .done) (q : Str) :
    (s.setTask n w).worker q = if q = p then some w else s.worker q :=
  Roster.current_move staffed w there live q

/-- A worker is created for a player who has none at work. -/
theorem staffed_employ (staffed : s.workers.Staffed (· ≠ .done)) {p : Str} (free : s.busy p = false) :
    (s.employ p).workers.Staffed (· ≠ .done) := by
  apply staffed.hire
  intro v now
  unfold busy worker at free
  simpa [now] using free

/-! ## The five situations -/

/-- What the worker and the queue of a player look like together. -/
inductive Lane (p : Str) : Option Worker → List Item → Prop
  | unknown : Lane p none []
  | past : Lane p (some .done) []
  /-- The worker was created for this command and has not run yet. -/
  | fresh {i : Item} (own : i.player = p) : Lane p (some .created) [i]
  | answering {i : Item} (own : i.player = p) : Lane p (some (.handling i)) []
  | interrupted {i j : Item} (own : i.player = p) (next : j.player = p)
      (interrupts : j.interrupts = true) : Lane p (some (.handling i)) [j]

structure Sound (s : Gate) : Prop where
  staffed : s.workers.Staffed (· ≠ .done)
  lane : ∀ p, Lane p (s.worker p) (s.queue p)

/-- A queue is empty unless its player's worker is live. -/
theorem Sound.queue_eq_nil (sound : s.Sound) {p : Str} (free : s.busy p = false) :
    s.queue p = [] := by
  have lane := sound.lane p
  unfold busy at free
  cases w : s.worker p <;> cases q : s.queue p <;> rw [w, q] at lane <;> cases lane <;>
    simp_all

/-! ## The steps -/

/-- The state of the gate when a call of `enqueue` looks at it. -/
def counted (s : Gate) : Gate := { s with calls := s.calls + 1 }

@[simp]
theorem counted_lane (s : Gate) (p : Str) :
    s.counted.worker p = s.worker p ∧ s.counted.queue p = s.queue p := ⟨rfl, rfl⟩

/-- The item a call of `enqueue` is about. -/
def arriving (s : Gate) (ctx : Context) (command restArgs : Str) : Item :=
  ⟨ctx, command, restArgs, s.calls⟩

/-- The four ways a call of `enqueue` goes. -/
inductive Enqueues (s : Gate) (i : Item) : Gate → Bool → Prop
  | refused (busy : s.busy i.player = true) (plain : i.interrupts = false) :
      Enqueues s i (s.counted.drop i .responsePending) false
  | crowded (busy : s.busy i.player = true) (interrupts : i.interrupts = true)
      (full : s.queue i.player ≠ []) : Enqueues s i (s.counted.drop i .queueFull) false
  | behind (busy : s.busy i.player = true) (interrupts : i.interrupts = true)
      (empty : s.queue i.player = []) : Enqueues s i (s.counted.put i) true
  | first (free : s.busy i.player = false) (empty : s.queue i.player = []) :
      Enqueues s i ((s.counted.put i).employ i.player) true

theorem enqueue_cases (sound : s.Sound) {ctx : Context} {command restArgs : Str} {answer : Bool}
    (called : s.enqueue ctx command restArgs = (t, answer)) :
    Enqueues s (s.arriving ctx command restArgs) t answer := by
  generalize arrival : s.arriving ctx command restArgs = i
  have unfolded : s.enqueue ctx command restArgs =
      if s.busy i.player && !i.interrupts then (s.counted.drop i .responsePending, false)
      else if maxsize ≤ (s.queue i.player).length then (s.counted.drop i .queueFull, false)
      else if s.busy i.player then (s.counted.put i, true)
      else ((s.counted.put i).employ i.player, true) := by
    subst arrival
    rfl
  rw [unfolded] at called
  cases busy : s.busy i.player with
  | false =>
      have empty := sound.queue_eq_nil busy
      simp [busy, empty, maxsize] at called
      obtain ⟨rfl, rfl⟩ := called
      exact .first busy empty
  | true =>
      cases interrupts : i.interrupts with
      | false =>
          simp [busy, interrupts] at called
          obtain ⟨rfl, rfl⟩ := called
          exact .refused busy interrupts
      | true =>
          cases waiting : s.queue i.player with
          | nil =>
              simp [busy, interrupts, waiting, maxsize] at called
              obtain ⟨rfl, rfl⟩ := called
              exact .behind busy interrupts waiting
          | cons j rest =>
              simp [busy, interrupts, waiting, maxsize] at called
              obtain ⟨rfl, rfl⟩ := called
              exact .crowded busy interrupts (by simp [waiting])

/-- What one step of the gate can do. -/
inductive Steps (s : Gate) : Act → Gate → Prop
  | dispatches {ctx : Context} {command restArgs : Str} {t : Gate} {answer : Bool}
      (outcome : Enqueues s (s.arriving ctx command restArgs) t answer) :
      Steps s (.dispatch ctx command restArgs) t
  | begins {n : Nat} {p : Str} {i : Item} (there : s.workers.task n = some (p, .created))
      (line : s.queue p = [i]) : Steps s (.begin n) (s.take n p i [])
  | rests {n : Nat} {p : Str} {i : Item} {outcome : Outcome}
      (there : s.workers.task n = some (p, .handling i)) (line : s.queue p = []) :
      Steps s (.finish n outcome) ((s.ended i).setTask n .done)
  | continues {n : Nat} {p : Str} {i j : Item} {outcome : Outcome}
      (there : s.workers.task n = some (p, .handling i)) (line : s.queue p = [j])
      (interrupts : j.interrupts = true) :
      Steps s (.finish n outcome) ((s.ended i).take n p j [])

theorem gate_steps (sound : s.Sound) {a : Act} (taken : s.step a = some t) : Steps s a t := by
  cases a with
  | dispatch ctx command restArgs =>
      cases called : s.enqueue ctx command restArgs with
      | mk u answer =>
          simp only [step, called, Option.some.injEq] at taken
          subst taken
          exact .dispatches (enqueue_cases sound called)
  | begin n =>
      simp only [step] at taken
      split at taken
      · next p there =>
          have lane := sound.lane p
          rw [worker, sound.staffed.current there (by simp)] at lane
          simp only [Option.some.injEq, turn] at taken
          generalize line : s.queue p = waiting at lane taken
          cases lane
          exact taken ▸ .begins there line
      · simp at taken
  | finish n outcome =>
      simp only [step] at taken
      split at taken
      · next p i there =>
          have lane := sound.lane p
          rw [worker, sound.staffed.current there (by simp)] at lane
          have same : (s.ended i).queue p = s.queue p := rfl
          simp only [Option.some.injEq, turn, same] at taken
          generalize line : s.queue p = waiting at lane taken
          cases lane with
          | answering => exact taken ▸ .rests there line
          | interrupted _ _ interrupts => exact taken ▸ .continues there line interrupts
      · simp at taken

/-! ## The invariant -/

theorem take_worker (staffed : s.workers.Staffed (· ≠ .done)) {n : Nat} {p : Str} {v : Worker}
    (i : Item) (rest : List Item) (there : s.workers.task n = some (p, v)) (live : v ≠ .done)
    (q : Str) :
    (s.take n p i rest).worker q = if q = p then some (.handling i) else s.worker q :=
  Roster.current_move staffed (.handling i) there live q

theorem take_queue (n : Nat) (p : Str) (i : Item) (rest : List Item) (s : Gate) (q : Str) :
    (s.take n p i rest).queue q = if q = p then rest else s.queue q := by
  simp only [queue, Gate.take, pull, setTask, Table.get_set]
  split <;> simp

/-- A busy player whose queue is empty has a worker inside a handler. -/
theorem Sound.answering (sound : s.Sound) {p : Str} (busy : s.busy p = true)
    (empty : s.queue p = []) : ∃ i, i.player = p ∧ s.worker p = some (.handling i) := by
  have lane := sound.lane p
  unfold Gate.busy at busy
  rw [empty] at lane
  generalize s.worker p = w at lane busy
  cases lane with
  | unknown | past => simp at busy
  | answering own => exact ⟨_, own, rfl⟩

theorem sound_enqueue (sound : s.Sound) {i : Item} {answer : Bool}
    (outcome : Enqueues s i t answer) : t.Sound := by
  cases outcome with
  | refused | crowded => exact ⟨sound.staffed, sound.lane⟩
  | behind busy interrupts empty =>
      constructor
      · exact sound.staffed
      · intro p
        rw [put_worker, put_queue]
        split
        · next same =>
            subst same
            obtain ⟨j, own, handling⟩ := sound.answering busy empty
            simp only [counted_lane, handling, empty, List.nil_append]
            exact .interrupted own rfl interrupts
        · exact sound.lane p
  | first free empty =>
      constructor
      · exact staffed_employ (s := s.counted.put i) sound.staffed free
      · intro p
        rw [employ_worker (s := s.counted.put i) sound.staffed, employ_queue, put_queue]
        split
        · next same =>
            subst same
            simp only [counted_lane, empty, List.nil_append]
            exact .fresh rfl
        · exact sound.lane p

theorem sound_step (sound : s.Sound) {a : Act} (taken : s.step a = some t) : t.Sound := by
  cases gate_steps sound taken with
  | dispatches outcome => exact sound_enqueue sound outcome
  | @begins n p i there line =>
      constructor
      · exact sound.staffed.move _ there (by simp)
      · intro q
        rw [take_worker sound.staffed i [] there (by simp), take_queue]
        split
        · next same =>
            subst same
            have lane := sound.lane q
            rw [worker, sound.staffed.current there (by simp), line] at lane
            cases lane with
            | fresh own => exact .answering own
        · exact sound.lane q
  | @rests n p i _ there line =>
      constructor
      · exact sound.staffed.move _ there (by simp)
      · intro q
        rw [setTask_worker (s := s.ended i) sound.staffed .done there (by simp), setTask_queue]
        split
        · next same =>
            subst same
            change Lane q _ (s.queue q)
            rw [line]
            exact .past
        · exact sound.lane q
  | @continues n p i j _ there line interrupts =>
      constructor
      · exact sound.staffed.move _ there (by simp)
      · intro q
        rw [take_worker (s := s.ended i) sound.staffed j [] there (by simp), take_queue]
        split
        · next same =>
            subst same
            have lane := sound.lane q
            rw [worker, sound.staffed.current there (by simp), line] at lane
            cases lane with
            | interrupted _ next _ => exact .answering next
        · exact sound.lane q

theorem sound_init : init.Sound := ⟨Roster.staffed_empty, fun _ => .unknown⟩

/-- Every state of every run is sound. -/
theorem sound (reached : gate.Reachable (fun _ _ => True) s) : s.Sound := by
  apply reached.invariant (motive := Sound)
  · exact sound_init
  · intro s a t _ sound _ taken
    exact sound_step sound taken

/-- The item that a live handler works on belongs to the player of its task. -/
theorem Sound.own (sound : s.Sound) {n : Nat} {p : Str} {i : Item}
    (there : s.workers.task n = some (p, .handling i)) : i.player = p := by
  have lane := sound.lane p
  rw [worker, sound.staffed.current there (by simp)] at lane
  generalize s.queue p = waiting at lane
  cases lane with
  | answering own => exact own
  | interrupted own => exact own

end Gate

end Zorkbot.Bot
