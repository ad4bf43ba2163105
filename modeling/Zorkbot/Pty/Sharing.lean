/-
# One command at a time

A manager is meant to run one command at a time, and its busy flag to say whether
one is running. Commands, starts, resets and closes may come in any order, and a
start and a reset are one operation, so a reset is a `Desk.Act.start`.

The flag is set by a command and cleared twice: by the command's deferred
function, and by every start that succeeds. A restart after a timeout is such a
start, and it runs while its own command has not returned. From then on the flag
is clear with a command inside, and the next one is let in beside it.
-/

import Zorkbot.Pty.Processes
import Zorkbot.Pty.Responses

namespace Zorkbot.Pty

open Go Transition Function

variable {G : Type}

/-- A start that is over and has succeeded. -/
def Manager.Boot.ok : Manager.Boot → Bool
  | .started => true
  | _ => false

/-- The round with which a start succeeds: its prompt was read, and nothing more
comes. -/
def lastRound (buf : Text) : Session.Poll → Bool
  | .idle | .readError _ => hasPrompt buf
  | _ => false

theorem Session.readUntil_last {s s' : Session G} {buf : Text} {poll : Session.Poll}
    {round : Session.Round} (read : s.readUntil .prompt buf poll = some (s', round)) :
    (∃ raw, round = .done raw) ↔ lastRound buf poll = true := by
  cases poll with
  | cancelled | deadline =>
      cases read
      simp [lastRound]
  | unavailable | data n =>
      simp only [Session.readUntil, Option.ite_none_right_eq_some, Option.some.injEq,
        Prod.mk.injEq] at read
      simp [← read.2.2, lastRound]
  | idle =>
      simp only [Session.readUntil, Option.ite_none_right_eq_some, Option.some.injEq,
        Prod.mk.injEq] at read
      simpa [← read.2.2, lastRound, Want.ready] using read.1.2.2.2
  | readError err =>
      simp only [Session.readUntil, Option.ite_none_right_eq_some] at read
      obtain ⟨-, read⟩ := read
      split at read
      · next accepted =>
          cases read
          simpa [lastRound, Want.ready] using accepted
      · next refused =>
          cases read
          simpa [lastRound, Want.ready] using refused

/-- A command that waits for its restart sees it succeed. -/
def Manager.Move.last (move : Manager.Move) (buf : Text) : Bool :=
  match move with
  | .poll round => lastRound buf round
  | _ => false

namespace Manager

variable {I : Interpreter G} {path : Text} {c i : Nat} {buf : Text} {m m' : Manager G}
  {d d' : Disk G}

theorem boot_ok {poll : Session.Poll} {b : Boot} (round : m.boot i buf poll = some (m', b)) :
    b.ok = lastRound buf poll := by
  unfold boot at round
  split at round
  · simp at round
  · split at round
    · simp at round
    · next read =>
        cases round
        simpa [Boot.ok] using Session.readUntil_last read
    · next read =>
        cases round
        exact ((Session.readUntil_last read).mp ⟨_, rfl⟩).symm
    · next read =>
        cases round
        simpa [Boot.ok] using Session.readUntil_last read

theorem boot_busy {poll : Session.Poll} {b : Boot} (round : m.boot i buf poll = some (m', b)) :
    m'.busy = (m.busy && !lastRound buf poll) := by
  rw [← boot_ok round]
  cases boots round with
  | read | failed => exact (Bool.and_true _).symm
  | started => exact (Bool.and_false _).symm

theorem launch_busy {spawn : Spawn} {j : Option Nat}
    (launched : m.launch I spawn d = some (m', d', j)) : m'.busy = m.busy := by
  cases j with
  | none =>
      obtain ⟨-, rfl, -⟩ := launch_refused launched
      exact closeCurrent_busy m
  | some j =>
      obtain ⟨-, -, -, rfl⟩ := launch_started launched
      exact closeCurrent_busy m

theorem env_busy {event : Env} (happened : m.env I path event d = some (m', d')) :
    m'.busy = m.busy := by
  cases happens happened <;> rfl

/-- A command that goes on clears the flag when its restart succeeds. -/
theorem advance_busy {call call' : Call} {move : Move}
    (advanced : m.advance I path c call move d = some (m', d', .inside call')) :
    m'.busy = (m.busy && !call.phase.boot?.any fun b => move.last b.2) := by
  have idle (unbooted : call.phase.boot? = none) (kept : m'.busy = m.busy) :
      m'.busy = (m.busy && !call.phase.boot?.any fun b => move.last b.2) := by
    simp [unbooted, kept]
  have booting {j : Nat} {buf : Text} (phase : call.phase = .booting j buf) :
      m'.busy = (m.busy && !call.phase.boot?.any fun b => move.last b.2) := by
    rw [phase]
    unfold advance at advanced
    cases move with
    | poll poll =>
        simp only [phase] at advanced
        split at advanced
        · simp at advanced
        · next round => cases advanced; exact boot_busy round
        · next round => cases advanced; exact boot_busy round
    | _ => simp [phase] at advanced
  cases advances advanced with
  | booting phase | booted phase => exact booting phase
  | relaunched phase launched | unlaunched phase launched =>
      exact idle (by simp [phase, Phase.boot?]) (launch_busy launched)
  | notReady phase | unwritten phase | wrote phase | read phase | settled phase | gaveUp phase
  | answered phase | unnamed phase | named phase => exact idle (by simp [phase, Phase.boot?]) rfl

end Manager

namespace Shared

/-- What happens next at a manager: something its users or the terminals do, or
`Manager.Close`. -/
inductive Act
  | desk (act : Desk.Act)
  | close
  deriving DecidableEq

def step (I : Interpreter G) (path : Text) (s : Desk G) : Act → Option (Desk G)
  | .desk act => s.step I path act
  | .close => s.manager.close.map fun m => { s with manager := m }

end Shared

/-- The runs of one manager that may also be closed. -/
def shared (I : Interpreter G) (path : Text) : System (Desk G) Shared.Act :=
  ⟨.init, Shared.step I path⟩

namespace Shared

variable {I : Interpreter G} {path : Text} {s t : Desk G} {a : Act}

/-- What one step can do. -/
inductive Steps (I : Interpreter G) (path : Text) (s : Desk G) : Act → Desk G → Prop
  | desk {act : Desk.Act} {t : Desk G} (step : Desk.Steps I path s act t) :
      Steps I path s (.desk act) t
  | closes {m : Manager G} (closed : s.manager.close = some m) :
      Steps I path s .close ⟨m, s.disk, s.tasks⟩

theorem steps (taken : step I path s a = some t) : Steps I path s a t := by
  cases a with
  | desk act => exact .desk (Desk.steps taken)
  | close =>
      obtain ⟨m, closed, rfl⟩ := Option.map_eq_some_iff.mp taken
      exact .closes closed

/-- The step lets a start succeed. -/
def completes (s : Desk G) : Act → Bool
  | .desk (.poll c poll) => (s.boots c).any fun b => lastRound b.2 poll
  | .desk (.move c move) => (s.boots c).any fun b => move.last b.2
  | _ => false

/-- No start succeeds while a command is in progress. -/
def InTurn (s : Desk G) (a : Act) : Prop :=
  completes s a = true → ∀ c task, s.tasks.get c = some task → task.call? = none

instance (s : Desk G) (a : Act) : Decidable (InTurn s a) :=
  inferInstanceAs (Decidable (_ → _))

/-- At most one command is between setting the busy flag and clearing it, and the
flag is set exactly when one is. -/
structure OneAtATime (s : Desk G) : Prop where
  one : ∀ c c', (s.calls c).isSome → (s.calls c').isSome → c = c'
  busy : s.manager.busy = true ↔ ∃ c, (s.calls c).isSome

theorem oneAtATime_init : OneAtATime (Desk.init : Desk G) where
  one c c' inside := by simp [Desk.init, Desk.calls] at inside
  busy := by simp [Desk.init, Desk.calls, Manager.new]

theorem inTurn_iff : InTurn s a ↔ (completes s a = true → ∀ c, (s.calls c).isSome = false) := by
  refine forall_congr' fun _ => forall_congr' fun c => ?_
  cases found : s.tasks.get c <;> simp [Desk.calls, found]

/-- A step that lets no command in or out clears the flag if it lets a start
succeed. -/
theorem OneAtATime.iff_inTurn (one : OneAtATime s)
    (calls : ∀ c, (t.calls c).isSome = (s.calls c).isSome)
    (busy : t.manager.busy = (s.manager.busy && !completes s a)) : OneAtATime t ↔ InTurn s a := by
  rw [inTurn_iff]
  constructor
  · intro after completed c
    have clear : t.manager.busy = false := by rw [busy, completed]; simp
    cases inside : (s.calls c).isSome with
    | false => rfl
    | true =>
        have set_ := after.busy.mpr ⟨c, (calls c).trans inside⟩
        rw [clear] at set_
        exact set_.symm
  · intro turn
    refine ⟨fun c c' => ?_, ?_⟩
    · rw [calls, calls]
      exact one.one c c'
    · simp only [calls, ← one.busy]
      rw [busy]
      cases completed : completes s a with
      | false => simp
      | true =>
          have clear : s.manager.busy ≠ true := fun set_ => by
            obtain ⟨c, inside⟩ := one.busy.mp set_
            simp [turn completed c] at inside
          simpa using clear

/-- While commands and starts take turns, every step keeps to one command at a
time, and no other step does. -/
theorem oneAtATime_step_iff (one : OneAtATime s) (step : Steps I path s a t) :
    OneAtATime t ↔ InTurn s a := by
  -- A goroutine that was in no command and is in none now.
  have apart {m : Manager G} {d : Disk G} {c : Nat} {task : Task} (before : s.calls c = none)
      (after : task.call? = none) (c' : Nat) :
      (Desk.calls ⟨m, d, s.tasks.set c task⟩ c').isSome = (s.calls c').isSome := by
    rw [Desk.calls_set, after, update_eq_self_iff.mpr before.symm]
  cases step with
  | closes closed =>
      obtain ⟨-, rfl⟩ := Manager.close_eq_some.mp closed
      refine one.iff_inTurn (fun _ => rfl) ?_
      exact (Manager.closeCurrent_busy s.manager).trans (Bool.and_true _).symm
  | desk step =>
      cases step with
      | @enters c text m stage new entered =>
          obtain ⟨-, ⟨err, rfl, rfl, -⟩ | ⟨i, clear, -, rfl, rfl⟩⟩ := Manager.enter_cases entered
          · exact one.iff_inTurn (apart (Desk.calls_new new) rfl) (Bool.and_true _).symm
          · have none_ (c' : Nat) : ¬ (s.calls c').isSome := fun inside => by
              have set_ := one.busy.mpr ⟨c', inside⟩
              rw [clear] at set_
              simp at set_
            refine iff_of_true ⟨fun c₁ c₂ => ?_, ?_⟩ fun completed => ?_
            · rw [Desk.calls_set, update_apply, update_apply]
              intro first second
              split at first
              · split at second
                · next here there => exact here.trans there.symm
                · exact absurd second (none_ c₂)
              · exact absurd first (none_ c₁)
            · refine iff_of_true rfl ⟨c, ?_⟩
              rw [Desk.calls_set, update_self]
              rfl
            · simp [completes] at completed
      | @moves c text call move m d stage here advanced =>
          have called : s.calls c = some call := Desk.calls_get here
          have booting : s.boots c = call.phase.boot? := Desk.boots_get here
          cases stage with
          | inside call' =>
              refine one.iff_inTurn (fun c' => ?_) ?_
              · rw [Desk.calls_set, update_apply]
                split
                · next same => rw [same, called]; rfl
                · rfl
              · rw [completes, booting]
                exact Manager.advance_busy advanced
          | outside r =>
              obtain ⟨phase, rfl⟩ := Manager.left_cases (Manager.advances advanced)
              have none_ (c' : Nat) : update s.calls c none c' = none := by
                by_cases same : c' = c
                · rw [same, update_self]
                · rw [update_of_ne same, ← Option.not_isSome_iff_eq_none]
                  exact fun inside => same (one.one c' c inside (by rw [called]; rfl))
              refine iff_of_true ⟨fun c₁ c₂ inside => ?_, ?_⟩ fun completed => ?_
              · rw [Desk.calls_set, Task.call?, Stage.call?, none_] at inside
                simp at inside
              · rw [Desk.calls_set, Task.call?, Stage.call?]
                simp [none_]
              · simp [completes, booting, phase, Phase.boot?] at completed
      | starts new launched | unstarted new launched =>
          exact one.iff_inTurn (apart (Desk.calls_new new) rfl)
            ((Manager.launch_busy launched).trans (Bool.and_true _).symm)
      | @polls c i buf poll m b here round =>
          have booting : s.boots c = some (i, buf) := Desk.boots_get here
          refine one.iff_inTurn (apart (Desk.calls_get here) (by simp)) ?_
          rw [completes, booting]
          exact Manager.boot_busy round
      | happens happened =>
          exact one.iff_inTurn (fun _ => rfl)
            ((Manager.env_busy happened).trans (Bool.and_true _).symm)

end Shared

open Shared

/-- In every run in which no start succeeds while a command is in progress, at
most one command is inside at any time and the busy flag says whether one is. The
first step that is out of turn ends that. -/
theorem one_command_iff {I : Interpreter G} {path : Text} {s t : Desk G} {a : Shared.Act}
    (reached : (shared I path).Reachable InTurn s) (taken : Shared.step I path s a = some t) :
    OneAtATime s ∧ (OneAtATime t ↔ InTurn s a) := by
  have one : OneAtATime s :=
    reached.invariant oneAtATime_init fun _ _ _ _ one turn taken =>
      (oneAtATime_step_iff one (steps taken)).mpr turn
  exact ⟨one, oneAtATime_step_iff one (steps taken)⟩

namespace Shared

/-- The manager starts its session, and a command is sent. -/
def asking : List Act :=
  (Desk.opening ++ [Desk.Act.enter 1 look, .move 1 .write]).map .desk

/-- The command times out, and the restart has read its new session's prompt. -/
def restarting : List Act :=
  asking ++ [Desk.Act.move 1 (.poll .deadline), .move 1 (.relaunch .ok), .env (.deliver 1 19),
    .move 1 (.poll (.data 19))].map Act.desk

end Shared

theorem one_command_iff_look :
    ∃ s t : Desk (List Text), (s.calls 1).isSome = true ∧
      Shared.step parrot perch s (.desk (.env (.consume 0 true))) = some t ∧
        OneAtATime s ∧ OneAtATime t := by
  obtain ⟨s, reached, inside, taken⟩ := System.reaches (shared parrot perch) InTurn
    (fun s => (s.calls 1).isSome = true ∧
      (Shared.step parrot perch s (.desk (.env (.consume 0 true)))).isSome = true)
    asking (fun _ _ _ => trivial) (by decide)
  obtain ⟨t, taken⟩ := Option.isSome_iff_exists.mp taken
  have turns := one_command_iff (reached.mono fun _ _ => And.left) taken
  refine ⟨s, t, inside, taken, turns.1, turns.2.mpr fun completed => ?_⟩
  simp [completes] at completed

theorem two_commands_inside :
    ∃ s, (shared parrot perch).Reachable (fun _ _ => True) s ∧ ¬ OneAtATime s ∧
      (s.calls 1).isSome = true ∧ (s.calls 2).isSome = true := by
  obtain ⟨s, reached, first, second⟩ := System.reaches (shared parrot perch) (fun _ _ => True)
    (fun s => (s.calls 1).isSome = true ∧ (s.calls 2).isSome = true)
    (restarting ++ [.desk (.move 1 (.poll .idle)), .desk (.enter 2 wait)])
    (fun _ _ _ => trivial) (by decide)
  refine ⟨s, reached.mono fun _ _ => And.right, fun one => ?_, first, second⟩
  exact absurd (one.one 1 2 first second) (by decide)

end Zorkbot.Pty
