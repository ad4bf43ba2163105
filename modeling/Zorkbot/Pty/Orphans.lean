/-
# Interpreters that nobody will close

A command that times out restarts the interpreter of the manager it was sent to,
whether or not the session is still in the table. A restart after the session was
ended and its manager closed starts a process that nobody knows of.

Where a restart finds its session in the table or still to be closed, every
process that is open when all operations have returned is the current session of
an entry of the table.
-/

import Zorkbot.Pty.Holders
import Zorkbot.Pty.Lineage

namespace Zorkbot.Pty

open Go Transition

variable {G : Type}

/-- The goroutine's operation has returned. -/
def Thread.isReturned : Thread → Bool
  | .returned _ => true
  | _ => false

theorem Thread.returned_owns {here : Thread} (returned : here.isReturned = true) :
    here.owns = none := by
  cases here with
  | returned r => rfl
  | _ => simp [isReturned] at returned

theorem Thread.returned_boots {here : Thread} (returned : here.isReturned = true) (m : Nat) :
    here.boots m = none := by
  cases here with
  | returned r => rfl
  | _ => simp [isReturned] at returned

namespace Pool

variable {I : Interpreter G} {cfg : PoolConfig} {s t : Pool G} {a : Act} {p : PlayerId}

instance (s : Pool G) (p : PlayerId) (m : Nat) : Decidable (s.Holds p m) :=
  decidable_of_iff ((s.entries.get p).any (·.manager == m) = true ∨
      ∃ row ∈ s.threads.rows, row.2.owns = some (p, m)) <| by
    apply or_congr
    · simp [Option.any_eq_true]
    · constructor
      · rintro ⟨⟨c, here⟩, listed, owns⟩
        exact ⟨c, here, Table.mem_rows_iff.mp listed, owns⟩
      · rintro ⟨c, here, at_, owns⟩
        exact ⟨⟨c, here⟩, Table.mem_rows_iff.mpr at_, owns⟩

/-- A command that timed out restarts a session that is in the table, or that a
goroutine will close. -/
def RestartsHeld (s : Pool G) : Act → Prop
  | .move c (.relaunch .ok) => ∀ row ∈ s.restarts c, s.Holds row.1 row.2
  | _ => True

instance (s : Pool G) : (a : Act) → Decidable (RestartsHeld s a)
  | .move c (.relaunch .ok) => inferInstanceAs (Decidable (∀ row ∈ s.restarts c, s.Holds _ _))
  | .move _ .write | .move _ (.poll _) | .move _ .drained | .move _ .leave |
    .move _ (.relaunch .noDir) | .move _ (.relaunch .noProcess) => inferInstanceAs (Decidable True)
  | .call .. | .fire .. | .go _ | .wipe .. | .env .. => inferInstanceAs (Decidable True)

/-- No operation of the pool is in progress. -/
def Quiet (s : Pool G) : Prop :=
  ∀ (c : Nat) (here : Thread), s.threads.get c = some here → here.isReturned = true

instance (s : Pool G) : Decidable s.Quiet := by
  unfold Quiet
  infer_instance

/-- Every process that was started and not closed is the current session of the
manager of an entry, and no entry has two. -/
structure NoOrphans (s : Pool G) : Prop where
  current : ∀ p m i σ, s.At p m i σ → σ.isOpen = true →
    ∃ e mgr, s.entries.get p = some e ∧ e.manager = m ∧ s.managers[m]? = some (p, mgr) ∧
      mgr.session = some i
  sole : ∀ p e i i' σ σ', s.entries.get p = some e → s.At p e.manager i σ → σ.isOpen = true →
    s.At p e.manager i' σ' → σ'.isOpen = true → i = i'

/-- Every open process belongs to a manager that is held. -/
def Cared (s : Pool G) : Prop :=
  ∀ p m i σ, s.At p m i σ → σ.isOpen = true → s.Holds p m

theorem cared_init : Cared (init : Pool G) := by
  rintro p m i σ ⟨mgr, there, -⟩
  simp [init] at there

/-- A goroutine that restarts a session for a restore or a save holds it. -/
theorem holds_of_restart {c m : Nat} {for_ : For} {call : Call} (held : RestartsHeld s a)
    (action : a = .move c (.relaunch .ok)) (at_ : s.threads.get c = some (.calling p m for_ call))
    (phase : call.phase = .timedOut) : s.Holds p m := by
  cases for_ with
  | restore via => exact .inr ⟨c, _, at_, rfl⟩
  | save by_ => exact .inr ⟨c, _, at_, rfl⟩
  | reply =>
      subst action
      exact held (p, m) (by simp [restarts, at_, phase])

theorem cared_step (owned : Owned s) (hosted : Hosted s) (opened : Opened s) (cared : Cared s)
    (held : RestartsHeld s a) (step : Steps I cfg s a t) : Cared t := by
  intro p m i σ' now isOpen
  have stays (holds : s.Holds p m) : t.Holds p m := by
    rcases holds_step owned hosted opened step holds with still | shut
    · exact still
    · rw [shut i σ' now] at isOpen
      simp at isOpen
  rcases open_before owned step now isOpen with
    ⟨σ, was, wasOpen⟩ | ⟨c, next, after, starts⟩ | ⟨c, for_, call, action, at_, phase⟩
  · exact stays (cared p m i σ was wasOpen)
  · exact .inr ⟨c, next, after, Thread.owns_of_starts starts⟩
  · exact stays (holds_of_restart held action at_ phase)

/-- Where restarts find their sessions held, so is every open process. -/
theorem cared {guard : Pool G → Act → Prop} (held : ∀ s a, guard s a → RestartsHeld s a)
    (reached : (pool I cfg).Reachable guard s) : Cared s :=
  reached.invariant cared_init fun s a _ reached cared allowed taken =>
    cared_step (owned reached) (hosted reached) (opened reached) cared (held s a allowed)
      (pool_steps taken)

/-- Once everybody has returned, only the table holds managers. -/
theorem Quiet.listed {m : Nat} (quiet : s.Quiet) (holds : s.Holds p m) :
    ∃ e, s.entries.get p = some e ∧ e.manager = m := by
  rcases holds with listed | ⟨c, here, at_, owns⟩
  · exact listed
  · rw [Thread.returned_owns (quiet c here at_)] at owns
    simp at owns

/-- Once everybody has returned, no session is being started. -/
theorem Quiet.no_boots (quiet : s.Quiet) (m c : Nat) : s.bootsOn m c = none := by
  rw [bootsOn, Option.bind_eq_none_iff]
  exact fun here at_ => Thread.returned_boots (quiet c here at_) m

end Pool

open Pool

/-- In every run in which restarts find their sessions in the table or still to be
closed, no interpreter is left over when all operations have returned. -/
theorem no_orphans {I : Interpreter G} {cfg : PoolConfig} {s : Pool G}
    (reached : (pool I cfg).Reachable RestartsHeld s) (quiet : s.Quiet) : s.NoOrphans where
  current p m i σ now isOpen := by
    obtain ⟨e, listed, same⟩ := quiet.listed (cared (fun _ _ => id) reached p m i σ now isOpen)
    obtain ⟨mgr, there, found⟩ := now
    refine ⟨e, mgr, listed, same, there, ?_⟩
    rcases opened reached m p mgr there i σ found isOpen with ⟨c, buf, boot⟩ | ⟨current, -⟩
    · rw [quiet.no_boots m c] at boot
      simp at boot
    · exact current
  sole p e i i' σ σ' listed now isOpen now' isOpen' := by
    obtain ⟨mgr, there, found⟩ := now
    exact (opened reached e.manager p mgr there).sole (hosted reached e.manager p mgr there) found
      isOpen (now'.manager there) isOpen'

namespace Pool.Script

/-- A session is restarted after a command timed out. -/
def restarting : List Act :=
  starts alice 0 0 ++ [Act.go 0] ++ commands alice 1 look ++
    [Act.move 1 .write, .move 1 (.poll .deadline), .move 1 (.relaunch .ok), .env 0 (.deliver 1 2),
      .move 1 (.poll (.data 2)), .move 1 (.poll .idle), .move 1 .leave]

/-- A session is ended while a command that timed out is about to restart it. -/
def orphaning : List Act :=
  starts alice 0 0 ++ [Act.go 0] ++ commands alice 1 look ++
    [Act.move 1 .write, .move 1 (.poll .deadline), .call 2 (.endSession alice.text), .go 2, .go 2,
      .go 2, .move 1 (.relaunch .ok), .env 0 (.deliver 1 2), .move 1 (.poll (.data 2)),
      .move 1 (.poll .idle), .move 1 .leave]

end Pool.Script

theorem no_orphans_alice :
    ∃ s : Pool (List Text), s.Quiet ∧ (s.sessionsOf 0).map Session.isOpen = [false, true] ∧
      s.NoOrphans := by
  obtain ⟨s, reached, quiet, opened⟩ := System.reaches (pool terse smallPool)
    RestartsHeld (fun s => s.Quiet ∧ (s.sessionsOf 0).map Session.isOpen = [false, true])
    Script.restarting (fun _ _ _ => trivial) (by decide)
  exact ⟨s, quiet, opened, no_orphans (reached.mono fun _ _ => And.left) quiet⟩

theorem restart_leaves_orphan :
    ∃ s, (pool terse smallPool).Reachable (fun _ _ => True) s ∧ s.Quiet ∧ ¬ s.NoOrphans := by
  obtain ⟨s, reached, quiet, ended, left⟩ := System.reaches (pool terse smallPool)
    (fun _ _ => True)
    (fun s => s.Quiet ∧ s.entries.get alice = none ∧
      (s.managers[0]?).any fun row => row.1 == alice && (row.2.sessions[1]?).any Session.isOpen)
    Script.orphaning (fun _ _ _ => trivial) (by decide)
  refine ⟨s, reached.mono fun _ _ => And.left, quiet, fun sound => ?_⟩
  obtain ⟨⟨q, mgr⟩, there, left⟩ := (Option.any_eq_true ..).mp left
  simp only [Bool.and_eq_true, beq_iff_eq] at left
  obtain ⟨rfl, left⟩ := left
  obtain ⟨σ, found, isOpen⟩ := (Option.any_eq_true ..).mp left
  obtain ⟨e, -, listed, -⟩ := sound.current alice 0 1 σ ⟨mgr, there, found⟩ isOpen
  rw [ended] at listed
  simp at listed

end Zorkbot.Pty
