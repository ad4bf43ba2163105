/-
# Commands to a dead interpreter

`Session.Alive` reads `cmd.ProcessState`, which only `Cmd.Wait` sets. `Close`
waits for the process itself and nothing else ever waits, so a session is alive
for as long as the manager holds it, whether its interpreter runs, has exited, or
was killed by a restart that then failed.

What a command is turned away for is therefore that the manager is busy or that
it holds no session. Any other command goes on to the terminal, and either writes
to it or is told that this cannot be done.
-/

import Zorkbot.Pty.Sharing

namespace Zorkbot.Pty

open Go Transition Function

variable {G : Type} {I : Interpreter G} {path : Text}

/-! ## What was written -/

namespace Session

/-- Every line that was written to the terminal, oldest first, with its writer. -/
def written (s : Session G) : List (Nat × Text) :=
  (s.transcript.map fun row => (row.1, row.2.1)).reverse ++ s.input

/-- A line that is read stays written. -/
theorem consume_written {s s' : Session G} {d d' : Disk G} {ok : Bool}
    (consumed : s.consume I path ok d = some (s', d')) : s'.written = s.written := by
  obtain ⟨-, c, line, rest, _, _, _, _, _, pending, rfl⟩ := consume_cases consumed
  simp [written, pending]

theorem writeLines_written (s : Session G) (c : Nat) (text : Text) :
    (s.writeLines c text).written = s.written ++ (splitLines text).map (c, ·) := by
  simp [written, writeLines]

theorem spawn_written (wipes : Nat) : (spawn I wipes).written = [] := rfl

end Session

namespace Manager

/-- A goroutine wrote to a terminal. -/
def Wrote (c : Nat) (m : Manager G) : Prop := ∃ s ∈ m.sessions, ∃ row ∈ s.written, row.1 = c

instance (c : Nat) (m : Manager G) : Decidable (m.Wrote c) :=
  inferInstanceAs (Decidable (∃ s ∈ m.sessions, ∃ row ∈ s.written, row.1 = c))

variable {m m' : Manager G} {d d' : Disk G} {c c' i : Nat} {s : Session G}

/-- A session keeps what was written to it, and may get more rows. -/
theorem wrote_onSession {f : Session G → Session G} {rows : List (Nat × Text)}
    (there : m.sessions[i]? = some s) (adds : (f s).written = s.written ++ rows) :
    (m.onSession i f).Wrote c ↔ m.Wrote c ∨ ∃ row ∈ rows, row.1 = c := by
  constructor
  · rintro ⟨t, listed, row, mem, by_⟩
    obtain ⟨j, found⟩ := List.mem_iff_getElem?.mp listed
    rcases Hosts.onSession_cases found with ⟨s', there', -, rfl⟩ | ⟨-, found⟩
    · rw [there, Option.some.injEq] at there'
      subst there'
      rw [adds, List.mem_append] at mem
      rcases mem with old | new
      · exact .inl ⟨s, List.mem_of_getElem? there, row, old, by_⟩
      · exact .inr ⟨row, new, by_⟩
    · exact .inl ⟨t, List.mem_of_getElem? found, row, mem, by_⟩
  · have changed := onSession_there there f
    rintro (⟨t, listed, row, mem, by_⟩ | ⟨row, mem, by_⟩)
    · obtain ⟨j, found⟩ := List.mem_iff_getElem?.mp listed
      by_cases here : i = j
      · subst here
        rw [there, Option.some.injEq] at found
        subst found
        refine ⟨f s, List.mem_of_getElem? changed, row, ?_, by_⟩
        rw [adds]
        exact List.mem_append_left _ mem
      · refine ⟨t, List.mem_of_getElem? (i := j) ?_, row, mem, by_⟩
        rw [onSession_get, if_neg here, found]
    · refine ⟨f s, List.mem_of_getElem? changed, row, ?_, by_⟩
      rw [adds]
      exact List.mem_append_right _ mem

theorem wrote_onSession_same {f : Session G → Session G}
    (keeps : ∀ s, m.sessions[i]? = some s → (f s).written = s.written) :
    (m.onSession i f).Wrote c ↔ m.Wrote c := by
  cases there : m.sessions[i]? with
  | some s =>
      have adds : (f s).written = s.written ++ [] := by rw [keeps s there, List.append_nil]
      simpa using wrote_onSession (c := c) there adds
  | none =>
      have same : (m.onSession i f).sessions = m.sessions :=
        List.modify_eq_self (List.getElem?_eq_none_iff.mp there)
      rw [Wrote, same]
      rfl

theorem wrote_closeCurrent : m.closeCurrent.Wrote c ↔ m.Wrote c := by
  unfold closeCurrent
  split
  · exact wrote_onSession_same fun _ _ => rfl
  · exact Iff.rfl

theorem wrote_launch {spawn : Spawn} {j : Option Nat}
    (launched : m.launch I spawn d = some (m', d', j)) : m'.Wrote c ↔ m.Wrote c := by
  cases j with
  | none =>
      obtain ⟨-, rfl, -⟩ := launch_refused launched
      exact wrote_closeCurrent
  | some j =>
      obtain ⟨-, -, -, rfl⟩ := launch_started launched
      rw [← wrote_closeCurrent (m := m)]
      simp [Wrote, Session.spawn_written, or_and_right, exists_or]

theorem wrote_boot {buf : Text} {b : Boot} (round : Boots i buf m m' b) :
    m'.Wrote c ↔ m.Wrote c := by
  have same {s : Session G} (there : m.sessions[i]? = some s) {s' : Session G}
      (kept : s'.written = s.written) (t : Session G) (found : m.sessions[i]? = some t) :
      s'.written = t.written := by
    rw [there, Option.some.injEq] at found
    rw [kept, found]
  cases round with
  | read there => exact wrote_onSession_same (same there rfl)
  | started there => exact wrote_onSession_same (same there rfl)
  | failed there => exact wrote_onSession_same (same there rfl)

theorem wrote_env {event : Env} (happened : m.env I path event d = some (m', d')) :
    m'.Wrote c ↔ m.Wrote c := by
  cases happens happened with
  | consumed there read =>
      refine wrote_onSession_same fun t found => ?_
      rw [there, Option.some.injEq] at found
      exact found ▸ Session.consume_written read
  | delivered | exited => exact wrote_onSession_same fun _ _ => rfl

theorem wrote_enter {text : Text} {stage : Stage} (entered : m.enter text = some (m', stage)) :
    m'.Wrote c ↔ m.Wrote c := by
  obtain ⟨-, ⟨_, rfl, -, -⟩ | ⟨_, -, -, rfl, -⟩⟩ := enter_cases entered
  · exact Iff.rfl
  · exact Iff.rfl

theorem wrote_close (closed : m.close = some m') : m'.Wrote c ↔ m.Wrote c := by
  obtain ⟨-, rfl⟩ := close_eq_some.mp closed
  exact wrote_closeCurrent

/-- A text is at least one line. -/
theorem writes_some (c' : Nat) (text : Text) :
    (∃ row ∈ (splitLines text).map (c', ·), row.1 = c) ↔ c = c' := by
  have lines : splitLines text ≠ [] := by simp [splitLines]
  obtain ⟨line, listed⟩ := List.exists_mem_of_ne_nil _ lines
  constructor
  · rintro ⟨row, mem, rfl⟩
    obtain ⟨_, -, rfl⟩ := List.mem_map.mp mem
    rfl
  · rintro rfl
    exact ⟨_, List.mem_map_of_mem listed, rfl⟩

theorem wrote_write {f : Session G → Session G} (text : Text) (there : m.sessions[i]? = some s)
    (writes : (f s).written = (s.writeLines c' text).written) :
    (m.onSession i f).Wrote c ↔ m.Wrote c ∨ c = c' := by
  rw [wrote_onSession there (writes.trans (Session.writeLines_written s c' text)), writes_some]

theorem wrote_release (gaveUp : Bool) : (m.release i gaveUp).Wrote c ↔ m.Wrote c :=
  wrote_onSession_same fun _ _ => rfl

/-- Nobody but the caller of a command writes in its steps. -/
theorem wrote_advance {call : Call} {move : Move} {stage : Stage}
    (step : Advances I path c' call move m d m' d' stage) :
    (m.Wrote c → m'.Wrote c) ∧ (m'.Wrote c → m.Wrote c ∨ c = c') := by
  have kept (same : m'.Wrote c ↔ m.Wrote c) :
      (m.Wrote c → m'.Wrote c) ∧ (m'.Wrote c → m.Wrote c ∨ c = c') :=
    ⟨same.mpr, fun wrote => .inl (same.mp wrote)⟩
  have added (more : m'.Wrote c ↔ m.Wrote c ∨ c = c') :
      (m.Wrote c → m'.Wrote c) ∧ (m'.Wrote c → m.Wrote c ∨ c = c') :=
    ⟨fun wrote => more.mpr (.inl wrote), more.mp⟩
  cases step with
  | notReady | unwritten | settled | left => exact kept Iff.rfl
  | wrote phase there => exact added (wrote_write call.text there rfl)
  | named phase there => exact added (wrote_write path there rfl)
  | read phase there =>
      refine kept (wrote_onSession_same fun t found => ?_)
      rw [there, Option.some.injEq] at found
      exact found ▸ rfl
  | gaveUp => exact kept (wrote_release true)
  | answered | unnamed =>
      have drained : (m.onSession call.session Session.drainPTY).Wrote c ↔ m.Wrote c :=
        wrote_onSession_same fun _ _ => rfl
      exact kept ((wrote_release _).trans drained)
  | relaunched phase launched | unlaunched phase launched => exact kept (wrote_launch launched)
  | booting phase round | booted phase round => exact kept (wrote_boot round)

/-- The current session's interpreter has exited or been closed, or there is no
current session any more. -/
def Dead (m : Manager G) : Prop := m.sessions ≠ [] ∧ ∀ s ∈ m.current, s.running = false

instance (m : Manager G) : Decidable m.Dead := inferInstanceAs (Decidable (_ ∧ _))

/-! ## A command that was let in -/

/-- A command that was let in has not come to its terminal, or is about to return
that it was not written, or has written. -/
def Tried (c : Nat) (m : Manager G) : Stage → Prop
  | .inside call =>
      call.phase = .entered ∨ (∃ r, call.phase = .leaving r ∧ r ≠ .err .notAlive) ∨ m.Wrote c
  | .outside r => r ≠ .err .notAlive ∨ m.Wrote c

theorem Tried.mono {stage : Stage} (tried : m.Tried c stage) (kept : m.Wrote c → m'.Wrote c) :
    m'.Tried c stage := by
  cases stage with
  | inside call => exact tried.imp_right (Or.imp_right kept)
  | outside r => exact Or.imp_right kept tried

theorem Tried.advance {call : Call} {move : Move} {stage : Stage} (tried : m.Tried c (.inside call))
    (step : Advances I path c call move m d m' d' stage) : m'.Tried c stage := by
  -- Past its first step a command that is not leaving has written.
  have wrote (past : call.phase ≠ .entered) (stays : ∀ r, call.phase ≠ .leaving r) :
      m'.Wrote c := by
    rcases tried with before | ⟨r, leaves, -⟩ | wrote
    · exact absurd before past
    · exact absurd leaves (stays r)
    · exact (wrote_advance step).1 wrote
  cases step with
  | notReady | unwritten => exact .inr (.inl ⟨_, rfl, by simp⟩)
  | wrote phase there => exact .inr (.inr (Iff.mpr (wrote_write call.text there rfl) (.inr rfl)))
  | left phase =>
      rcases tried with before | ⟨r, leaves, differs⟩ | wrote
      · simp [phase] at before
      · rw [phase, Phase.leaving.injEq] at leaves
        exact .inl (leaves ▸ differs)
      · exact .inr wrote
  | read phase | settled phase | gaveUp phase | answered phase | unnamed phase | named phase
  | relaunched phase | unlaunched phase | booting phase | booted phase =>
      exact .inr (.inr (wrote (by simp [phase]) (by simp [phase])))

/-- What a manager with an idle mutex does with a command. No session it holds is
ever known to be dead. -/
theorem enter_alive {boots : Nat → Option (Nat × Text)} {text : Text} {stage : Stage}
    (hosts : Hosts m boots) (entered : m.enter text = some (m', stage)) :
    (m.busy = true ∧ stage = .outside (.err .busy)) ∨
      (m.busy = false ∧ m.session = none ∧ stage = .outside (.err .notAlive)) ∨
      m.busy = false ∧ ∃ i, m.session = some i ∧ stage = .inside ⟨text, i, .entered⟩ := by
  unfold enter at entered
  split at entered
  · simp at entered
  · split at entered
    · next busy => cases entered; exact .inl ⟨busy, rfl⟩
    · next idle =>
        have idle : m.busy = false := by simpa using idle
        split at entered
        · next none_ => cases entered; exact .inr (.inl ⟨idle, none_, rfl⟩)
        · next i current =>
            have there := List.getElem?_eq_getElem (hosts.current i current)
            have unwaited := hosts.unwaited _ (List.mem_of_getElem? there)
            rw [if_pos (by simp [there, Session.alive, unwaited])] at entered
            cases entered
            exact .inr (.inr ⟨idle, i, current, rfl⟩)

end Manager

namespace Shared

variable {s t u : Desk G} {a : Act} {c : Nat} {text : Text}

/-- A command goes on in its own steps only. -/
theorem command_step {stage : Stage} (step : Steps I path s a t)
    (here : s.tasks.get c = some (.command text stage)) :
    t.tasks.get c = some (.command text stage) ∨
      ∃ call move stage', stage = .inside call ∧ t.tasks.get c = some (.command text stage') ∧
        Manager.Advances I path c call move s.manager s.disk t.manager t.disk stage' := by
  have other {c' : Nat} {task : Task} (differs : c ≠ c') :
      (s.tasks.set c' task).get c = some (.command text stage) := by
    rw [Table.get_set_of_ne differs, here]
  have apart {c' : Nat} (new : s.tasks.get c' = none) : c ≠ c' := by
    rintro rfl
    simp [here] at new
  cases step with
  | closes => exact .inl here
  | desk step =>
      cases step with
      | enters new | starts new | unstarted new => exact .inl (other (apart new))
      | @moves c' text' call move m d stage' there advanced =>
          by_cases same : c = c'
          · subst same
            rw [here, Option.some.injEq, Task.command.injEq] at there
            obtain ⟨rfl, rfl⟩ := there
            exact .inr ⟨call, move, stage', rfl, Table.get_set_self .., Manager.advances advanced⟩
          · exact .inl (other same)
      | @polls c' i buf poll m b there =>
          refine .inl (other ?_)
          rintro rfl
          simp [here] at there
      | happens => exact .inl here

/-- What was written stays, and only a command that is inside writes. -/
theorem wrote_step (step : Steps I path s a t) (c : Nat) :
    (s.manager.Wrote c → t.manager.Wrote c) ∧
      (t.manager.Wrote c → s.manager.Wrote c ∨ (s.calls c).isSome) := by
  have kept (same : t.manager.Wrote c ↔ s.manager.Wrote c) :
      (s.manager.Wrote c → t.manager.Wrote c) ∧
        (t.manager.Wrote c → s.manager.Wrote c ∨ (s.calls c).isSome) :=
    ⟨same.mpr, fun wrote => .inl (same.mp wrote)⟩
  cases step with
  | closes closed => exact kept (Manager.wrote_close closed)
  | desk step =>
      cases step with
      | enters new entered => exact kept (Manager.wrote_enter entered)
      | moves here advanced =>
          obtain ⟨keeps, adds⟩ := Manager.wrote_advance (c := c) (Manager.advances advanced)
          refine ⟨keeps, fun wrote => (adds wrote).imp_right ?_⟩
          rintro rfl
          rw [Desk.calls_get here]
          rfl
      | starts new launched | unstarted new launched => exact kept (Manager.wrote_launch launched)
      | polls here round => exact kept (Manager.wrote_boot (Manager.boots round))
      | happens happened => exact kept (Manager.wrote_env happened)

/-- A line has been written by a goroutine that called the manager. -/
def Signed (s : Desk G) : Prop := ∀ c, s.tasks.get c = none → ¬ s.manager.Wrote c

theorem signed_init : Signed (Desk.init : Desk G) := by
  rintro c - ⟨s, listed, -⟩
  simp [Desk.init, Manager.new] at listed

/-- Nobody leaves the table. -/
theorem tasks_step (step : Steps I path s a t) (absent : t.tasks.get c = none) :
    s.tasks.get c = none := by
  cases step with
  | closes => exact absent
  | desk step =>
      cases step with
      | enters | moves | starts | unstarted | polls =>
          rw [Table.get_set] at absent
          split at absent
          · simp at absent
          · exact absent
      | happens => exact absent

theorem signed_step (signed : Signed s) (step : Steps I path s a t) : Signed t := by
  intro c absent wrote
  have before := tasks_step step absent
  rcases (wrote_step step c).2 wrote with old | inside
  · exact signed c before old
  · simp [Desk.calls, before] at inside

theorem signed_reachable (reached : (shared I path).Reachable (fun _ _ => True) s) : Signed s :=
  reached.invariant (motive := Signed) signed_init
    fun _ _ _ _ signed _ taken => signed_step signed (steps taken)

theorem hosts_step (hosts : Manager.Hosts s.manager s.boots) (step : Steps I path s a t) :
    Manager.Hosts t.manager t.boots := by
  -- A goroutine that started nothing before and starts nothing now.
  have idle {m : Manager G} {d : Disk G} {c : Nat} {task : Task} (before : s.boots c = none)
      (after : task.boot? = none) (kept : Manager.Hosts m s.boots) :
      Manager.Hosts m (Desk.boots ⟨m, d, s.tasks.set c task⟩) := by
    rwa [Desk.boots_set, after, update_eq_self_iff.mpr before.symm]
  cases step with
  | closes closed => exact hosts.close closed
  | desk step =>
      cases step with
      | @enters c text m stage new entered =>
          refine idle (Desk.boots_new new) ?_ (hosts.enter entered)
          obtain ⟨-, ⟨_, -, rfl, -⟩ | ⟨_, -, -, -, rfl⟩⟩ := Manager.enter_cases entered
          · rfl
          · rfl
      | @moves c text call move m d stage here advanced =>
          rw [Desk.boots_set]
          exact hosts.advance (Desk.boots_get here) (Manager.advances advanced)
      | @starts c spawn m d i new launched =>
          rw [Desk.boots_set]
          exact hosts.launch launched c
      | unstarted new launched =>
          obtain ⟨-, rfl, -⟩ := Manager.launch_refused launched
          exact idle (Desk.boots_new new) rfl hosts.closeCurrent
      | @polls c i buf poll m b here round =>
          rw [Desk.boots_set, Manager.Boot.task_boot]
          exact hosts.boot (Desk.boots_get here) (Manager.boots round)
      | happens happened => exact hosts.env happened

theorem hosts_reachable (reached : (shared I path).Reachable (fun _ _ => True) s) :
    Manager.Hosts s.manager s.boots :=
  reached.invariant (motive := fun s => Manager.Hosts s.manager s.boots) .new
    fun _ _ _ _ hosts _ taken => hosts_step hosts (steps taken)

/-- A command that was let in comes to what it tried. -/
theorem tried_later (path_ : (shared I path).Path (fun _ _ => True) s t)
    (started : ∃ stage, s.tasks.get c = some (.command text stage) ∧ s.manager.Tried c stage) :
    ∃ stage, t.tasks.get c = some (.command text stage) ∧ t.manager.Tried c stage := by
  refine path_.stable (motive := fun s => ∃ stage,
    s.tasks.get c = some (.command text stage) ∧ s.manager.Tried c stage) ?_ started
  rintro s a t ⟨stage, here, tried⟩ - taken
  have step := steps taken
  rcases command_step step here with same | ⟨call, move, stage', rfl, there, advances⟩
  · exact ⟨stage, same, tried.mono (wrote_step step c).1⟩
  · exact ⟨stage', there, tried.advance advances⟩

/-- A command that was turned away writes nothing afterwards. -/
theorem unwritten_later (path_ : (shared I path).Path (fun _ _ => True) s t) {r : Result}
    (returned : s.tasks.get c = some (.command text (.outside r)) ∧ ¬ s.manager.Wrote c) :
    t.tasks.get c = some (.command text (.outside r)) ∧ ¬ t.manager.Wrote c := by
  refine path_.stable (motive := fun s =>
    s.tasks.get c = some (.command text (.outside r)) ∧ ¬ s.manager.Wrote c) ?_ returned
  rintro s a t ⟨here, unwritten⟩ - taken
  have step := steps taken
  rcases command_step step here with same | ⟨call, move, stage', impossible, -⟩
  · refine ⟨same, fun wrote => ?_⟩
    rcases (wrote_step step c).2 wrote with old | inside
    · exact unwritten old
    · rw [Desk.calls_get here] at inside
      simp [Task.call?, Stage.call?] at inside
  · simp at impossible

end Shared

open Shared

/-- What a command is told, in any run. It is turned away as not alive, with
nothing written, exactly when the manager it came to was idle and held no
session; and then it has returned at once. -/
theorem dead_recognised_iff {I : Interpreter G} {path : Text} {s t : Desk G} {c : Nat} {text : Text}
    (reached : (shared I path).Reachable (fun _ _ => True) s)
    (entered : Shared.step I path s (.desk (.enter c text)) = some t) :
    (s.manager.busy = false ∧ s.manager.session = none →
        t.tasks.get c = some (.command text (.outside (.err .notAlive)))) ∧
      ∀ u r, (shared I path).Path (fun _ _ => True) t u →
        u.tasks.get c = some (.command text (.outside r)) →
          ((s.manager.Dead → r = .err .notAlive ∧ ¬ u.manager.Wrote c) ↔
            (s.manager.Dead → s.manager.busy = false ∧ s.manager.session = none)) := by
  have hosts := hosts_reachable reached
  have step : Desk.Steps I path s (.enter c text) t := Desk.steps entered
  cases step with
  | @enters _ _ m stage new met =>
      have unwritten : ¬ m.Wrote c := fun wrote =>
        signed_reachable reached c new ((Manager.wrote_enter met).mp wrote)
      -- Turned away, it stays so.
      have refused (r : Result) (same : stage = .outside r) {u : Desk G} {r' : Result}
          (later : (shared I path).Path (fun _ _ => True)
            ⟨m, s.disk, s.tasks.set c (.command text stage)⟩ u)
          (returned : u.tasks.get c = some (.command text (.outside r'))) :
          r' = r ∧ ¬ u.manager.Wrote c := by
        obtain ⟨kept, unwritten⟩ := unwritten_later later
          ⟨by rw [same]; exact Table.get_set_self .., unwritten⟩
        rw [returned] at kept
        simp only [Option.some.injEq, Task.command.injEq, Stage.outside.injEq, true_and] at kept
        exact ⟨kept, unwritten⟩
      rcases Manager.enter_alive hosts met with
        ⟨busy, rfl⟩ | ⟨idle, none_, rfl⟩ | ⟨idle, i, current, rfl⟩
      · refine ⟨by simp [busy], fun u r later returned => imp_congr_right fun _ => ?_⟩
        obtain ⟨rfl, -⟩ := refused _ rfl later returned
        simp [busy]
      · refine ⟨fun _ => Table.get_set_self .., fun u r later returned => ?_⟩
        refine imp_congr_right fun _ => ?_
        exact iff_of_true (refused _ rfl later returned) ⟨idle, none_⟩
      · refine ⟨by simp [current], fun u r later returned => imp_congr_right fun _ => ?_⟩
        obtain ⟨stage, there, tried⟩ := tried_later later
          ⟨_, Table.get_set_self .., Or.inl rfl⟩
        rw [returned, Option.some.injEq, Task.command.injEq] at there
        obtain ⟨-, rfl⟩ := there
        refine iff_of_false (fun recognised => ?_) (by simp [current])
        exact tried.elim (fun differs => differs recognised.1) recognised.2

theorem dead_recognised_iff_look :
    ∃ s t : Desk (List Text), s.manager.Dead ∧
      Shared.step parrot perch s (.desk (.enter 1 look)) = some t ∧
        t.tasks.get 1 = some (.command look (.outside (.err .notAlive))) ∧ ¬ t.manager.Wrote 1 := by
  obtain ⟨s, reached, dead, idle, none_, taken⟩ := System.reaches (shared parrot perch)
    (fun _ _ => True)
    (fun s => s.manager.Dead ∧ s.manager.busy = false ∧ s.manager.session = none ∧
      (Shared.step parrot perch s (.desk (.enter 1 look))).isSome = true)
    (Desk.opening.map .desk ++ [.close]) (fun _ _ _ => trivial) (by decide)
  obtain ⟨t, taken⟩ := Option.isSome_iff_exists.mp taken
  obtain ⟨returns, exact_⟩ := dead_recognised_iff (reached.mono fun _ _ _ => trivial) taken
  have returned := returns ⟨idle, none_⟩
  have recognised := (exact_ t _ (.refl t) returned).mpr fun _ => ⟨idle, none_⟩
  exact ⟨s, t, dead, taken, returned, (recognised dead).2⟩

/-- The interpreter exits by itself. The next command is written to what is left of
its terminal, waits for its deadline and restarts the interpreter. -/
theorem dead_unrecognised :
    ∃ s t u, (shared parrot perch).Reachable (fun _ _ => True) s ∧ s.manager.Dead ∧
      Shared.step parrot perch s (.desk (.enter 1 look)) = some t ∧
      (shared parrot perch).Path (fun _ _ => True) t u ∧
      u.tasks.get 1 = some (.command look (.outside (.err .timeout))) ∧ u.manager.Wrote 1 := by
  obtain ⟨s, reached, dead, goes⟩ := System.reaches (shared parrot perch) (fun _ _ => True)
    (fun s => s.manager.Dead ∧
      (Shared.step parrot perch s (.desk (.enter 1 look))).any (fun t =>
        ((shared parrot perch).exec (fun _ _ => True) t
          ([Desk.Act.move 1 .write, .move 1 (.poll .deadline), .move 1 (.relaunch .ok),
            .env (.deliver 1 19), .move 1 (.poll (.data 19)), .move 1 (.poll .idle),
            .move 1 .leave].map .desk)).any fun u =>
          decide (u.tasks.get 1 = some (.command look (.outside (.err .timeout))) ∧
            u.manager.Wrote 1)) = true)
    (Desk.opening.map .desk ++ [.desk (.env (.exit 0))]) (fun _ _ _ => trivial) (by decide)
  obtain ⟨t, taken, goes⟩ := (Option.any_eq_true _ _).mp goes
  obtain ⟨u, runs, ends⟩ := (Option.any_eq_true _ _).mp goes
  exact ⟨s, t, u, reached.mono fun _ _ _ => trivial, dead, taken, System.path_of_exec runs,
    of_decide_eq_true ends⟩

end Zorkbot.Pty
