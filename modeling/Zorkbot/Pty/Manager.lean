/-
# The manager of one player's interpreter

`Manager` guards one session with a mutex, held across each of its short
critical sections and across a whole start, and with a busy flag that is set for
the duration of a command. A command is a small state machine of its own: the
phases of a `Call` are the points between two of its critical sections, reads or
writes, where other goroutines may run.
-/

import Zorkbot.Pty.Session

namespace Zorkbot.Pty

open Go

variable {G : Type}

structure Manager (G : Type) where
  /-- Every session it ever created, oldest first. -/
  sessions : List (Session G)
  /-- `Manager.session`, as an index. -/
  session : Option Nat
  busy : Bool
  /-- `Manager.mu` is held by a start in progress. -/
  mu : Bool

/-- What `Manager.Command` returns. -/
inductive Result
  | ok (output : Text)
  | err (err : Err)
  deriving DecidableEq

/-- Where a `Manager.Command` in progress is. -/
inductive Phase
  /-- The busy flag is set; `Session.Command` is about to run. -/
  | entered
  | reading (want : Want) (buf : Text)
  | draining (want : Want) (raw : Text)
  /-- `Session.Command` returned `ErrTimeout`; the restart is next. -/
  | timedOut
  /-- The restart waits for the new session's first prompt. -/
  | booting (i : Nat) (buf : Text)
  /-- The deferred clear of the busy flag is next. -/
  | leaving (r : Result)
  deriving DecidableEq

/-- A `Manager.Command` past its first critical section, with the session it
captured there. -/
structure Call where
  text : Text
  session : Nat
  phase : Phase
  deriving DecidableEq

/-- The call, gone on to another phase. -/
def Call.to (call : Call) (phase : Phase) : Call := { call with phase := phase }

@[simp]
theorem Call.to_text (call : Call) (phase : Phase) : (call.to phase).text = call.text := rfl

@[simp]
theorem Call.to_session (call : Call) (phase : Phase) :
    (call.to phase).session = call.session := rfl

@[simp]
theorem Call.to_phase (call : Call) (phase : Phase) : (call.to phase).phase = phase := rfl

/-- A command that is still running, or what it returned. -/
inductive Stage
  | inside (call : Call)
  | outside (r : Result)
  deriving DecidableEq

/-- How creating the process of a new session can go. -/
inductive Spawn
  | ok
  /-- The save directory cannot be created. -/
  | noDir
  /-- The process or its terminal cannot be started. -/
  | noProcess
  deriving DecidableEq

namespace Manager

/-- `NewManager`. -/
def new : Manager G := ⟨[], none, false, false⟩

/-- Update one session. -/
def onSession (i : Nat) (f : Session G → Session G) (m : Manager G) : Manager G :=
  { m with sessions := m.sessions.modify i f }

/-- The session `Manager.session` points to. -/
def current (m : Manager G) : Option (Session G) := m.session.bind (m.sessions[·]?)

/-- Close the current session, if there is one. -/
def closeCurrent (m : Manager G) : Manager G :=
  match m.session with
  | some i => m.onSession i Session.close
  | none => m

/-- `Manager.Close`; it waits while a start holds the mutex. -/
def close (m : Manager G) : Option (Manager G) :=
  if m.mu then none else some { m.closeCurrent with session := none }

/-! ## Starting a session -/

/-- The first half of `startLocked`: close the current session, then create the
next one. The index is that of a session now waiting for its first prompt. -/
def launch (I : Interpreter G) (spawn : Spawn) (m : Manager G) (d : Disk G) :
    Option (Manager G × Disk G × Option Nat) :=
  if m.mu then none
  else
    match spawn with
    | .noDir => some (m.closeCurrent, d, none)
    | .noProcess => some (m.closeCurrent, d.mkdirAll, none)
    | .ok =>
        some ({ m.closeCurrent with
          sessions := m.closeCurrent.sessions ++ [Session.spawn I d.wipes]
          mu := true }, d.mkdirAll, some m.closeCurrent.sessions.length)

/-- How the second half of `startLocked` goes on. -/
inductive Boot
  | waiting (buf : Text)
  | started
  | failed

/-- One round of `bootstrap` on session `i`, and with its last round the end of
`startLocked`. -/
def boot (i : Nat) (buf : Text) (poll : Session.Poll) (m : Manager G) :
    Option (Manager G × Boot) :=
  match m.sessions[i]? with
  | none => none
  | some s =>
      match s.readUntil .prompt buf poll with
      | none => none
      | some (s', .again buf') => some (m.onSession i fun _ => s', .waiting buf')
      | some (s', .done _) =>
          some ({ m.onSession i fun _ => { s' with ready := true } with
            session := some i, busy := false, mu := false }, .started)
      | some (s', .error _) =>
          some ({ m.onSession i fun _ => s'.close with mu := false }, .failed)

/-! ## A command -/

/-- The first critical section of `Manager.Command`. -/
def enter (text : Text) (m : Manager G) : Option (Manager G × Stage) :=
  if m.mu then none
  else if m.busy then some (m, .outside (.err .busy))
  else
    match m.session with
    | none => some (m, .outside (.err .notAlive))
    | some i =>
        if (m.sessions[i]?).any Session.alive then
          some ({ m with busy := true }, .inside ⟨text, i, .entered⟩)
        else some (m, .outside (.err .notAlive))

/-- `Session.Command` returns: the session's mutex is released. A reader that
gave up leaves the answer it was waiting for behind. -/
def release (i : Nat) (gaveUp : Bool) (m : Manager G) : Manager G :=
  m.onSession i fun s => { s with mu := none, abandoned := s.abandoned || gaveUp }

/-- What happens next in a command. -/
inductive Move
  /-- `Session.Command` takes its mutex and writes the command. -/
  | write
  | poll (poll : Session.Poll)
  /-- The drain after a read ends. -/
  | drained
  /-- After a timeout, the restart creates its session. -/
  | relaunch (spawn : Spawn)
  /-- The deferred clear. -/
  | leave
  deriving DecidableEq

/-- A reader that has what it waits for stops in such a step. -/
def Move.stops : Move → Bool
  | .poll round => round.stops
  | _ => false

/-- What `Session.Command` waits for first. -/
def firstWant (text : Text) : Want := if isSaveRestoreCommand text then .filename else .prompt

/-- The next step of a command of `caller` on its captured session. -/
def advance (I : Interpreter G) (path : Text) (caller : Nat) (call : Call) (move : Move)
    (m : Manager G) (d : Disk G) : Option (Manager G × Disk G × Stage) :=
  let go (phase : Phase) (m : Manager G) : Option (Manager G × Disk G × Stage) :=
    some (m, d, .inside (call.to phase))
  let i := call.session
  match call.phase, move, m.sessions[i]? with
  | .entered, .write, some s =>
      if s.ready = false then go (.leaving (.err .notReady)) m
      else if s.mu ≠ none then none
      else if s.ptmxOpen = false then go (.leaving (.err .pty)) m
      else
        go (.reading (firstWant call.text) [])
          (m.onSession i fun s => { s.writeLines caller call.text with mu := some caller })
  | .reading want buf, .poll poll, some s =>
      match s.readUntil want buf poll with
      | none => none
      | some (s', .again buf') => go (.reading want buf') (m.onSession i fun _ => s')
      | some (s', .done raw) => go (.draining want raw) (m.onSession i fun _ => s')
      | some (_, .error .timeout) => go .timedOut (m.release i true)
      | some (_, .error err) => go (.leaving (.err err)) (m.release i true)
  | .draining .prompt raw, .drained, some _ =>
      go (.leaving (.ok (extractResponse raw call.text)))
        ((m.onSession i Session.drainPTY).release i false)
  | .draining .filename _, .drained, some s =>
      if s.ptmxOpen = false then
        go (.leaving (.err .pty)) ((m.onSession i Session.drainPTY).release i true)
      else
        go (.reading .prompt [])
          (m.onSession i fun s => s.drainPTY.writeLines caller path)
  | .timedOut, .relaunch spawn, _ =>
      match m.launch I spawn d with
      | none => none
      | some (m', d', some j) => some (m', d', .inside (call.to (.booting j [])))
      | some (m', d', none) => some (m', d', .inside (call.to (.leaving (.err .timeout))))
  | .booting j buf, .poll poll, _ =>
      match m.boot j buf poll with
      | none => none
      | some (m', .waiting buf') => go (.booting j buf') m'
      | some (m', _) => go (.leaving (.err .timeout)) m'
  | .leaving r, .leave, _ =>
      if m.mu then none else some ({ m with busy := false }, d, .outside r)
  | _, _, _ => none

/-! ## The world outside the service -/

/-- What the interpreters and the terminals do by themselves. -/
inductive Env
  /-- Session `i`'s interpreter reads its next line; `ok` is whether it can. -/
  | consume (i : Nat) (ok : Bool)
  | deliver (i : Nat) (n : Nat)
  /-- Session `i`'s process exits by itself. -/
  | exit (i : Nat)
  deriving DecidableEq

def env (I : Interpreter G) (path : Text) (event : Env) (m : Manager G) (d : Disk G) :
    Option (Manager G × Disk G) :=
  match event with
  | .consume i ok =>
      match m.sessions[i]? with
      | none => none
      | some s =>
          match s.consume I path ok d with
          | none => none
          | some (s', d') => some (m.onSession i fun _ => s', d')
  | .deliver i n => some (m.onSession i (Session.deliver n), d)
  | .exit i => some (m.onSession i fun s => { s with running := false }, d)

/-! ## What each operation can do -/

@[simp]
theorem onSession_session (m : Manager G) (i : Nat) (f : Session G → Session G) :
    (m.onSession i f).session = m.session := rfl

@[simp]
theorem onSession_busy (m : Manager G) (i : Nat) (f : Session G → Session G) :
    (m.onSession i f).busy = m.busy := rfl

@[simp]
theorem onSession_mu (m : Manager G) (i : Nat) (f : Session G → Session G) :
    (m.onSession i f).mu = m.mu := rfl

theorem onSession_get (m : Manager G) (i j : Nat) (f : Session G → Session G) :
    (m.onSession i f).sessions[j]? = if i = j then m.sessions[j]?.map f else m.sessions[j]? := by
  simp only [onSession, List.getElem?_modify]
  split <;> cases m.sessions[j]? <;> rfl

theorem onSession_there {m : Manager G} {i : Nat} {s : Session G}
    (there : m.sessions[i]? = some s) (f : Session G → Session G) :
    (m.onSession i f).sessions[i]? = some (f s) := by
  rw [onSession_get, if_pos rfl, there, Option.map_some]

@[simp]
theorem onSession_length (m : Manager G) (i : Nat) (f : Session G → Session G) :
    (m.onSession i f).sessions.length = m.sessions.length := by
  simp [onSession]

/-- Writing back the session that is there changes nothing. -/
theorem onSession_const {m : Manager G} {i : Nat} {s : Session G}
    (there : m.sessions[i]? = some s) : (m.onSession i fun _ => s) = m := by
  have same : m.sessions.modify i (fun _ => s) = m.sessions := by
    apply List.ext_getElem?
    intro j
    rw [List.getElem?_modify]
    split
    · next here => subst here; simp [there]
    · cases m.sessions[j]? <;> rfl
  rw [onSession, same]

@[simp]
theorem closeCurrent_session (m : Manager G) : m.closeCurrent.session = m.session := by
  unfold closeCurrent; split <;> simp [*]

@[simp]
theorem closeCurrent_busy (m : Manager G) : m.closeCurrent.busy = m.busy := by
  unfold closeCurrent; split <;> rfl

@[simp]
theorem closeCurrent_mu (m : Manager G) : m.closeCurrent.mu = m.mu := by
  unfold closeCurrent; split <;> rfl

@[simp]
theorem closeCurrent_length (m : Manager G) :
    m.closeCurrent.sessions.length = m.sessions.length := by
  unfold closeCurrent; split <;> simp

theorem closeCurrent_get (m : Manager G) (j : Nat) :
    m.closeCurrent.sessions[j]? =
      if m.session = some j then m.sessions[j]?.map Session.close else m.sessions[j]? := by
  unfold closeCurrent
  split
  · next i current => rw [onSession_get, current]; simp
  · next idle => simp [idle]

theorem close_eq_some {m m' : Manager G} :
    m.close = some m' ↔ m.mu = false ∧ m' = { m.closeCurrent with session := none } := by
  unfold close
  cases m.mu with
  | true => simp
  | false => exact ⟨fun closed => ⟨rfl, by simpa using closed.symm⟩, fun closed => by simp [closed.2]⟩

theorem launch_started {I : Interpreter G} {spawn : Spawn} {m m' : Manager G} {d d' : Disk G}
    {j : Nat} (launched : m.launch I spawn d = some (m', d', some j)) :
    m.mu = false ∧ j = m.sessions.length ∧ d' = d.mkdirAll ∧
      m' = { m.closeCurrent with
        sessions := m.closeCurrent.sessions ++ [Session.spawn I d.wipes], mu := true } := by
  unfold launch at launched
  split at launched
  · simp at launched
  · next free =>
      cases spawn <;> simp only [Option.some.injEq, Prod.mk.injEq, reduceCtorEq, and_false,
        closeCurrent_length] at launched
      exact ⟨by simpa using free, launched.2.2.symm, launched.2.1.symm, launched.1.symm⟩

theorem launch_refused {I : Interpreter G} {spawn : Spawn} {m m' : Manager G} {d d' : Disk G}
    (launched : m.launch I spawn d = some (m', d', none)) :
    m.mu = false ∧ m' = m.closeCurrent ∧ (d' = d ∨ d' = d.mkdirAll) := by
  unfold launch at launched
  split at launched
  · simp at launched
  · next free =>
      cases spawn <;> simp only [Option.some.injEq, Prod.mk.injEq, reduceCtorEq, and_false,
        and_true] at launched
      · exact ⟨by simpa using free, launched.1.symm, .inl launched.2.symm⟩
      · exact ⟨by simpa using free, launched.1.symm, .inr launched.2.symm⟩

/-- What one round of a start in progress can do. -/
inductive Boots (i : Nat) (buf : Text) (m : Manager G) : Manager G → Boot → Prop
  | read {s : Session G} {n : Nat} (there : m.sessions[i]? = some s) (some_ : 0 < n)
      (available : n ≤ s.tty.length) :
      Boots i buf m (m.onSession i fun _ => { s with tty := s.tty.drop n })
        (.waiting (buf ++ s.tty.take n))
  | started {s : Session G} (there : m.sessions[i]? = some s) (accepted : hasPrompt buf = true)
      (settled : s.tty = [] ∨ s.ptmxOpen = false ∨ s.running = false) :
      Boots i buf m { m.onSession i fun _ => { s with ready := true } with
        session := some i, busy := false, mu := false } .started
  | failed {s : Session G} (there : m.sessions[i]? = some s) :
      Boots i buf m { m.onSession i fun _ => s.close with mu := false } .failed

theorem boots {i : Nat} {buf : Text} {poll : Session.Poll} {m m' : Manager G} {b : Boot}
    (round : m.boot i buf poll = some (m', b)) : Boots i buf m m' b := by
  unfold boot at round
  split at round
  · simp at round
  · next s there =>
      split at round
      · simp at round
      · next s' buf' read =>
          obtain ⟨n, positive, available, rfl, rfl⟩ := Session.readUntil_again read
          simp only [Option.some.injEq, Prod.mk.injEq] at round
          obtain ⟨rfl, rfl⟩ := round
          exact .read there positive available
      · next s' raw read =>
          obtain ⟨rfl, rfl, accepted, settled, -⟩ := Session.readUntil_done read
          simp only [Option.some.injEq, Prod.mk.injEq] at round
          obtain ⟨rfl, rfl⟩ := round
          exact .started there accepted settled
      · next s' err read =>
          obtain ⟨rfl, _⟩ := Session.readUntil_error read
          simp only [Option.some.injEq, Prod.mk.injEq] at round
          obtain ⟨rfl, rfl⟩ := round
          exact .failed there

/-- A start that succeeds has seen the prompt. -/
theorem boot_started {i : Nat} {buf : Text} {poll : Session.Poll} {m m' : Manager G}
    (round : m.boot i buf poll = some (m', .started)) :
    poll.stops = true ∧ hasPrompt buf = true := by
  unfold boot at round
  split at round
  · simp at round
  · split at round
    · simp at round
    · simp at round
    · next read =>
        obtain ⟨-, -, accepted, -, stops⟩ := Session.readUntil_done read
        exact ⟨stops, accepted⟩
    · simp at round

/-- A start that succeeded makes its session the current one. -/
theorem boots_started {i : Nat} {buf : Text} {m m' : Manager G}
    (round : Boots i buf m m' .started) : m'.session = some i := by
  cases round with
  | started => rfl

/-- The first critical section either admits the command or turns it away. -/
theorem enter_cases {text : Text} {m m' : Manager G} {stage : Stage}
    (entered : m.enter text = some (m', stage)) :
    m.mu = false ∧
      ((∃ err, m' = m ∧ stage = .outside (.err err) ∧
          (m.busy = true ∨ m.session = none ∨ ∃ i, m.session = some i ∧
            (m.sessions[i]?).any Session.alive = false)) ∨
        ∃ i, m.busy = false ∧ m.session = some i ∧ m' = { m with busy := true } ∧
          stage = .inside ⟨text, i, .entered⟩) := by
  unfold enter at entered
  split at entered
  · simp at entered
  · next free =>
      refine ⟨by simpa using free, ?_⟩
      split at entered
      · next busy =>
          simp only [Option.some.injEq, Prod.mk.injEq] at entered
          exact .inl ⟨_, entered.1.symm, entered.2.symm, .inl busy⟩
      · next idle =>
          split at entered
          · next none_ =>
              simp only [Option.some.injEq, Prod.mk.injEq] at entered
              exact .inl ⟨_, entered.1.symm, entered.2.symm, .inr (.inl none_)⟩
          · next i current =>
              split at entered <;> simp only [Option.some.injEq, Prod.mk.injEq] at entered
              · exact .inr ⟨i, by simpa using idle, current, entered.1.symm, entered.2.symm⟩
              · next dead =>
                  exact .inl ⟨_, entered.1.symm, entered.2.symm,
                    .inr (.inr ⟨i, current, by simpa using dead⟩)⟩

/-- What one step of a command in progress can do. -/
inductive Advances (I : Interpreter G) (path : Text) (caller : Nat) (call : Call) (move : Move)
    (m : Manager G) (d : Disk G) : Manager G → Disk G → Stage → Prop
  | notReady {s : Session G} (phase : call.phase = .entered)
      (there : m.sessions[call.session]? = some s) (unready : s.ready = false) :
      Advances I path caller call move m d m d (.inside (call.to (.leaving (.err .notReady))))
  | unwritten {s : Session G} (phase : call.phase = .entered)
      (there : m.sessions[call.session]? = some s) (closed : s.ptmxOpen = false) :
      Advances I path caller call move m d m d (.inside (call.to (.leaving (.err .pty))))
  | wrote {s : Session G} (phase : call.phase = .entered)
      (there : m.sessions[call.session]? = some s) (ready : s.ready = true) (free : s.mu = none)
      (opened : s.ptmxOpen = true) :
      Advances I path caller call move m d
        (m.onSession call.session fun s => { s.writeLines caller call.text with mu := some caller })
        d (.inside (call.to (.reading (firstWant call.text) [])))
  | read {s : Session G} {want : Want} {buf : Text} {n : Nat} (phase : call.phase = .reading want buf)
      (there : m.sessions[call.session]? = some s) (some_ : 0 < n) (available : n ≤ s.tty.length) :
      Advances I path caller call move m d
        (m.onSession call.session fun _ => { s with tty := s.tty.drop n }) d
        (.inside (call.to (.reading want (buf ++ s.tty.take n))))
  | settled {s : Session G} {want : Want} {buf : Text} (phase : call.phase = .reading want buf)
      (there : m.sessions[call.session]? = some s) (accepted : want.ready buf = true)
      (settled : s.tty = [] ∨ s.ptmxOpen = false ∨ s.running = false)
      (action : move.stops = true) :
      Advances I path caller call move m d m d (.inside (call.to (.draining want buf)))
  | gaveUp {s : Session G} {want : Want} {buf : Text} {poll : Session.Poll} {next : Phase}
      (phase : call.phase = .reading want buf) (there : m.sessions[call.session]? = some s)
      (ends : next = .timedOut ∨ ∃ err, next = .leaving (.err err))
      (action : move = .poll poll)
      (cause : poll = .cancelled ∨ poll = .deadline ∨ s.ptmxOpen = false ∨ s.running = false) :
      Advances I path caller call move m d (m.release call.session true) d (.inside (call.to next))
  | answered {s : Session G} {raw : Text} (phase : call.phase = .draining .prompt raw)
      (there : m.sessions[call.session]? = some s) (action : move = .drained) :
      Advances I path caller call move m d
        ((m.onSession call.session Session.drainPTY).release call.session false) d
        (.inside (call.to (.leaving (.ok (extractResponse raw call.text)))))
  | unnamed {s : Session G} {raw : Text} (phase : call.phase = .draining .filename raw)
      (there : m.sessions[call.session]? = some s) (closed : s.ptmxOpen = false)
      (action : move = .drained) :
      Advances I path caller call move m d
        ((m.onSession call.session Session.drainPTY).release call.session true) d
        (.inside (call.to (.leaving (.err .pty))))
  | named {s : Session G} {raw : Text} (phase : call.phase = .draining .filename raw)
      (there : m.sessions[call.session]? = some s) (opened : s.ptmxOpen = true)
      (action : move = .drained) :
      Advances I path caller call move m d
        (m.onSession call.session fun s => s.drainPTY.writeLines caller path) d
        (.inside (call.to (.reading .prompt [])))
  | relaunched {spawn : Spawn} {m' : Manager G} {d' : Disk G} {j : Nat} (phase : call.phase = .timedOut)
      (launched : m.launch I spawn d = some (m', d', some j)) :
      Advances I path caller call move m d m' d' (.inside (call.to (.booting j [])))
  | unlaunched {spawn : Spawn} {m' : Manager G} {d' : Disk G} (phase : call.phase = .timedOut)
      (launched : m.launch I spawn d = some (m', d', none)) :
      Advances I path caller call move m d m' d' (.inside (call.to (.leaving (.err .timeout))))
  | booting {j : Nat} {buf buf' : Text} {m' : Manager G} (phase : call.phase = .booting j buf)
      (boots : Boots j buf m m' (.waiting buf')) :
      Advances I path caller call move m d m' d (.inside (call.to (.booting j buf')))
  | booted {j : Nat} {buf : Text} {m' : Manager G} {b : Boot} (phase : call.phase = .booting j buf)
      (boots : Boots j buf m m' b) (ended : b = .started ∨ b = .failed)
      (action : b = .started → move.stops = true ∧ hasPrompt buf = true) :
      Advances I path caller call move m d m' d (.inside (call.to (.leaving (.err .timeout))))
  | left {r : Result} (phase : call.phase = .leaving r) (free : m.mu = false) :
      Advances I path caller call move m d { m with busy := false } d (.outside r)

theorem advances {I : Interpreter G} {path : Text} {caller : Nat} {call : Call} {move : Move}
    {m m' : Manager G} {d d' : Disk G} {stage : Stage}
    (advanced : m.advance I path caller call move d = some (m', d', stage)) :
    Advances I path caller call move m d m' d' stage := by
  unfold advance at advanced
  simp only at advanced
  split at advanced
  · next s phase there =>
      split at advanced
      · next unready =>
          simp only [Option.some.injEq, Prod.mk.injEq] at advanced
          obtain ⟨rfl, rfl, rfl⟩ := advanced
          exact .notReady phase there unready
      · next ready =>
          split at advanced
          · simp at advanced
          · next free =>
              split at advanced
              · next closed =>
                  simp only [Option.some.injEq, Prod.mk.injEq] at advanced
                  obtain ⟨rfl, rfl, rfl⟩ := advanced
                  exact .unwritten phase there closed
              · next opened =>
                  simp only [Option.some.injEq, Prod.mk.injEq] at advanced
                  obtain ⟨rfl, rfl, rfl⟩ := advanced
                  exact .wrote phase there (by simpa using ready) (by simpa using free)
                    (by simpa using opened)
  · next want buf poll s phase there =>
      split at advanced
      · simp at advanced
      · next s' buf' round =>
          obtain ⟨n, positive, available, rfl, rfl⟩ := Session.readUntil_again round
          simp only [Option.some.injEq, Prod.mk.injEq] at advanced
          obtain ⟨rfl, rfl, rfl⟩ := advanced
          exact .read phase there positive available
      · next s' raw round =>
          obtain ⟨rfl, rfl, accepted, settled, stops⟩ := Session.readUntil_done round
          simp only [Option.some.injEq, Prod.mk.injEq] at advanced
          obtain ⟨rfl, rfl, rfl⟩ := advanced
          rw [onSession_const there]
          exact .settled phase there accepted settled stops
      · next s' round =>
          simp only [Option.some.injEq, Prod.mk.injEq] at advanced
          obtain ⟨rfl, rfl, rfl⟩ := advanced
          exact .gaveUp phase there (.inl rfl) rfl (Session.readUntil_error round).2
      · next s' err _ round =>
          simp only [Option.some.injEq, Prod.mk.injEq] at advanced
          obtain ⟨rfl, rfl, rfl⟩ := advanced
          exact .gaveUp phase there (.inr ⟨_, rfl⟩) rfl (Session.readUntil_error round).2
  · next raw s phase there =>
      simp only [Option.some.injEq, Prod.mk.injEq] at advanced
      obtain ⟨rfl, rfl, rfl⟩ := advanced
      exact .answered phase there rfl
  · next raw s phase there =>
      split at advanced
      · next closed =>
          simp only [Option.some.injEq, Prod.mk.injEq] at advanced
          obtain ⟨rfl, rfl, rfl⟩ := advanced
          exact .unnamed phase there closed rfl
      · next opened =>
          simp only [Option.some.injEq, Prod.mk.injEq] at advanced
          obtain ⟨rfl, rfl, rfl⟩ := advanced
          exact .named phase there (by simpa using opened) rfl
  · next _ _ spawn phase =>
      split at advanced
      · simp at advanced
      · next launched =>
          simp only [Option.some.injEq, Prod.mk.injEq] at advanced
          obtain ⟨rfl, rfl, rfl⟩ := advanced
          exact .relaunched phase launched
      · next launched =>
          simp only [Option.some.injEq, Prod.mk.injEq] at advanced
          obtain ⟨rfl, rfl, rfl⟩ := advanced
          exact .unlaunched phase launched
  · next _ _ j buf poll phase =>
      split at advanced
      · simp at advanced
      · next round =>
          simp only [Option.some.injEq, Prod.mk.injEq] at advanced
          obtain ⟨rfl, rfl, rfl⟩ := advanced
          exact .booting phase (Manager.boots round)
      · next b finished round =>
          simp only [Option.some.injEq, Prod.mk.injEq] at advanced
          obtain ⟨rfl, rfl, rfl⟩ := advanced
          refine .booted phase (Manager.boots round) ?_ fun started => boot_started (started ▸ round)
          cases b with
          | waiting buf' => exact (finished _ rfl).elim
          | started => exact .inl rfl
          | failed => exact .inr rfl
  · next _ _ r phase =>
      split at advanced
      · simp at advanced
      · next free =>
          simp only [Option.some.injEq, Prod.mk.injEq] at advanced
          obtain ⟨rfl, rfl, rfl⟩ := advanced
          exact .left phase (by simpa using free)
  · simp at advanced

/-- What the world outside can do. -/
inductive Happens (I : Interpreter G) (path : Text) (m : Manager G) (d : Disk G) :
    Env → Manager G → Disk G → Prop
  | consumed {i : Nat} {ok : Bool} {s s' : Session G} {d' : Disk G}
      (there : m.sessions[i]? = some s) (read : s.consume I path ok d = some (s', d')) :
      Happens I path m d (.consume i ok) (m.onSession i fun _ => s') d'
  | delivered (i n : Nat) :
      Happens I path m d (.deliver i n) (m.onSession i (Session.deliver n)) d
  | exited (i : Nat) :
      Happens I path m d (.exit i) (m.onSession i fun s => { s with running := false }) d

theorem happens {I : Interpreter G} {path : Text} {event : Env} {m m' : Manager G} {d d' : Disk G}
    (happened : m.env I path event d = some (m', d')) : Happens I path m d event m' d' := by
  cases event with
  | consume i ok =>
      simp only [env] at happened
      split at happened
      · simp at happened
      · next s there =>
          split at happened
          · simp at happened
          · next s' d'' read =>
              cases happened
              exact .consumed there read
  | deliver i n =>
      cases happened
      exact .delivered i n
  | exit i =>
      cases happened
      exact .exited i

/-- The first thing a command does is to write. -/
theorem entered_writes {I : Interpreter G} {path : Text} {caller : Nat} {call : Call} {move : Move}
    {m m' : Manager G} {d d' : Disk G} {stage : Stage} (phase : call.phase = .entered)
    (advanced : m.advance I path caller call move d = some (m', d', stage)) : move = .write := by
  unfold advance at advanced
  cases move <;> simp [phase] at advanced; rfl

/-- After a timeout only a restart that succeeds makes a session. -/
theorem timedOut_relaunches {I : Interpreter G} {path : Text} {caller : Nat} {call : Call}
    {move : Move} {m m' : Manager G} {d d' : Disk G} {stage : Stage}
    (phase : call.phase = .timedOut)
    (advanced : m.advance I path caller call move d = some (m', d', stage))
    (longer : m.sessions.length < m'.sessions.length) : move = .relaunch .ok := by
  unfold advance at advanced
  cases move with
  | relaunch spawn =>
      simp only [phase] at advanced
      cases spawn with
      | ok => rfl
      | noDir | noProcess =>
          simp only [launch] at advanced
          split at advanced
          · simp at advanced
          · next stopped =>
              split at stopped <;> simp at stopped
          · next stopped =>
              split at stopped
              · simp at stopped
              · simp only [Option.some.injEq, Prod.mk.injEq] at stopped advanced
                rw [← advanced.1, ← stopped.1, closeCurrent_length] at longer
                exact absurd longer (Nat.lt_irrefl _)
  | _ => simp [phase] at advanced

/-- A command goes on to a later phase and is otherwise the same. -/
theorem advances_phase {I : Interpreter G} {path : Text} {caller : Nat} {call call' : Call}
    {move : Move} {m m' : Manager G} {d d' : Disk G}
    (step : Advances I path caller call move m d m' d' (.inside call')) :
    ∃ phase, call' = call.to phase ∧ phase ≠ .entered := by
  cases step with
  | gaveUp phase there ends =>
      refine ⟨_, rfl, ?_⟩
      rcases ends with rfl | ⟨err, rfl⟩ <;> simp
  | _ => exact ⟨_, rfl, by simp⟩

/-- A command keeps its text. -/
theorem advances_text {I : Interpreter G} {path : Text} {caller : Nat} {call call' : Call}
    {move : Move} {m m' : Manager G} {d d' : Disk G}
    (step : Advances I path caller call move m d m' d' (.inside call')) : call'.text = call.text := by
  cases step <;> rfl

/-- A command that returns has nothing left to do but to clear the busy flag. -/
theorem left_cases {I : Interpreter G} {path : Text} {caller : Nat} {call : Call} {move : Move}
    {m m' : Manager G} {d d' : Disk G} {r : Result}
    (step : Advances I path caller call move m d m' d' (.outside r)) :
    call.phase = .leaving r ∧ m' = { m with busy := false } := by
  cases step with
  | left phase => exact ⟨phase, rfl⟩

end Manager

end Zorkbot.Pty
