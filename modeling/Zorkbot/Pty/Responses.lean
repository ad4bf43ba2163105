/-
# Answers match commands

Any number of commands and starts of one manager run side by side, each taking
its steps in any order with the others, with the interpreters and with the
terminals. A command may meet the end of its caller's context or its own
deadline at every round of its polling loop.

Only a deadline makes the manager restart the interpreter. A command whose
context ends leaves the session as it is, and the answer it did not wait for is
read by the next command. So is what comes after a drain of an answer that was
not over, and what comes before a prompt that was not the last is lost. Those are
the ways in which answers come to differ from commands. Where none of them
happens, every command that returns an answer returns its own, whatever follows
its prompt.
-/

import Zorkbot.Data.Table
import Zorkbot.Pty.Serving
import Zorkbot.Pty.Trailing
import Zorkbot.Transition.System

namespace Zorkbot.Pty

open Go Transition Function

variable {G : Type}

/-! ## Answers -/

namespace Manager

variable {I : Interpreter G} {path : Text} {m m' : Manager G} {d d' : Disk G} {c i : Nat}
  {calls : Nat → Option Call} {boots : Nat → Option (Nat × Text)} {move : Move}

/-- A caller was given the interpreter's answer to the line it wrote last. -/
def Responded (path : Text) (c : Nat) (text out : Text) (m : Manager G) : Prop :=
  ∃ s ∈ m.sessions, ∃ row ∈ s.transcript,
    row.1 = c ∧ row.2.1 = lastLine path text ∧ out = extractResponse row.2.2 text

instance (path : Text) (c : Nat) (text out : Text) (m : Manager G) :
    Decidable (m.Responded path c text out) :=
  inferInstanceAs (Decidable (∃ s ∈ m.sessions, ∃ row ∈ s.transcript, _))

/-- Every answer that was recorded stays recorded. -/
def Grows (m m' : Manager G) : Prop :=
  ∀ (j : Nat) (s : Session G), m.sessions[j]? = some s →
    ∃ s' : Session G, m'.sessions[j]? = some s' ∧ s.transcript ⊆ s'.transcript

theorem Responded.grow {text out : Text} (responded : m.Responded path c text out)
    (grows : m.Grows m') : m'.Responded path c text out := by
  obtain ⟨s, listed, row, recorded, facts⟩ := responded
  obtain ⟨j, there⟩ := List.mem_iff_getElem?.mp listed
  obtain ⟨s', there', keeps⟩ := grows j s there
  exact ⟨s', List.mem_of_getElem? there', row, keeps recorded, facts⟩

theorem Grows.onSession {f : Session G → Session G} (there : m.sessions[i]? = some s)
    (keeps : s.transcript ⊆ (f s).transcript) : m.Grows (m.onSession i f) := by
  intro j t found
  rw [onSession_get]
  split
  · next here =>
      subst here
      rw [there, Option.some.injEq] at found
      subst found
      exact ⟨f s, by rw [there, Option.map_some], keeps⟩
  · exact ⟨t, found, fun _ => id⟩

theorem Grows.refl (m : Manager G) : m.Grows m := fun _ s there => ⟨s, there, fun _ => id⟩

theorem Grows.trans {m'' : Manager G} (first : m.Grows m') (second : m'.Grows m'') :
    m.Grows m'' := by
  intro j s there
  obtain ⟨s', there', keeps⟩ := first j s there
  obtain ⟨s'', there'', keeps'⟩ := second j s' there'
  exact ⟨s'', there'', fun _ recorded => keeps' (keeps recorded)⟩

theorem Grows.onEach {f : Session G → Session G} (i : Nat) (m : Manager G)
    (keeps : ∀ s : Session G, s.transcript ⊆ (f s).transcript) : m.Grows (m.onSession i f) := by
  intro j t found
  rw [onSession_get]
  split
  · exact ⟨f t, by rw [found, Option.map_some], keeps t⟩
  · exact ⟨t, found, fun _ => id⟩

theorem Grows.closeCurrent (m : Manager G) : m.Grows m.closeCurrent := by
  unfold Manager.closeCurrent
  split
  · exact .onEach _ m fun _ _ => id
  · exact .refl m

theorem Grows.launch {spawn : Spawn} {started : Option Nat}
    (launched : m.launch I spawn d = some (m', d', started)) : m.Grows m' := by
  cases started with
  | none => obtain ⟨-, rfl, -⟩ := launch_refused launched; exact .closeCurrent m
  | some j =>
      obtain ⟨-, -, -, rfl⟩ := launch_started launched
      refine (Grows.closeCurrent m).trans fun k s there => ⟨s, ?_, fun _ => id⟩
      rwa [List.getElem?_append_left (List.getElem?_eq_some_iff.mp there).1]

theorem Grows.boot {buf : Text} {b : Boot} (round : Boots i buf m m' b) : m.Grows m' := by
  cases round with
  | read there => exact .onSession there fun _ => id
  | started there => exact Grows.onSession there fun _ => id
  | failed there => exact Grows.onSession there fun _ => id

theorem Grows.env {event : Env} (happened : m.env I path event d = some (m', d')) :
    m.Grows m' := by
  cases happens happened with
  | consumed there read =>
      obtain ⟨-, _, _, _, _, _, _, _, _, -, frame⟩ := Session.consume_cases read
      refine .onSession there ?_
      rw [frame]
      exact List.subset_cons_self _ _
  | delivered | exited => exact .onEach _ m fun _ _ => id

theorem Grows.advance {call : Call} {stage : Stage}
    (step : Advances I path c call move m d m' d' stage) : m.Grows m' := by
  cases step with
  | notReady | unwritten | settled => exact .refl m
  | left => exact Grows.refl m
  | wrote | gaveUp | named => exact .onEach _ m fun _ _ => id
  | read _ there => exact .onSession there fun _ => id
  | answered | unnamed =>
      have drained : m.Grows (m.onSession call.session Session.drainPTY) :=
        .onEach _ m fun _ _ => id
      exact drained.trans (.onEach _ _ fun _ _ => id)
  | relaunched _ launched | unlaunched _ launched => exact .launch launched
  | booting _ round => exact .boot round
  | booted _ round => exact .boot round

theorem Grows.enter {text : Text} {stage : Stage} (entered : m.enter text = some (m', stage)) :
    m.Grows m' := by
  obtain ⟨-, ⟨_, rfl, -, -⟩ | ⟨_, -, -, rfl, -⟩⟩ := enter_cases entered
  · exact .refl m'
  · exact Grows.refl m

/-- What a command has to return is the answer to its last line. -/
def Heard (path : Text) (c : Nat) (call : Call) (m : Manager G) : Prop :=
  match call.phase with
  | .draining .prompt raw => m.Responded path c call.text (extractResponse raw call.text)
  | .leaving (.ok out) => m.Responded path c call.text out
  | _ => True

theorem Heard.grow {call : Call} (heard : m.Heard path c call) (grows : m.Grows m') :
    m'.Heard path c call := by
  unfold Heard at heard ⊢
  split
  · next raw phase => rw [phase] at heard; exact heard.grow grows
  · next out phase => rw [phase] at heard; exact heard.grow grows
  · trivial

/-- A command has its answer when its reader stops and what is still to come adds
nothing but blanks. -/
theorem Heard.advance {call : Call} {stage : Stage} (heard : m.Heard path c call)
    (serving : Serving path m calls boots) (called : calls c = some call)
    (whole : ∀ buf, call.phase = .reading .prompt buf → move.stops = true → hasPrompt buf = true →
      ∀ s, m.sessions[call.session]? = some s → Trails buf (s.tty ++ s.wire))
    (step : Advances I path c call move m d m' d' stage) :
    match stage with
    | .inside next => m'.Heard path c next
    | .outside r => ∀ out, r = .ok out → m'.Responded path c call.text out := by
  have grows := Grows.advance step
  cases step with
  | @settled s want buf phase there accepted settled action =>
      cases want with
      | filename => trivial
      | prompt =>
          have talks := serving.talks c call called
          simp only [Talks, phase] at talks
          obtain ⟨t, asked, line, found, -, -, turn, asks, awaits⟩ := talks
          have recorded := (awaits.accepts accepted).2
          refine ⟨t, List.mem_of_getElem? found, _, recorded, rfl, (turn.of_prompt asks.symm).2, ?_⟩
          exact (extractResponse_trails (whole buf phase action accepted t found) _).symm
  | answered phase =>
      simp only [Heard, phase] at heard
      exact heard.grow grows
  | left phase =>
      rintro out rfl
      simp only [Heard, phase] at heard
      exact heard.grow grows
  | gaveUp phase there ends => rcases ends with rfl | ⟨err, rfl⟩ <;> trivial
  | notReady | unwritten | wrote | read | unnamed | named | relaunched | unlaunched | booting
  | booted => trivial

end Manager

/-! ## The users of a manager -/

/-- A goroutine that uses the manager: inside `Manager.Command` or returned from
it, or inside `Manager.Start` or returned from it. -/
inductive Task
  | command (text : Text) (stage : Stage)
  | starting (i : Nat) (buf : Text)
  | started (ok : Bool)
  deriving DecidableEq

/-- The call a goroutine is inside. -/
def Task.call? : Task → Option Call
  | .command _ stage => stage.call?
  | _ => none

/-- The start a goroutine waits for. -/
def Task.boot? : Task → Option (Nat × Text)
  | .command _ stage => stage.boot?
  | .starting i buf => some (i, buf)
  | .started _ => none

/-- What a goroutine that started a session is told. -/
def Manager.Boot.task (i : Nat) : Manager.Boot → Task
  | .waiting buf => .starting i buf
  | .started => .started true
  | .failed => .started false

@[simp]
theorem Manager.Boot.task_call (i : Nat) (b : Manager.Boot) : (b.task i).call? = none := by
  cases b <;> rfl

theorem Manager.Boot.task_boot (i : Nat) (b : Manager.Boot) : (b.task i).boot? = b.boot? i := by
  cases b <;> rfl

/-- One manager, the directory it saves in, and its users. -/
structure Desk (G : Type) where
  manager : Manager G
  disk : Disk G
  tasks : Table Nat Task

namespace Desk

inductive Act
  | enter (c : Nat) (text : Text)
  | move (c : Nat) (move : Manager.Move)
  | start (c : Nat) (spawn : Spawn)
  | poll (c : Nat) (poll : Session.Poll)
  | env (event : Manager.Env)
  deriving DecidableEq

def init : Desk G := ⟨.new, .init, .empty⟩

def step (I : Interpreter G) (path : Text) (s : Desk G) : Act → Option (Desk G)
  | .enter c text =>
      match s.tasks.get c, s.manager.enter text with
      | none, some (m, stage) =>
          some { s with manager := m, tasks := s.tasks.set c (.command text stage) }
      | _, _ => none
  | .move c move =>
      match s.tasks.get c with
      | some (.command text (.inside call)) =>
          match s.manager.advance I path c call move s.disk with
          | some (m, d, stage) => some ⟨m, d, s.tasks.set c (.command text stage)⟩
          | none => none
      | _ => none
  | .start c spawn =>
      match s.tasks.get c, s.manager.launch I spawn s.disk with
      | none, some (m, d, some i) => some ⟨m, d, s.tasks.set c (.starting i [])⟩
      | none, some (m, d, none) => some ⟨m, d, s.tasks.set c (.started false)⟩
      | _, _ => none
  | .poll c poll =>
      match s.tasks.get c with
      | some (.starting i buf) =>
          match s.manager.boot i buf poll with
          | some (m, .waiting buf') =>
              some { s with manager := m, tasks := s.tasks.set c (.starting i buf') }
          | some (m, .started) =>
              some { s with manager := m, tasks := s.tasks.set c (.started true) }
          | some (m, .failed) =>
              some { s with manager := m, tasks := s.tasks.set c (.started false) }
          | none => none
      | _ => none
  | .env event =>
      match s.manager.env I path event s.disk with
      | some (m, d) => some { s with manager := m, disk := d }
      | none => none

end Desk

/-- The runs of one manager. -/
def desk (I : Interpreter G) (path : Text) : System (Desk G) Desk.Act := ⟨.init, Desk.step I path⟩

namespace Desk

variable {I : Interpreter G} {path : Text}

/-! ## What one step can do -/

inductive Steps (I : Interpreter G) (path : Text) (s : Desk G) : Act → Desk G → Prop
  | enters {c : Nat} {text : Text} {m : Manager G} {stage : Stage} (new : s.tasks.get c = none)
      (entered : s.manager.enter text = some (m, stage)) :
      Steps I path s (.enter c text) ⟨m, s.disk, s.tasks.set c (.command text stage)⟩
  | moves {c : Nat} {text : Text} {call : Call} {move : Manager.Move} {m : Manager G} {d : Disk G}
      {stage : Stage} (here : s.tasks.get c = some (.command text (.inside call)))
      (advanced : s.manager.advance I path c call move s.disk = some (m, d, stage)) :
      Steps I path s (.move c move) ⟨m, d, s.tasks.set c (.command text stage)⟩
  | starts {c : Nat} {spawn : Spawn} {m : Manager G} {d : Disk G} {i : Nat}
      (new : s.tasks.get c = none)
      (launched : s.manager.launch I spawn s.disk = some (m, d, some i)) :
      Steps I path s (.start c spawn) ⟨m, d, s.tasks.set c (.starting i [])⟩
  | unstarted {c : Nat} {spawn : Spawn} {m : Manager G} {d : Disk G} (new : s.tasks.get c = none)
      (launched : s.manager.launch I spawn s.disk = some (m, d, none)) :
      Steps I path s (.start c spawn) ⟨m, d, s.tasks.set c (.started false)⟩
  | polls {c i : Nat} {buf : Text} {poll : Session.Poll} {m : Manager G} {b : Manager.Boot}
      (here : s.tasks.get c = some (.starting i buf))
      (round : s.manager.boot i buf poll = some (m, b)) :
      Steps I path s (.poll c poll) ⟨m, s.disk, s.tasks.set c (b.task i)⟩
  | happens {event : Manager.Env} {m : Manager G} {d : Disk G}
      (happened : s.manager.env I path event s.disk = some (m, d)) :
      Steps I path s (.env event) ⟨m, d, s.tasks⟩

theorem steps {s t : Desk G} {a : Act} (taken : s.step I path a = some t) : Steps I path s a t := by
  cases a with
  | enter c text =>
      simp only [step] at taken
      split at taken
      · next m stage new entered =>
          cases taken
          exact .enters new entered
      · simp at taken
  | move c move =>
      simp only [step] at taken
      split at taken
      · next text call here =>
          split at taken
          · next m d stage advanced =>
              cases taken
              exact .moves here advanced
          · simp at taken
      · simp at taken
  | start c spawn =>
      simp only [step] at taken
      split at taken
      · next m d i new launched =>
          cases taken
          exact .starts new launched
      · next m d new launched =>
          cases taken
          exact .unstarted new launched
      · simp at taken
  | poll c poll =>
      simp only [step] at taken
      split at taken
      · next i buf here =>
          split at taken
          · next m buf' round => cases taken; exact .polls here round
          · next m round => cases taken; exact .polls here round
          · next m round => cases taken; exact .polls here round
          · simp at taken
      · simp at taken
  | env event =>
      simp only [step] at taken
      split at taken
      · next m d happened =>
          cases taken
          exact .happens happened
      · simp at taken

/-- Who is inside a command. -/
def calls (s : Desk G) (c : Nat) : Option Call := (s.tasks.get c).bind Task.call?

/-- Who waits for a session to start. -/
def boots (s : Desk G) (c : Nat) : Option (Nat × Text) := (s.tasks.get c).bind Task.boot?

theorem calls_get {s : Desk G} {c : Nat} {task : Task} (here : s.tasks.get c = some task) :
    s.calls c = task.call? := by
  rw [calls, here, Option.bind_some]

theorem boots_get {s : Desk G} {c : Nat} {task : Task} (here : s.tasks.get c = some task) :
    s.boots c = task.boot? := by
  rw [boots, here, Option.bind_some]

theorem calls_new {s : Desk G} {c : Nat} (new : s.tasks.get c = none) : s.calls c = none := by
  rw [calls, new, Option.bind_none]

theorem boots_new {s : Desk G} {c : Nat} (new : s.tasks.get c = none) : s.boots c = none := by
  rw [boots, new, Option.bind_none]

theorem calls_set (s : Desk G) (m : Manager G) (d : Disk G) (c : Nat) (task : Task) :
    calls ⟨m, d, s.tasks.set c task⟩ = update s.calls c task.call? := by
  funext c'
  simp only [calls, Table.get_set, update_apply]
  split <;> rfl

theorem boots_set (s : Desk G) (m : Manager G) (d : Disk G) (c : Nat) (task : Task) :
    boots ⟨m, d, s.tasks.set c task⟩ = update s.boots c task.boot? := by
  funext c'
  simp only [boots, Table.get_set, update_apply]
  split <;> rfl

/-- Every command that is sent is one line. -/
def Asked (path : Text) : Act → Prop
  | .enter _ text => SingleLine path text
  | _ => True

/-- The command is about to write to a session on which a reader gave up. -/
def writesLate (s : Desk G) : Act → Bool
  | .move c .write => (s.calls c).any fun call =>
      (s.manager.sessions[call.session]?).any Session.abandoned
  | _ => false

/-- A command's reader takes a prompt for the last that is not: more is to come of
the answer than control sequences and blanks. -/
def stopsEarly (s : Desk G) : Act → Bool
  | .move c (.poll poll) => (s.calls c).any fun call =>
      match call.phase with
      | .reading .prompt buf => poll.stops && hasPrompt buf &&
          (s.manager.sessions[call.session]?).any fun σ => !decide (Trails buf (σ.tty ++ σ.wire))
      | _ => false
  | _ => false

/-- A drain ends, or a start has seen the prompt, and something that was printed is
still to come. -/
def leavesOver (s : Desk G) : Act → Bool
  | .move c .drained => (s.calls c).any fun call =>
      (s.manager.sessions[call.session]?).any fun σ => σ.wire ≠ []
  | .move c (.poll poll) | .poll c poll => (s.boots c).any fun b =>
      poll.stops && hasPrompt b.2 &&
        (s.manager.sessions[b.1]?).any fun σ => σ.tty ≠ [] || σ.wire ≠ []
  | _ => false

/-- None of the ways in which answers come to differ from commands. -/
structure InStep (path : Text) (s : Desk G) (a : Act) : Prop where
  fresh : s.writesLate a = false
  whole : s.stopsEarly a = false
  drained : s.leavesOver a = false
  asked : Asked path a

/-- What holds of a desk at any time: its exchanges are in order, and whatever a
command returns or has returned is the interpreter's answer to it. -/
structure Matched (path : Text) (s : Desk G) : Prop where
  serving : Manager.Serving path s.manager s.calls s.boots
  heard : ∀ c call, s.calls c = some call → s.manager.Heard path c call
  text : ∀ c text call, s.tasks.get c = some (.command text (.inside call)) → call.text = text
  responded : ∀ c text out, s.tasks.get c = some (.command text (.outside (.ok out))) →
    s.manager.Responded path c text out

theorem matched_init : Matched path (init : Desk G) where
  serving := .new
  heard c call called := by simp [init, calls] at called
  text c text call found := by simp [init] at found
  responded c text out found := by simp [init] at found

/-- A goroutine's step keeps the desk matched when it keeps the exchanges in
order, forgets no answer, and returns nothing but an answer. -/
theorem Matched.set {s : Desk G} {m : Manager G} {d : Disk G} {c : Nat} {task : Task}
    (matched : Matched path s) (grows : s.manager.Grows m)
    (serving : Manager.Serving path m (update s.calls c task.call?)
      (update s.boots c task.boot?))
    (heard : ∀ call, task.call? = some call → m.Heard path c call)
    (text : ∀ text call, task = .command text (.inside call) → call.text = text)
    (responded : ∀ text out, task = .command text (.outside (.ok out)) →
      m.Responded path c text out) :
    Matched path ⟨m, d, s.tasks.set c task⟩ where
  serving := by rw [calls_set, boots_set]; exact serving
  heard c' call called := by
    rw [calls_set] at called
    by_cases same : c' = c
    · subst same
      exact heard call (by simpa using called)
    · rw [update_of_ne same] at called
      exact (matched.heard c' call called).grow grows
  text c' text' call found := by
    rw [Table.get_set] at found
    split at found
    · exact text text' call (by simpa using found)
    · exact matched.text c' text' call found
  responded c' text' out found := by
    rw [Table.get_set] at found
    split at found
    · next same => subst same; exact responded text' out (by simpa using found)
    · exact (matched.responded c' text' out found).grow grows

theorem matched_step {s t : Desk G} {a : Act} (matched : Matched path s)
    (inStep : InStep path s a) (step : Steps I path s a t) : Matched path t := by
  have ⟨fresh, whole, drained, asked⟩ := inStep
  cases step with
  | @enters c text m stage new entered =>
      have serving := matched.serving.enter (c := c) asked entered
      have unbooted : stage.boot? = s.boots c := by
        rw [boots_new new]
        obtain ⟨-, ⟨_, -, rfl, -⟩ | ⟨_, -, -, -, rfl⟩⟩ := Manager.enter_cases entered
        · rfl
        · rfl
      refine matched.set (.enter entered) ?_ ?_ ?_ ?_
      · rwa [show update s.boots c (Task.command text stage).boot? = s.boots from
          update_eq_self_iff.mpr unbooted]
      · intro call called
        obtain ⟨-, ⟨_, -, rfl, -⟩ | ⟨_, -, -, -, rfl⟩⟩ := Manager.enter_cases entered
        · simp [Task.call?, Stage.call?] at called
        · simp only [Task.call?, Stage.call?, Option.some.injEq] at called
          subst called
          trivial
      · rintro text' call ⟨⟩
        obtain ⟨-, ⟨_, -, out, -⟩ | ⟨_, -, -, -, inside⟩⟩ := Manager.enter_cases entered
        · simp at out
        · simp only [Stage.inside.injEq] at inside
          rw [inside]
      · rintro text' out ⟨⟩
        obtain ⟨-, ⟨_, -, out, -⟩ | ⟨_, -, -, -, inside⟩⟩ := Manager.enter_cases entered
        · simp at out
        · simp at inside
  | @moves c text call move m d stage here advanced =>
      have same := matched.text c text call here
      have called : s.calls c = some call := calls_get here
      have starting : s.boots c = call.phase.boot? := boots_get here
      have step := Manager.advances advanced
      have serving := matched.serving.advance called starting
        (fun phase session there => by
          obtain rfl := Manager.entered_writes phase advanced
          simpa [writesLate, called, there] using fresh)
        (fun action session there => by
          subst action
          simpa [leavesOver, called, there] using drained)
        (fun i buf phase stops accepted session there => by
          cases move with
          | poll poll =>
              rw [phase] at starting
              have stops : poll.stops = true := stops
              simpa [leavesOver, starting, Phase.boot?, stops, accepted, there] using drained
          | _ => simp [Manager.Move.stops] at stops)
        step
      have heard := (matched.heard c call called).advance matched.serving called
        (fun buf phase stops accepted session there => by
          cases move with
          | poll poll =>
              have stops : poll.stops = true := stops
              simpa [stopsEarly, called, phase, stops, accepted, there] using whole
          | _ => simp [Manager.Move.stops] at stops)
        step
      refine matched.set (.advance step) serving ?_ ?_ ?_
      · intro next called
        cases stage with
        | outside r => simp [Task.call?, Stage.call?] at called
        | inside other =>
            simp only [Task.call?, Stage.call?, Option.some.injEq] at called
            exact called ▸ heard
      · rintro text' call' ⟨⟩
        exact (Manager.advances_text step).trans same
      · rintro text' out ⟨⟩
        rw [← same]
        exact heard out rfl
  | @starts c spawn m d i new launched =>
      refine matched.set (.launch launched) ?_ (by simp [Task.call?]) (by simp) (by simp)
      have serving := matched.serving.launch launched c
      rwa [show update s.calls c (Task.starting i []).call? = s.calls from
        update_eq_self_iff.mpr (calls_new new).symm]
  | @unstarted c spawn m d new launched =>
      refine matched.set (.launch launched) ?_ (by simp [Task.call?]) (by simp) (by simp)
      obtain ⟨-, rfl, -⟩ := Manager.launch_refused launched
      have calls_ : update s.calls c (Task.started false).call? = s.calls :=
        update_eq_self_iff.mpr (calls_new new).symm
      have boots_ : update s.boots c (Task.started false).boot? = s.boots :=
        update_eq_self_iff.mpr (boots_new new).symm
      rw [calls_, boots_]
      exact matched.serving.closeCurrent
  | @polls c i buf poll m b here round =>
      have task (text : Text) (stage : Stage) : b.task i ≠ .command text stage := by
        cases b <;> simp [Manager.Boot.task]
      have starting : s.boots c = some (i, buf) := boots_get here
      refine matched.set (.boot (Manager.boots round)) ?_ (by simp)
        (fun _ _ is => absurd is (task _ _)) fun _ _ is => absurd is (task _ _)
      rw [Manager.Boot.task_boot, show update s.calls c (b.task i).call? = s.calls from
        update_eq_self_iff.mpr (by rw [Manager.Boot.task_call, calls_get here]; rfl)]
      refine matched.serving.boot starting (fun started session there => ?_) (Manager.boots round)
      obtain ⟨stops, accepted⟩ := Manager.boot_started (started ▸ round)
      simpa [leavesOver, starting, stops, accepted, there] using drained
  | happens happened =>
      exact ⟨matched.serving.env happened, fun c call called =>
        (matched.heard c call called).grow (.env happened), matched.text, fun c text out found =>
        (matched.responded c text out found).grow (.env happened)⟩

end Desk

/-- In every run in which no command writes to a session on which a reader gave up,
no reader takes a prompt for the last that is not, and no drain and no start leaves
anything over, a command that returns an answer returns the interpreter's answer to
its own last line. -/
theorem answers_match {I : Interpreter G} {path : Text} {s : Desk G}
    (reached : (desk I path).Reachable (Desk.InStep path) s) {c : Nat} {text out : Text}
    (returned : s.tasks.get c = some (.command text (.outside (.ok out)))) :
    s.manager.Responded path c text out := by
  have matched : Desk.Matched path s :=
    reached.invariant Desk.matched_init fun _ _ _ _ matched inStep taken =>
      Desk.matched_step matched inStep (Desk.steps taken)
  exact matched.responded c text out returned

/-! ## A late answer -/

/-- The prompt and the title of the terminal's window. -/
def titled : Text := ">\x1b]2;ZORK\x07 ".toList

/-- An interpreter that says what it was told. Its game is the list of commands
played, the newest first. -/
def parrot : Interpreter (List Text) where
  fresh := []
  banner := "ZORK\r\n\r\n".toList ++ titled
  play told line := line :: told
  output _ asked line _ :=
    match after asked line with
    | none => line ++ "\r\nYou ".toList ++ line ++ ".\r\n\r\n".toList ++ titled
    | some _ => line ++ "\r\nFilename: ".toList

/-- The file the parrot saves to. -/
def perch : Text := "/saves/zork1.sav".toList

def look : Text := "look".toList

def wait : Text := "wait".toList

namespace Desk

/-- The manager starts its session. -/
def opening : List Act :=
  [.start 0 .ok, .env (.deliver 0 19), .poll 0 (.data 19), .poll 0 .idle]

/-- A command reads what its session prints and returns. The title of the window
comes when the reader has stopped. -/
def reading (c n : Nat) : List Act :=
  [.env (.deliver 0 n), .move c (.poll (.data n)), .move c (.poll .idle), .env (.deliver 0 10),
    .move c .drained, .move c .leave]

/-- One command, answered in time. -/
def answering : List Act :=
  opening ++ [Act.enter 1 look, .move 1 .write, .env (.consume 0 true)] ++ reading 1 20

/-- The context of the first command ends before its answer arrives. -/
def cancelling : List Act :=
  opening ++ [Act.enter 1 look, .move 1 .write, .move 1 (.poll .cancelled), .move 1 .leave,
    .env (.consume 0 true), .enter 2 wait, .move 2 .write] ++ reading 2 20

/-- The command that an action sends. -/
def Act.text? : Act → Option Text
  | .enter _ text => some text
  | _ => none

theorem asked_single {actions : List Act} (sent : actions.filterMap Act.text? ⊆ [look, wait]) :
    ∀ a ∈ actions, ∀ _ : Desk (List Text), Asked perch a := by
  intro a listed _
  cases a with
  | enter c text =>
      have known : text ∈ [look, wait] := sent (List.mem_filterMap.mpr ⟨_, listed, rfl⟩)
      have single : ∀ text ∈ [look, wait], '\n' ∉ text ∧ requestOf text = none := by decide
      obtain ⟨one, plain⟩ := single text known
      exact ⟨one, fun _ requested => by simp [plain] at requested⟩
  | move | start | poll | env => trivial

end Desk

theorem answers_match_look :
    ∃ s : Desk (List Text),
      s.tasks.get 1 = some (.command look (.outside (.ok "You look.".toList))) ∧
        s.manager.Responded perch 1 look "You look.".toList := by
  obtain ⟨s, reached, returned⟩ := System.reaches (desk parrot perch)
    (fun s a => s.writesLate a = false ∧ s.stopsEarly a = false ∧ s.leavesOver a = false)
    (fun s => s.tasks.get 1 = some (.command look (.outside (.ok "You look.".toList))))
    Desk.answering (Desk.asked_single (by decide)) (by decide)
  have inStep : (desk parrot perch).Reachable (Desk.InStep perch) s := by
    refine reached.mono fun s a guard => ?_
    obtain ⟨⟨fresh, whole, drained⟩, asked⟩ := guard
    exact ⟨fresh, whole, drained, asked⟩
  exact ⟨s, returned, answers_match inStep returned⟩

theorem late_answer_is_returned :
    ∃ s, (desk parrot perch).Reachable (fun _ a => Desk.Asked perch a) s ∧
      s.tasks.get 2 = some (.command wait (.outside (.ok "look\nYou look.".toList))) ∧
      ¬ s.manager.Responded perch 2 wait "look\nYou look.".toList := by
  obtain ⟨s, reached, returned⟩ := System.reaches (desk parrot perch) (fun _ _ => True)
    (fun s => s.tasks.get 2 = some (.command wait (.outside (.ok "look\nYou look.".toList))) ∧
      ¬ s.manager.Responded perch 2 wait "look\nYou look.".toList)
    Desk.cancelling (Desk.asked_single (by decide)) (by decide)
  exact ⟨s, reached.mono fun _ _ => And.right, returned⟩

end Zorkbot.Pty
