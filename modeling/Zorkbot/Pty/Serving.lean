/-
# The manager gives each command its own answer

The invariant of one manager's exchanges, for any number of commands and starts
in progress: who reads a terminal holds its mutex and awaits the answer to the
line it wrote, a session nobody holds is quiet, and a session that is being
started is read by its starter alone. A session on which a reader gave up is
outside the second part: an answer may still be on its way there. The second
part also takes that a reader's drain leaves nothing on its way, and that a
start has read the whole banner.

Commands and starts are given by who is at which point. So the invariant serves
one manager used on its own and every manager of a pool alike.
-/

import Mathlib.Logic.Function.Basic
import Zorkbot.Pty.Exchange

namespace Zorkbot.Pty

open Go Function

variable {G : Type}

/-- A line that a command writes, with the request it is written under. -/
inductive Turn (path text : Text) : Option Request → Text → Prop
  | command : Turn path text none text
  | name {request : Request} (requested : requestOf text = some request) :
      Turn path text (some request) path

/-- The last line written for a command, whose answer is returned. -/
def lastLine (path text : Text) : Text := if isSaveRestoreCommand text then path else text

/-- What follows a filename question is the name of the file. -/
theorem Turn.of_filename {path text line : Text} {asked : Option Request}
    (turn : Turn path text asked line) (asks : Want.of (after asked line) = .filename) :
    ∃ request, requestOf text = some request ∧ after asked line = some request := by
  cases turn with
  | command =>
      cases requested : requestOf text with
      | none => simp [after, requested, Want.of] at asks
      | some request => exact ⟨request, rfl, requested⟩
  | name => simp [after, Want.of] at asks

/-- What is answered with a prompt is the last line. -/
theorem Turn.of_prompt {path text line : Text} {asked : Option Request}
    (turn : Turn path text asked line) (asks : Want.of (after asked line) = .prompt) :
    after asked line = none ∧ line = lastLine path text := by
  cases turn with
  | command =>
      cases requested : requestOf text with
      | none => simp [after, lastLine, isSaveRestoreCommand, requested]
      | some request => simp [after, requested, Want.of] at asks
  | name requested => simp [after, lastLine, isSaveRestoreCommand, requested]

/-- The call that a stage is inside. -/
def Stage.call? : Stage → Option Call
  | .inside call => some call
  | .outside _ => none

/-- The start that a phase waits for. -/
def Phase.boot? : Phase → Option (Nat × Text)
  | .booting i buf => some (i, buf)
  | _ => none

/-- The start that a stage waits for. -/
def Stage.boot? (stage : Stage) : Option (Nat × Text) := stage.call?.bind (·.phase.boot?)

namespace Manager

/-- What a start waits for after a round. -/
def Boot.boot? (i : Nat) : Boot → Option (Nat × Text)
  | .waiting buf => some (i, buf)
  | .started | .failed => none

variable {I : Interpreter G} {path : Text} {m m' : Manager G} {d d' : Disk G} {c i : Nat}
  {s s' : Session G} {calls : Nat → Option Call} {boots : Nat → Option (Nat × Text)}
  {move : Move}

/-- Where a command stands with its session while it holds the terminal: it awaits
an answer, or it has stopped reading it. -/
def Talks (path : Text) (c : Nat) (call : Call) (m : Manager G) : Prop :=
  match call.phase with
  | .reading want buf =>
      ∃ s asked line, m.sessions[call.session]? = some s ∧ s.ready = true ∧ s.mu = some c ∧
        Turn path call.text asked line ∧ want = Want.of (after asked line) ∧
        s.Awaits c line asked buf
  | .draining want _ =>
      ∃ s asked line, m.sessions[call.session]? = some s ∧ s.ready = true ∧ s.mu = some c ∧
        Turn path call.text asked line ∧ want = Want.of (after asked line) ∧
        s.Answered line asked
  | _ => True

/-- A command is undisturbed when the terminal it holds is, up to being hung up. -/
theorem Talks.frame {call : Call} (talks : m.Talks path c call)
    (same : ∀ s : Session G, m.sessions[call.session]? = some s → s.mu = some c →
      ∃ opened running, m'.sessions[call.session]? =
        some { s with ptmxOpen := opened, running := running }) :
    m'.Talks path c call := by
  unfold Talks at talks ⊢
  split
  · next want buf phase =>
      rw [phase] at talks
      obtain ⟨s, asked, line, there, ready, held, turn, asks, awaits⟩ := talks
      obtain ⟨opened, running, there'⟩ := same s there held
      refine ⟨_, asked, line, there', ready, held, turn, asks, ?_⟩
      cases awaits with
      | unread pending wire tty nothing asking => exact .unread pending wire tty nothing asking
      | printed input recorded whole asking => exact .printed input recorded whole asking
  · next want raw phase =>
      rw [phase] at talks
      obtain ⟨s, asked, line, there, ready, held, turn, asks, answered⟩ := talks
      obtain ⟨opened, running, there'⟩ := same s there held
      exact ⟨_, asked, line, there', ready, held, turn, asks, answered.input, answered.asking⟩
  · trivial

/-- The exchanges of a manager are in order. -/
structure Serving (path : Text) (m : Manager G) (calls : Nat → Option Call)
    (boots : Nat → Option (Nat × Text)) : Prop where
  quiet : ∀ (i : Nat) (s : Session G), m.sessions[i]? = some s → s.ready = true → s.mu = none →
    s.abandoned = false → s.Quiet
  single : ∀ c call, calls c = some call → SingleLine path call.text
  talks : ∀ c call, calls c = some call → m.Talks path c call
  booting : ∀ c i buf, boots c = some (i, buf) →
    m.mu = true ∧ ∃ s : Session G, m.sessions[i]? = some s ∧ s.Booting
  alone : ∀ c c' b b', boots c = some b → boots c' = some b' → c = c'

namespace Serving

theorem new : Serving path (Manager.new : Manager G) (fun _ => none) (fun _ => none) where
  quiet i s there := by simp [Manager.new] at there
  single c call called := by simp at called
  talks c call called := by simp at called
  booting c i buf starting := by simp at starting
  alone c c' b b' starting := by simp at starting

/-- Who holds a terminal reads from it alone. -/
theorem held_by (serving : Serving path m calls boots) {call : Call}
    (called : calls c = some call)
    (reading : (∃ want buf, call.phase = .reading want buf) ∨
      ∃ want raw, call.phase = .draining want raw) :
    ∃ s, m.sessions[call.session]? = some s ∧ s.ready = true ∧ s.mu = some c := by
  have talks := serving.talks c call called
  unfold Talks at talks
  obtain ⟨want, buf, phase⟩ | ⟨want, raw, phase⟩ := reading
  all_goals
    rw [phase] at talks
    obtain ⟨s, _, _, there, ready, held, _⟩ := talks
    exact ⟨s, there, ready, held⟩

/-- A command goes on, or leaves, without touching a terminal. -/
theorem call (serving : Serving path m calls boots) (next : Option Call)
    (fits : ∀ call, next = some call → SingleLine path call.text ∧ m.Talks path c call) :
    Serving path m (update calls c next) boots where
  quiet := serving.quiet
  single c' call called := by
    by_cases same : c' = c
    · subst same
      exact (fits call (by simpa using called)).1
    · exact serving.single c' call (by simpa [same] using called)
  talks c' call called := by
    by_cases same : c' = c
    · subst same
      exact (fits call (by simpa using called)).2
    · exact serving.talks c' call (by simpa [same] using called)
  booting := serving.booting
  alone := serving.alone

/-- A command leaves. -/
theorem drop (serving : Serving path m calls boots) :
    Serving path m (update calls c none) boots :=
  serving.call none (by simp)

/-- A step that hangs up terminals and records nothing disturbs nobody. -/
theorem hangUp (serving : Serving path m calls boots) (mu : m'.mu = m.mu)
    (length : m'.sessions.length = m.sessions.length)
    (same : ∀ (j : Nat) (s : Session G), m.sessions[j]? = some s → ∃ opened running, m'.sessions[j]? =
      some { s with ptmxOpen := opened, running := running }) :
    Serving path m' calls boots where
  quiet j s' there ready free kept := by
    have inside : j < m.sessions.length := by
      rw [← length]
      exact (List.getElem?_eq_some_iff.mp there).1
    obtain ⟨opened, running, there'⟩ := same j _ (List.getElem?_eq_getElem inside)
    rw [there, Option.some.injEq] at there'
    subst there'
    have quiet := serving.quiet j _ (List.getElem?_eq_getElem inside) ready free kept
    exact ⟨quiet.input, quiet.wire, quiet.tty, quiet.asking⟩
  single := serving.single
  talks c call called := by
    exact (serving.talks c call called).frame fun s there _ => same _ s there
  booting c i buf starting := by
    obtain ⟨locked, s, there, booting⟩ := serving.booting c i buf starting
    obtain ⟨opened, running, there'⟩ := same i s there
    exact ⟨mu.trans locked, _, there', booting.unready, booting.input, booting.asking⟩
  alone := serving.alone

theorem closeCurrent (serving : Serving path m calls boots) :
    Serving path m.closeCurrent calls boots := by
  refine serving.hangUp (by simp) (by simp) fun j s there => ?_
  rw [closeCurrent_get, there]
  split
  · exact ⟨false, s.running && !s.alive, rfl⟩
  · exact ⟨s.ptmxOpen, s.running, rfl⟩

/-- The exchanges do not depend on which session is current, nor on the busy flag. -/
theorem flags (serving : Serving path m calls boots) (session : Option Nat) (busy : Bool) :
    Serving path { m with session := session, busy := busy } calls boots :=
  serving.hangUp rfl rfl fun _ s there => ⟨s.ptmxOpen, s.running, there⟩

theorem close (serving : Serving path m calls boots) (closed : m.close = some m') :
    Serving path m' calls boots := by
  obtain ⟨-, rfl⟩ := close_eq_some.mp closed
  exact serving.closeCurrent.flags none _

/-- A caller that no command of the manager belongs to works on a terminal that
it holds or that nobody holds. -/
theorem onSession (serving : Serving path m calls boots) (absent : calls c = none)
    (f : Session G → Session G) (there : m.sessions[i]? = some s) (ready : s.ready = true)
    (mine : s.mu = none ∨ s.mu = some c)
    (quiet : (f s).mu = none → (f s).abandoned = false → (f s).Quiet) :
    Serving path (m.onSession i f) calls boots where
  quiet j s' there' ready' free kept := by
    rw [onSession_get] at there'
    split at there'
    · next here =>
        subst here
        rw [there, Option.map_some, Option.some.injEq] at there'
        subst there'
        exact quiet free kept
    · exact serving.quiet j s' there' ready' free kept
  single := serving.single
  talks c' call called := by
    refine (serving.talks c' call called).frame fun t found held => ?_
    have elsewhere : i ≠ call.session := by
      rintro rfl
      rw [there, Option.some.injEq] at found
      subst found
      have same : c' = c := by
        rcases mine with free | mine
        · rw [free] at held; simp at held
        · rw [mine, Option.some.injEq] at held; exact held.symm
      rw [same, absent] at called
      simp at called
    rw [onSession_get, if_neg elsewhere]
    exact ⟨t.ptmxOpen, t.running, found⟩
  booting c' j buf starting := by
    obtain ⟨locked, t, found, booting⟩ := serving.booting c' j buf starting
    refine ⟨locked, t, ?_, booting⟩
    have elsewhere : i ≠ j := by
      rintro rfl
      rw [there, Option.some.injEq] at found
      subst found
      exact absurd ready (by simp [booting.unready])
    rw [onSession_get, if_neg elsewhere, found]
  alone := serving.alone

/-! ### The world outside -/

/-- A step of the outside world on one terminal keeps the exchanges in order when
it keeps each way the terminal can stand. -/
theorem outside (serving : Serving path m calls boots) (f : Session G → Session G)
    (there : m.sessions[i]? = some s) (ready : (f s).ready = s.ready) (mu : (f s).mu = s.mu)
    (abandoned : (f s).abandoned = s.abandoned) (quiet : s.Quiet → (f s).Quiet)
    (awaits : ∀ c asked line buf, s.Awaits c line asked buf → (f s).Awaits c line asked buf)
    (answered : ∀ asked line, s.Answered line asked → (f s).Answered line asked)
    (starting : s.Booting → (f s).Booting) :
    Serving path (m.onSession i f) calls boots where
  quiet j s' there' ready' free kept := by
    rw [onSession_get] at there'
    split at there'
    · next here =>
        subst here
        rw [there, Option.map_some, Option.some.injEq] at there'
        subst there'
        exact quiet (serving.quiet _ s there (ready ▸ ready') (mu ▸ free) (abandoned ▸ kept))
    · exact serving.quiet j s' there' ready' free kept
  single := serving.single
  talks c call called := by
    have talks := serving.talks c call called
    by_cases here : i = call.session
    · have there' : (m.onSession i f).sessions[call.session]? = some (f s) := by
        rw [onSession_get, if_pos here, ← here, there, Option.map_some]
      rw [here] at there
      unfold Talks at talks ⊢
      split
      · next want buf phase =>
          rw [phase] at talks
          obtain ⟨t, asked, line, found, isReady, held, turn, asks, waits⟩ := talks
          rw [there, Option.some.injEq] at found
          subst found
          exact ⟨f s, asked, line, there', ready.trans isReady, mu.trans held, turn, asks,
            awaits c asked line buf waits⟩
      · next want raw phase =>
          rw [phase] at talks
          obtain ⟨t, asked, line, found, isReady, held, turn, asks, done⟩ := talks
          rw [there, Option.some.injEq] at found
          subst found
          exact ⟨f s, asked, line, there', ready.trans isReady, mu.trans held, turn, asks,
            answered asked line done⟩
      · trivial
    · refine talks.frame fun t found _ => ⟨t.ptmxOpen, t.running, ?_⟩
      rw [onSession_get, if_neg here, found]
  booting c j buf awaited := by
    obtain ⟨locked, t, found, booting⟩ := serving.booting c j buf awaited
    refine ⟨locked, ?_⟩
    rw [onSession_get]
    split
    · next here =>
        subst here
        rw [there, Option.some.injEq] at found
        subst found
        exact ⟨f s, by rw [there]; rfl, starting booting⟩
    · exact ⟨t, found, booting⟩
  alone := serving.alone

theorem env {event : Env} (serving : Serving path m calls boots)
    (happened : m.env I path event d = some (m', d')) : Serving path m' calls boots := by
  cases happens happened with
  | @consumed i ok s s' _ there read =>
      have unread : s.input ≠ [] := fun empty => by
        simp [Session.consume_nil empty] at read
      obtain ⟨-, _, _, _, _, _, _, _, _, -, frame⟩ := Session.consume_cases read
      refine serving.outside _ there ?_ ?_ ?_ ?_ ?_ ?_ ?_
      · rw [frame]
      · rw [frame]
      · rw [frame]
      · intro quiet; exact absurd quiet.input unread
      · intro c asked line buf awaits; exact awaits.consume read
      · intro asked line answered; exact absurd answered.input unread
      · intro booting; exact absurd booting.input unread
  | delivered i n =>
      cases there : m.sessions[i]? with
      | none =>
          have same : m.onSession i (Session.deliver n) = m := by
            rw [Manager.onSession, List.modify_eq_self (by simpa using there)]
          rwa [same]
      | some s =>
          refine serving.outside _ there rfl rfl rfl ?_ ?_ ?_ ?_
          · intro quiet
            exact ⟨quiet.input, by simp [Session.deliver, quiet.wire],
              by simp [Session.deliver, quiet.wire, quiet.tty], quiet.asking⟩
          · intro c asked line buf awaits; exact awaits.deliver n
          · intro asked line answered; exact ⟨answered.input, answered.asking⟩
          · intro booting; exact ⟨booting.unready, booting.input, booting.asking⟩
  | exited i =>
      refine serving.hangUp rfl (by simp) fun j s there => ?_
      rw [onSession_get, there]
      split
      · exact ⟨s.ptmxOpen, false, rfl⟩
      · exact ⟨s.ptmxOpen, s.running, rfl⟩

/-! ### Starting a session -/

/-- While the mutex is free, no start is in progress. -/
theorem no_boots (serving : Serving path m calls boots) (free : m.mu = false) (c : Nat) :
    boots c = none := by
  cases starting : boots c with
  | none => rfl
  | some b =>
      have locked := (serving.booting c b.1 b.2 starting).1
      simp [free] at locked

theorem launch {spawn : Spawn} {j : Nat} (serving : Serving path m calls boots)
    (launched : m.launch I spawn d = some (m', d', some j)) (c : Nat) :
    Serving path m' calls (update boots c (some (j, []))) := by
  obtain ⟨free, rfl, -, rfl⟩ := launch_started launched
  have closed := serving.closeCurrent
  have none_ := serving.no_boots free
  have old (k : Nat) (s : Session G) (there : m.closeCurrent.sessions[k]? = some s)
      (fresh : Session G) : (m.closeCurrent.sessions ++ [fresh])[k]? = some s := by
    rwa [List.getElem?_append_left (List.getElem?_eq_some_iff.mp there).1]
  constructor
  · intro k s there ready unheld kept
    by_cases inside : k < m.closeCurrent.sessions.length
    · rw [List.getElem?_append_left inside] at there
      exact closed.quiet k s there ready unheld kept
    · rw [List.getElem?_append_right (Nat.le_of_not_lt inside)] at there
      have new : s = Session.spawn I d.wipes := by
        have := List.mem_of_getElem? there
        simpa using this
      subst new
      simp [Session.spawn] at ready
  · exact closed.single
  · intro c' call called
    exact (closed.talks c' call called).frame fun s there _ =>
      ⟨s.ptmxOpen, s.running, old _ s there _⟩
  · intro c' k buf starting
    by_cases same : c' = c
    · subst same
      simp only [update_self, Option.some.injEq, Prod.mk.injEq] at starting
      obtain ⟨rfl, rfl⟩ := starting
      exact ⟨rfl, _, by simp, Session.Booting.spawn I d.wipes⟩
    · simp [same, none_] at starting
  · intro c₁ c₂ b₁ b₂ first second
    have only (c' : Nat) (b : Nat × Text) (starting : update boots c (some (m.sessions.length, []))
        c' = some b) : c' = c := by
      by_contra differs
      simp [differs, none_] at starting
    rw [only c₁ b₁ first, only c₂ b₂ second]

/-- The starter works on the session it starts, whose terminal is its own. -/
theorem onBooting {buf : Text} (serving : Serving path m calls boots)
    (starting : boots c = some (i, buf)) (there : m.sessions[i]? = some s)
    (f : Session G → Session G) (session : Option Nat) (busy mu : Bool)
    (next : Option (Nat × Text))
    (quiet : (f s).ready = true → (f s).Quiet)
    (goes : ∀ j buf', next = some (j, buf') → mu = true ∧ j = i ∧ (f s).Booting) :
    Serving path { m.onSession i f with session := session, busy := busy, mu := mu } calls
      (update boots c next) where
  quiet j s' there' ready free kept := by
    rw [onSession_get] at there'
    split at there'
    · next here =>
        subst here
        rw [there, Option.map_some, Option.some.injEq] at there'
        subst there'
        exact quiet ready
    · exact serving.quiet j s' there' ready free kept
  single := serving.single
  talks c' call called := by
    obtain ⟨-, t, found, booting⟩ := serving.booting c i buf starting
    rw [there, Option.some.injEq] at found
    subst found
    have talks := serving.talks c' call called
    by_cases here : i = call.session
    · unfold Talks at talks ⊢
      subst here
      split
      · next want raw phase =>
          rw [phase] at talks
          obtain ⟨t, _, _, found, ready, _⟩ := talks
          rw [there, Option.some.injEq] at found
          subst found
          simp [booting.unready] at ready
      · next want raw phase =>
          rw [phase] at talks
          obtain ⟨t, _, _, found, ready, _⟩ := talks
          rw [there, Option.some.injEq] at found
          subst found
          simp [booting.unready] at ready
      · trivial
    · refine talks.frame fun t found _ => ⟨t.ptmxOpen, t.running, ?_⟩
      rw [onSession_get, if_neg here, found]
  booting c' j buf' awaited := by
    by_cases same : c' = c
    · subst same
      obtain ⟨locked, rfl, booting⟩ := goes j buf' (by simpa using awaited)
      exact ⟨locked, f s, by rw [onSession_get, if_pos rfl, there]; rfl, booting⟩
    · rw [update_of_ne same] at awaited
      exact absurd (serving.alone c' c _ _ awaited starting) same
  alone c₁ c₂ b₁ b₂ first second := by
    have only (c' : Nat) (b : Nat × Text) (awaited : update boots c next c' = some b) :
        c' = c := by
      by_contra differs
      rw [update_of_ne differs] at awaited
      exact differs (serving.alone c' c _ _ awaited starting)
    rw [only c₁ b₁ first, only c₂ b₂ second]

/-- A round of a start keeps the exchanges in order, when one that succeeds leaves
nothing of the banner to read. -/
theorem boot {buf : Text} {b : Boot} (serving : Serving path m calls boots)
    (starting : boots c = some (i, buf))
    (whole : b = .started → ∀ s, m.sessions[i]? = some s → s.tty = [] ∧ s.wire = [])
    (round : Boots i buf m m' b) : Serving path m' calls (update boots c (Boot.boot? i b)) := by
  obtain ⟨locked, t, found, booting⟩ := serving.booting c i buf starting
  cases round with
  | @read s n there positive available =>
      rw [there, Option.some.injEq] at found
      subst found
      refine serving.onBooting starting there _ m.session m.busy m.mu _ ?_ ?_
      · intro ready; simp [booting.unready] at ready
      · intro j buf' next
        simp only [Boot.boot?, Option.some.injEq, Prod.mk.injEq] at next
        obtain ⟨rfl, rfl⟩ := next
        exact ⟨locked, rfl, booting.unready, booting.input, booting.asking⟩
  | @started s there accepted settled =>
      rw [there, Option.some.injEq] at found
      subst found
      obtain ⟨tty, wire⟩ := whole rfl s there
      refine serving.onBooting starting there _ (some i) false false _ ?_ ?_
      · intro _; exact booting.quiet tty wire
      · intro j buf' next; simp [Boot.boot?] at next
  | @failed s there =>
      rw [there, Option.some.injEq] at found
      subst found
      refine serving.onBooting starting there _ m.session m.busy false _ ?_ ?_
      · intro ready; simp [Session.close, booting.unready] at ready
      · intro j buf' next; simp [Boot.boot?] at next

/-! ### A command -/

theorem enter {text : Text} {stage : Stage} (serving : Serving path m calls boots)
    (single : SingleLine path text) (entered : m.enter text = some (m', stage)) :
    Serving path m' (update calls c stage.call?) boots := by
  obtain ⟨-, ⟨err, rfl, rfl, -⟩ | ⟨i, -, -, rfl, rfl⟩⟩ := enter_cases entered
  · exact serving.drop
  · refine (serving.flags _ true).call _ fun call next => ?_
    simp only [Stage.call?, Option.some.injEq] at next
    subst next
    exact ⟨single, trivial⟩

/-- A command's next step keeps the exchanges in order, unless it writes to a
session on which a reader gave up, or it ends its drain, or the start it waits
for, while a part of what was printed is still to come. -/
theorem advance {call : Call} {stage : Stage} (serving : Serving path m calls boots)
    (called : calls c = some call)
    (starting : boots c = call.phase.boot?)
    (fresh : call.phase = .entered → ∀ s, m.sessions[call.session]? = some s →
      s.abandoned = false)
    (drained : move = .drained → ∀ s, m.sessions[call.session]? = some s → s.wire = [])
    (whole : ∀ i buf, call.phase = .booting i buf → move.stops = true → hasPrompt buf = true →
      ∀ s, m.sessions[i]? = some s → s.tty = [] ∧ s.wire = [])
    (step : Advances I path c call move m d m' d' stage) :
    Serving path m' (update calls c stage.call?) (update boots c stage.boot?) := by
  have single := serving.single c call called
  have absent : update calls c none c = none := update_self ..
  -- The command goes on without a start to wait for.
  have idle {m' : Manager G} {next : Phase} (waiting : call.phase.boot? = none)
      (after : next.boot? = none) (kept : Serving path m' (update calls c none) boots)
      (talks : m'.Talks path c (call.to next)) :
      Serving path m' (update calls c (Stage.inside (call.to next)).call?)
        (update boots c (Stage.inside (call.to next)).boot?) := by
    have same : update boots c (Stage.inside (call.to next)).boot? = boots := by
      rw [update_eq_self_iff, starting, waiting]
      exact after
    rw [same]
    have gone := kept.call (c := c) (some (call.to next)) (by
      rintro _ ⟨⟩
      exact ⟨single, talks⟩)
    rwa [update_idem] at gone
  cases step with
  | notReady phase there unready =>
      exact idle (by simp [phase, Phase.boot?]) rfl serving.drop trivial
  | unwritten phase there closed =>
      exact idle (by simp [phase, Phase.boot?]) rfl serving.drop trivial
  | @wrote s phase there ready free opened =>
      have quiet := serving.quiet _ s there ready free (fresh phase s there)
      have kept := serving.drop.onSession (c := c) absent
        (fun s => { s.writeLines c call.text with mu := some c }) there ready (.inl free) (by simp)
      refine idle (by simp [phase, Phase.boot?]) rfl kept ?_
      exact ⟨_, none, call.text, onSession_there there _, ready, rfl, .command,
        firstWant_eq _, .written quiet.input quiet.wire quiet.tty quiet.asking single.1 _⟩
  | @read s want buf n phase there positive available =>
      obtain ⟨t, found, ready, held⟩ := serving.held_by called (.inl ⟨_, _, phase⟩)
      rw [there, Option.some.injEq] at found
      subst found
      have kept := serving.drop.onSession (c := c) absent
        (fun _ => { s with tty := s.tty.drop n }) there ready (.inr held) (by simp [held])
      refine idle (by simp [phase, Phase.boot?]) rfl kept ?_
      have talks := serving.talks c call called
      simp only [Talks, phase] at talks
      obtain ⟨t, asked, line, found, -, -, turn, asks, awaits⟩ := talks
      rw [there, Option.some.injEq] at found
      subst found
      exact ⟨_, asked, line, onSession_there there _, ready, held, turn, asks, awaits.read n⟩
  | @settled s want buf phase there accepted settled =>
      refine idle (by simp [phase, Phase.boot?]) rfl serving.drop ?_
      have talks := serving.talks c call called
      simp only [Talks, phase] at talks
      obtain ⟨t, asked, line, found, ready, held, turn, asks, awaits⟩ := talks
      exact ⟨t, asked, line, found, ready, held, turn, asks, (awaits.accepts accepted).1⟩
  | @gaveUp s want buf poll next phase there ends action cause =>
      obtain ⟨t, found, ready, held⟩ := serving.held_by called (.inl ⟨_, _, phase⟩)
      rw [there, Option.some.injEq] at found
      subst found
      have kept := serving.drop.onSession (c := c) absent
        (fun s => { s with mu := none, abandoned := s.abandoned || true }) there ready
        (.inr held) (by simp)
      rcases ends with rfl | ⟨err, rfl⟩
      · exact idle (by simp [phase, Phase.boot?]) rfl kept trivial
      · exact idle (by simp [phase, Phase.boot?]) rfl kept trivial
  | @answered s raw phase there action =>
      have talks := serving.talks c call called
      simp only [Talks, phase] at talks
      obtain ⟨t, asked, line, found, ready, held, turn, asks, done⟩ := talks
      rw [there, Option.some.injEq] at found
      subst found
      have wire := drained action s there
      obtain ⟨idled, rfl⟩ := turn.of_prompt asks.symm
      have kept := (serving.drop.onSession (c := c) absent Session.drainPTY there ready
        (.inr held) (by simp [Session.drainPTY, held])).onSession (c := c) absent
        (fun s => { s with mu := none, abandoned := s.abandoned || false })
        (onSession_there there _) ready (.inr held) (fun _ _ =>
          ⟨done.input, wire, rfl, done.asking.trans idled⟩)
      exact idle (by simp [phase, Phase.boot?]) rfl kept trivial
  | @unnamed s raw phase there closed =>
      obtain ⟨t, found, ready, held⟩ := serving.held_by called (.inr ⟨_, _, phase⟩)
      rw [there, Option.some.injEq] at found
      subst found
      have kept := (serving.drop.onSession (c := c) absent Session.drainPTY there ready
        (.inr held) (by simp [Session.drainPTY, held])).onSession (c := c) absent
        (fun s => { s with mu := none, abandoned := s.abandoned || true })
        (onSession_there there _) ready (.inr held) (by simp)
      exact idle (by simp [phase, Phase.boot?]) rfl kept trivial
  | @named s raw phase there opened action =>
      have talks := serving.talks c call called
      simp only [Talks, phase] at talks
      obtain ⟨t, asked, line, found, ready, held, turn, asks, done⟩ := talks
      rw [there, Option.some.injEq] at found
      subst found
      have wire := drained action s there
      obtain ⟨request, requested, waiting⟩ := turn.of_filename asks.symm
      have kept := serving.drop.onSession (c := c) absent
        (fun s => s.drainPTY.writeLines c path) there ready (.inr held)
        (fun free => by simp [Session.writeLines, Session.drainPTY, held] at free)
      refine idle (by simp [phase, Phase.boot?]) rfl kept ?_
      exact ⟨_, some request, path, onSession_there there _, ready, held, .name requested, rfl,
        .written (s := s.drainPTY) done.input wire rfl (done.asking.trans waiting)
          (single.2 request requested) s.mu⟩
  | @relaunched spawn m' d' j phase launched =>
      exact (serving.launch launched c).call (c := c) (some (call.to (.booting j []))) (by
        rintro _ ⟨⟩
        exact ⟨single, trivial⟩)
  | unlaunched phase launched =>
      obtain ⟨-, rfl, -⟩ := launch_refused launched
      exact idle (by simp [phase, Phase.boot?]) rfl serving.closeCurrent.drop trivial
  | @booting j buf buf' m' phase round =>
      exact (serving.boot (by rw [starting, phase]; rfl) (by simp) round).call (c := c)
        (some (call.to (.booting j buf'))) (by
          rintro _ ⟨⟩
          exact ⟨single, trivial⟩)
  | @booted j buf m' b phase round ended action =>
      have kept := (serving.boot (by rw [starting, phase]; rfl)
        (fun started => whole j buf phase (action started).1 (action started).2) round).call (c := c)
        (some (call.to (.leaving (.err .timeout)))) (by
          rintro _ ⟨⟩
          exact ⟨single, trivial⟩)
      have next : Boot.boot? j b = none := by
        rcases ended with rfl | rfl <;> rfl
      rwa [next] at kept
  | @left r phase free =>
      have same : update boots c (Stage.outside r).boot? = boots := by
        rw [update_eq_self_iff, starting, phase]
        rfl
      rw [same]
      exact serving.drop.flags m.session false

end Serving

end Manager

end Zorkbot.Pty
