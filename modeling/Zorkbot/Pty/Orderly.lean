/-
# A manager whose interpreter answers in time

As long as every command is answered before its reader gives up, no interpreter
exits by itself, and a reader that stops leaves nothing to be read later, a
manager has one command in progress at most, its busy flag says whether there is
one, and its current session is up. Of the requests that are always carried out,
what a command asks for has been done when the command returns.
-/

import Zorkbot.Pty.Processes

namespace Zorkbot.Pty

open Go Function

variable {G : Type}

/-- A session that has been started and has not been closed. -/
structure Session.Up (s : Session G) : Prop where
  ready : s.ready = true
  opened : s.ptmxOpen = true
  running : s.running = true
  kept : s.abandoned = false

/-- A phase of a command that is answered in time. -/
def Phase.inTime : Phase → Bool
  | .entered | .reading _ _ | .draining _ _ | .leaving (.ok _) => true
  | _ => false

/-- A phase in which a command holds its session's mutex. -/
def Phase.reads : Phase → Bool
  | .reading _ _ | .draining _ _ => true
  | _ => false

/-- The request was carried out: the game was saved, or it was loaded. -/
def Session.did (s : Session G) : Request → Bool
  | .save => s.saved
  | .restore => s.restored

/-- What the command for a request has achieved in this phase. -/
def Session.DoesIn (s : Session G) (request : Request) : Phase → Prop
  | .reading .prompt _ => s.asking = some request ∨ s.did request = true
  | .draining .prompt _ | .leaving _ => s.did request = true
  | _ => True

/-- What the request needs on the disk is there. -/
def Disk.Has (d : Disk G) : Request → Prop
  | .save => d.dir ≠ .absent
  | .restore => d.save ≠ none

namespace Session

variable {I : Interpreter G} {path : Text} {ok : Bool} {s s' : Session G} {d d' : Disk G} {c : Nat}

/-- A game that was saved counts as saved until a command is completed, and one that
was loaded as loaded. -/
theorem consume_did {request : Request} (consumed : s.consume I path ok d = some (s', d'))
    (did : s.did request = true) : s'.did request = true := by
  obtain ⟨-, c, line, rest, t, -, obeys, same⟩ := consume_obeys consumed
  have kept : t.did request = true := by
    cases request <;> cases obeys <;> first | rfl | exact did
  cases request with
  | save => exact same.saved.trans kept
  | restore => exact same.restored.trans kept

/-- An interpreter that asked for the name of a file, and is told it, saves to it or
loads it. -/
theorem consume_does {request : Request} (consumed : s.consume I path ok d = some (s', d'))
    (asked : s.asking = some request) (named : s.input = [(c, path)]) (able : ok = true)
    (has : d.Has request) : s'.did request = true := by
  obtain ⟨-, c', line, rest, t, input, obeys, same⟩ := consume_obeys consumed
  rw [named, List.cons.injEq, Prod.mk.injEq] at input
  cases obeys with
  | plays idle | asks idle => rw [asked] at idle; simp at idle
  | saves asked' =>
      rw [asked, Option.some.injEq] at asked'
      subst asked'
      exact same.saved
  | loads asked' =>
      rw [asked, Option.some.injEq] at asked'
      subst asked'
      exact same.restored
  | fails asked' cause =>
      rw [asked, Option.some.injEq] at asked'
      subst asked'
      rcases cause with other | unable | ⟨rfl, unwritten⟩ | ⟨rfl, unread⟩
      · exact absurd input.1.2.symm other
      · rw [able] at unable; simp at unable
      · unfold Disk.write at unwritten
        split at unwritten
        · next absent => exact absurd absent has
        · simp at unwritten
      · exact absurd unread has

end Session

namespace Manager

variable {I : Interpreter G} {path : Text} {m m' : Manager G} {d d' : Disk G} {c i : Nat}
  {s s' : Session G} {calls : Nat → Option Call} {boots : Nat → Option (Nat × Text)} {move : Move}
  {carried : Request → Prop}

/-- The commands of a manager are in order and in time, and certain requests are
carried out. -/
structure Orderly (carried : Request → Prop) (path : Text) (m : Manager G)
    (calls : Nat → Option Call) (boots : Nat → Option (Nat × Text)) : Prop where
  serving : Serving path m calls boots
  up : ∀ i, m.session = some i → ∃ s : Session G, m.sessions[i]? = some s ∧ s.Up
  /-- While a session is being started, no command is in progress. -/
  starting : ∀ c i buf, boots c = some (i, buf) →
    (∃ s : Session G, m.sessions[i]? = some s ∧ s.ptmxOpen = true ∧ s.running = true ∧
      s.abandoned = false ∧ s.mu = none) ∧ ∀ c', calls c' = none
  alone : ∀ c c' call call', calls c = some call → calls c' = some call' → c = c'
  busy : m.busy = true ↔ ∃ c call, calls c = some call
  here : ∀ c call, calls c = some call → m.session = some call.session
  phase : ∀ c call, calls c = some call → call.phase.inTime = true
  holds : ∀ i (s : Session G) c, m.session = some i → m.sessions[i]? = some s → s.mu = some c →
    ∃ call, calls c = some call ∧ call.phase.reads = true
  does : ∀ c call request, calls c = some call → requestOf call.text = some request →
    carried request → ∀ s : Session G, m.sessions[call.session]? = some s →
      s.DoesIn request call.phase

namespace Orderly

/-- While nobody uses the manager, its current session is quiet. -/
theorem quiet (orderly : Orderly carried path m calls boots) (nobody : ∀ c, calls c = none)
    (current : m.session = some i) (there : m.sessions[i]? = some s) : s.Up ∧ s.Quiet := by
  obtain ⟨t, found, up⟩ := orderly.up i current
  rw [there, Option.some.injEq] at found
  subst found
  refine ⟨up, orderly.serving.quiet i s there up.ready ?_ up.kept⟩
  cases held : s.mu with
  | none => rfl
  | some c =>
      obtain ⟨call, called, -⟩ := orderly.holds i s c current there held
      rw [nobody c] at called
      simp at called

/-- The command of a caller works on the current session. -/
theorem at_call {call : Call} (orderly : Orderly carried path m calls boots)
    (called : calls c = some call) :
    ∃ s : Session G, m.sessions[call.session]? = some s ∧ s.Up :=
  orderly.up _ (orderly.here c call called)

theorem launched {spawn : Spawn} {j : Nat}
    (launched : Manager.new.launch I spawn d = some (m, d', some j)) (c : Nat) :
    Orderly carried path m (fun _ => none) (update (fun _ => none) c (some (j, []))) := by
  have serving : Serving path m (fun _ => none) (update (fun _ => none) c (some (j, []))) :=
    Serving.new.launch launched c
  obtain ⟨-, rfl, -, rfl⟩ := launch_started launched
  refine ⟨serving, ?_, ?_, by simp, ?_, by simp, by simp, ?_, by simp⟩
  · intro i current
    simp [Manager.new, closeCurrent] at current
  · intro c' i buf starting
    refine ⟨?_, fun _ => rfl⟩
    by_cases same : c' = c
    · subst same
      simp only [update_self, Option.some.injEq, Prod.mk.injEq] at starting
      obtain ⟨rfl, -⟩ := starting
      exact ⟨Session.spawn I d.wipes, by simp [Manager.new, closeCurrent], rfl, rfl, rfl, rfl⟩
    · simp [same] at starting
  · simp [Manager.new, closeCurrent]
  · intro i s c' current
    simp [Manager.new, closeCurrent] at current

/-- The current session stays up when what is done to one session keeps it up. -/
theorem up_onSession (orderly : Orderly carried path m calls boots) (f : Session G → Session G)
    (keeps : ∀ s, m.sessions[i]? = some s → s.Up → (f s).Up) (j : Nat)
    (current : m.session = some j) :
    ∃ s : Session G, (m.onSession i f).sessions[j]? = some s ∧ s.Up := by
  obtain ⟨s, there, up⟩ := orderly.up j current
  rw [onSession_get]
  split
  · next here =>
      subst here
      exact ⟨f s, by rw [there]; rfl, keeps s there up⟩
  · exact ⟨s, there, up⟩

theorem boot {buf : Text} {b : Boot} (orderly : Orderly carried path m calls boots)
    (starting : boots c = some (i, buf))
    (whole : b = .started → ∀ s, m.sessions[i]? = some s → s.tty = [] ∧ s.wire = [])
    (round : Boots i buf m m' b) : Orderly carried path m' calls (update boots c (b.boot? i)) := by
  have serving := orderly.serving.boot starting whole round
  obtain ⟨⟨t, found, opened, running, kept, free⟩, nobody⟩ := orderly.starting c i buf starting
  obtain ⟨-, t', found', booting⟩ := orderly.serving.booting c i buf starting
  rw [found, Option.some.injEq] at found'
  subst found'
  have nobody' : ∀ {P : Nat → Call → Prop}, ∀ c call, calls c = some call → P c call := by
    intro P c call called
    rw [nobody c] at called
    simp at called
  have idle : ∀ {P : Nat → Call → Request → Prop}, ∀ c call request, calls c = some call →
      P c call request := by
    intro P c call request called
    rw [nobody c] at called
    simp at called
  have only (c' : Nat) (x : Nat × Text) (next : Option (Nat × Text))
      (later : update boots c next c' = some x) : next = some x := by
    by_cases same : c' = c
    · subst same; simpa using later
    · rw [update_of_ne same] at later
      exact absurd (orderly.serving.alone c' c _ _ later starting) same
  cases round with
  | @read s n there positive available =>
      rw [there, Option.some.injEq] at found
      subst found
      refine ⟨serving, ?_, ?_, orderly.alone, ?_, nobody', nobody', ?_, idle⟩
      · exact orderly.up_onSession _ fun t found up => by
          rw [there, Option.some.injEq] at found
          subst found
          exact ⟨up.ready, up.opened, up.running, up.kept⟩
      · intro c' j buf' later
        have next := only c' _ _ later
        simp only [Boot.boot?, Option.some.injEq, Prod.mk.injEq] at next
        obtain ⟨rfl, -⟩ := next
        exact ⟨⟨_, onSession_there there _, opened, running, kept, free⟩, nobody⟩
      · exact orderly.busy
      · intro j t c' current at_ held
        rcases Hosts.onSession_cases at_ with ⟨old, old_, rfl, rfl⟩ | ⟨-, old⟩
        · rw [show _ = none from free] at held
          simp at held
        · exact orderly.holds j t c' current old held
  | @started s there accepted settled =>
      rw [there, Option.some.injEq] at found
      subst found
      have now := onSession_there there fun _ => { s with ready := true }
      refine ⟨serving, ?_, ?_, orderly.alone, ?_, nobody', nobody', ?_, idle⟩
      · intro j current
        simp only [Option.some.injEq] at current
        subst current
        exact ⟨_, now, rfl, opened, running, kept⟩
      · intro c' j buf' later
        simpa [Boot.boot?] using only c' _ _ later
      · simp [nobody]
      · intro j t c' current at_ held
        simp only [Option.some.injEq] at current
        subst current
        have same : some t = some { s with ready := true } := at_.symm.trans now
        rw [Option.some.injEq] at same
        rw [same, show _ = none from free] at held
        simp at held
  | @failed s there =>
      rw [there, Option.some.injEq] at found
      subst found
      refine ⟨serving, ?_, ?_, orderly.alone, ?_, nobody', nobody', ?_, idle⟩
      · exact orderly.up_onSession _ fun t found up => by
          rw [there, Option.some.injEq] at found
          subst found
          exact absurd up.ready (by simp [booting.unready])
      · intro c' j buf' later
        simpa [Boot.boot?] using only c' _ _ later
      · exact orderly.busy
      · intro j t c' current at_ held
        rcases Hosts.onSession_cases at_ with ⟨old, old_, rfl, rfl⟩ | ⟨-, old⟩
        · rw [show s.close.mu = none from free] at held
          simp at held
        · exact orderly.holds j t c' current old held

/-- A command enters only when no other is in progress. -/
theorem enter {text : Text} {stage : Stage} (orderly : Orderly carried path m calls boots)
    (absent : calls c = none) (single : SingleLine path text)
    (entered : m.enter text = some (m', stage)) :
    Orderly carried path m' (update calls c stage.call?) boots := by
  have serving := orderly.serving.enter (c := c) single entered
  obtain ⟨free, ⟨err, rfl, rfl, -⟩ | ⟨i, idle, current, rfl, rfl⟩⟩ := enter_cases entered
  · rw [show update calls c (Stage.outside (.err err)).call? = calls by
      rw [update_eq_self_iff, absent]; rfl]
    exact orderly
  · have nobody (c' : Nat) : calls c' = none := by
      cases called : calls c' with
      | none => rfl
      | some call =>
          have := orderly.busy.mpr ⟨c', call, called⟩
          rw [idle] at this
          simp at this
    have only (c' : Nat) (call : Call)
        (called : update calls c (some ⟨text, i, .entered⟩) c' = some call) :
        c' = c ∧ call = ⟨text, i, .entered⟩ := by
      by_cases same : c' = c
      · subst same
        exact ⟨rfl, by simpa [eq_comm] using called⟩
      · rw [update_of_ne same, nobody] at called
        simp at called
    refine ⟨serving, orderly.up, ?_, ?_, ?_, ?_, ?_, ?_, ?_⟩
    · intro c' j buf starting
      rw [orderly.serving.no_boots free] at starting
      simp at starting
    · intro c₁ c₂ call₁ call₂ first second
      rw [(only c₁ call₁ first).1, (only c₂ call₂ second).1]
    · exact ⟨fun _ => ⟨c, _, update_self ..⟩, fun _ => rfl⟩
    · intro c' call called
      rw [(only c' call called).2]
      exact current
    · intro c' call called
      rw [(only c' call called).2]
      rfl
    · intro j s c' current' there held
      obtain ⟨call, called, -⟩ := orderly.holds j s c' current' there held
      rw [nobody] at called
      simp at called
    · intro c' call request called requested sure s there
      rw [(only c' call called).2]
      exact trivial

/-- A command goes on: its session stays up, is held by it at most, and what was
asked for is done as far as its phase requires. -/
theorem goes {call call' : Call} (orderly : Orderly carried path m calls boots)
    (called : calls c = some call)
    (serving : Serving path m' (update calls c (some call')) boots)
    (session : m'.session = m.session) (busy : m'.busy = m.busy)
    (same : call'.session = call.session) (inTime : call'.phase.inTime = true)
    (there : m'.sessions[call.session]? = some s') (up : s'.Up)
    (mine : ∀ c', s'.mu = some c' → c' = c ∧ call'.phase.reads = true)
    (does : ∀ request, requestOf call'.text = some request → carried request →
      s'.DoesIn request call'.phase) :
    Orderly carried path m' (update calls c (some call')) boots := by
  have only (c' : Nat) (call₁ : Call) (found : update calls c (some call') c' = some call₁) :
      c' = c ∧ call₁ = call' := by
    by_cases here : c' = c
    · subst here
      exact ⟨rfl, by simpa [eq_comm] using found⟩
    · rw [update_of_ne here] at found
      exact absurd (orderly.alone c' c call₁ call found called) here
  have current := orderly.here c call called
  refine ⟨serving, ?_, ?_, ?_, ?_, ?_, ?_, ?_, ?_⟩
  · intro i current'
    rw [session, current, Option.some.injEq] at current'
    exact current' ▸ ⟨s', there, up⟩
  · intro c' i buf starting
    have := (orderly.starting c' i buf starting).2 c
    rw [called] at this
    simp at this
  · intro c₁ c₂ call₁ call₂ first second
    rw [(only c₁ call₁ first).1, (only c₂ call₂ second).1]
  · rw [busy]
    exact ⟨fun _ => ⟨c, call', update_self ..⟩, fun _ => orderly.busy.mpr ⟨c, call, called⟩⟩
  · intro c' call₁ found
    rw [(only c' call₁ found).2, session, same]
    exact current
  · intro c' call₁ found
    rw [(only c' call₁ found).2]
    exact inTime
  · intro i s c' current' found held
    rw [session, current, Option.some.injEq] at current'
    subst current'
    rw [there, Option.some.injEq] at found
    subst found
    obtain ⟨rfl, reads⟩ := mine c' held
    exact ⟨call', update_self .., reads⟩
  · intro c' call₁ request found requested sure s found'
    rw [(only c' call₁ found).2] at requested found' ⊢
    rw [same, there, Option.some.injEq] at found'
    exact found' ▸ does request requested sure

/-- A command's next step. It never gives up, since its session is up and its
answer comes in time, and at the end of its drain nothing is on its way. -/
theorem advance {call : Call} {stage : Stage} (orderly : Orderly carried path m calls boots)
    (called : calls c = some call)
    (starting : boots c = call.phase.boot?)
    (timely : move ≠ .poll .cancelled ∧ move ≠ .poll .deadline)
    (drained : move = .drained → ∀ s, m.sessions[call.session]? = some s → s.wire = [])
    (step : Advances I path c call move m d m' d' stage) :
    Orderly carried path m' (update calls c stage.call?) (update boots c stage.boot?) := by
  obtain ⟨t, found, up⟩ := orderly.at_call called
  have inTime := orderly.phase c call called
  have mine (c' : Nat) (held : t.mu = some c') : c' = c ∧ call.phase.reads = true := by
    obtain ⟨other, called', reads⟩ :=
      orderly.holds _ t c' (orderly.here c call called) found held
    have same := orderly.alone c' c other call called' called
    subst same
    rw [called, Option.some.injEq] at called'
    exact ⟨rfl, called' ▸ reads⟩
  have does (request : Request) (requested : requestOf call.text = some request)
      (sure : carried request) : t.DoesIn request call.phase :=
    orderly.does c call request called requested sure t found
  have talks := orderly.serving.talks c call called
  have moved := orderly.serving.advance called starting (fun _ s there => by
    rw [found, Option.some.injEq] at there
    exact there ▸ up.kept) drained (fun i buf phase => by
    rw [phase] at inTime
    simp [Phase.inTime] at inTime) step
  have unstarted (next : Stage) (idle : next.boot? = none) : update boots c next.boot? = boots := by
    rw [idle, update_eq_self_iff, starting]
    cases phase : call.phase with
    | booting i buf => rw [phase] at inTime; simp [Phase.inTime] at inTime
    | _ => rfl
  cases step with
  | @notReady s phase there unready =>
      rw [found, Option.some.injEq] at there
      rw [← there, up.ready] at unready
      simp at unready
  | @unwritten s phase there closed =>
      rw [found, Option.some.injEq] at there
      rw [← there, up.opened] at closed
      simp at closed
  | @wrote s phase there ready free opened =>
      rw [unstarted _ rfl] at moved ⊢
      refine orderly.goes called moved rfl rfl rfl rfl (onSession_there found _)
        ⟨up.ready, up.opened, up.running, up.kept⟩ ?_ ?_
      · intro c' held
        exact ⟨by simpa [eq_comm] using held, rfl⟩
      · intro request requested _
        have filename : firstWant call.text = .filename := by
          simp only [Call.to_text] at requested
          simp [firstWant, isSaveRestoreCommand, requested]
        simp [Session.DoesIn, filename]
  | @read s want buf n phase there positive available =>
      rw [unstarted _ rfl] at moved ⊢
      rw [found, Option.some.injEq] at there
      subst there
      refine orderly.goes called moved rfl rfl rfl rfl (onSession_there found _)
        ⟨up.ready, up.opened, up.running, up.kept⟩ (fun c' held => ⟨(mine c' held).1, rfl⟩) ?_
      intro request requested sure
      have before := does request requested sure
      rw [phase] at before
      cases want <;> exact before
  | @settled s want buf phase there accepted settled =>
      rw [unstarted _ rfl] at moved ⊢
      refine orderly.goes called moved rfl rfl rfl rfl found up
        (fun c' held => ⟨(mine c' held).1, rfl⟩) ?_
      intro request requested sure
      have before := does request requested sure
      rw [phase] at before
      cases want with
      | filename => exact trivial
      | prompt =>
          simp only [Talks, phase] at talks
          obtain ⟨t', asked, line, found', -, -, turn, asks, awaits⟩ := talks
          rw [found, Option.some.injEq] at found'
          subst found'
          have idled := (awaits.accepts accepted).1.asking.trans (turn.of_prompt asks.symm).1
          rcases before with asking | done
          · rw [idled] at asking; simp at asking
          · exact done
  | @gaveUp s want buf poll next phase there ends action cause =>
      rw [found, Option.some.injEq] at there
      subst there
      subst action
      rcases cause with rfl | rfl | closed | stopped
      · exact absurd rfl timely.1
      · exact absurd rfl timely.2
      · rw [up.opened] at closed; simp at closed
      · rw [up.running] at stopped; simp at stopped
  | @answered s raw phase there =>
      rw [unstarted _ rfl] at moved ⊢
      refine orderly.goes called moved rfl rfl rfl rfl
        (onSession_there (onSession_there found Session.drainPTY) _)
        ⟨up.ready, up.opened, up.running, by simp [Session.drainPTY, up.kept]⟩ (by simp) ?_
      intro request requested sure
      have before := does request requested sure
      rw [phase] at before
      exact before
  | @unnamed s raw phase there closed =>
      rw [found, Option.some.injEq] at there
      rw [← there, up.opened] at closed
      simp at closed
  | @named s raw phase there opened =>
      rw [unstarted _ rfl] at moved ⊢
      refine orderly.goes called moved rfl rfl rfl rfl (onSession_there found _)
        ⟨up.ready, up.opened, up.running, up.kept⟩ (fun c' held => ⟨(mine c' held).1, rfl⟩) ?_
      intro request' requested _
      simp only [Talks, phase] at talks
      obtain ⟨t', asked, line, found', -, -, turn, asks, done⟩ := talks
      rw [found, Option.some.injEq] at found'
      subst found'
      obtain ⟨request, requested', waiting⟩ := turn.of_filename asks.symm
      rw [Call.to_text, requested', Option.some.injEq] at requested
      exact .inl ((done.asking.trans waiting).trans (by rw [requested]))
  | relaunched phase | unlaunched phase | booting phase | booted phase =>
      rw [phase] at inTime
      simp [Phase.inTime] at inTime
  | @left r phase free =>
      rw [unstarted _ rfl] at moved ⊢
      have nobody (c' : Nat) : update calls c none c' = none := by
        by_cases same : c' = c
        · rw [same, update_self]
        · rw [update_of_ne same]
          cases called' : calls c' with
          | none => rfl
          | some other => exact absurd (orderly.alone c' c other call called' called) same
      have none_ {P : Nat → Call → Prop} (c' : Nat) (other : Call)
          (called' : update calls c (Stage.outside r).call? c' = some other) : P c' other := by
        rw [show (Stage.outside r).call? = none from rfl, nobody] at called'
        simp at called'
      refine ⟨moved, orderly.up, ?_, ?_, ?_, none_, none_, ?_,
        fun c' other _ called' => none_ (P := fun _ _ => _) c' other called'⟩
      · intro c' i buf later
        have := (orderly.starting c' i buf later).2 c
        rw [called] at this
        simp at this
      · intro c₁ c₂ call₁ call₂ first
        exact none_ (P := fun _ _ => _) c₁ call₁ first
      · simp [Stage.call?, nobody]
      · intro i s c' current there held
        have same : s = t := by
          rw [orderly.here c call called, Option.some.injEq] at current
          subst current
          rw [found, Option.some.injEq] at there
          exact there.symm
        subst same
        have reads := (mine c' held).2
        rw [phase] at reads
        simp [Phase.reads] at reads

/-- What leaves the service's side of a session alone, and undoes nothing that a
command is for, keeps the commands in order. -/
theorem world (orderly : Orderly carried path m calls boots) (f : Session G → Session G)
    (serving : Serving path (m.onSession i f) calls boots) (there : m.sessions[i]? = some s)
    (frame : (f s).ready = s.ready ∧ (f s).ptmxOpen = s.ptmxOpen ∧ (f s).running = s.running ∧
      (f s).abandoned = s.abandoned ∧ (f s).mu = s.mu)
    (does : ∀ c call request, calls c = some call → call.session = i →
      requestOf call.text = some request → carried request → s.DoesIn request call.phase →
        (f s).DoesIn request call.phase) :
    Orderly carried path (m.onSession i f) calls boots := by
  obtain ⟨ready, opened, running, kept, mu⟩ := frame
  refine ⟨serving, ?_, ?_, orderly.alone, orderly.busy, orderly.here, orderly.phase, ?_, ?_⟩
  · refine orderly.up_onSession f fun t found up => ?_
    rw [there, Option.some.injEq] at found
    subst found
    exact ⟨ready.trans up.ready, opened.trans up.opened, running.trans up.running,
      kept.trans up.kept⟩
  · intro c j buf starting
    obtain ⟨⟨t, found, facts⟩, nobody⟩ := orderly.starting c j buf starting
    refine ⟨?_, nobody⟩
    rw [onSession_get]
    split
    · next here =>
        subst here
        rw [there, Option.some.injEq] at found
        subst found
        exact ⟨f s, by rw [there]; rfl, opened.trans facts.1, running.trans facts.2.1,
          kept.trans facts.2.2.1, mu.trans facts.2.2.2⟩
    · exact ⟨t, found, facts⟩
  · intro j t c current found held
    rcases Hosts.onSession_cases found with ⟨old, old_, rfl, rfl⟩ | ⟨-, old⟩
    · rw [there, Option.some.injEq] at old_
      subst old_
      exact orderly.holds j s c current there (mu ▸ held)
    · exact orderly.holds j t c current old held
  · intro c call request called requested sure t found
    rcases Hosts.onSession_cases found with ⟨old, old_, here, rfl⟩ | ⟨-, old⟩
    · rw [there, Option.some.injEq] at old_
      subst old_
      exact does c call request called here requested sure
        (orderly.does c call request called requested sure s (here ▸ there))
    · exact orderly.does c call request called requested sure t old

/-- Bookkeeping changes nothing while nobody uses the manager. -/
theorem unsave (orderly : Orderly carried path m calls boots) (nobody : ∀ c, calls c = none) (i : Nat) :
    Orderly carried path (m.onSession i fun s => { s with saved := false }) calls boots := by
  cases there : m.sessions[i]? with
  | none =>
      rw [Manager.onSession, List.modify_eq_self (by simpa using there)]
      exact orderly
  | some s =>
      refine orderly.world _ ?_ there ⟨rfl, rfl, rfl, rfl, rfl⟩ fun c call _ called => ?_
      · refine orderly.serving.outside _ there rfl rfl rfl ?_ ?_ ?_ ?_
        · exact fun quiet => ⟨quiet.input, quiet.wire, quiet.tty, quiet.asking⟩
        · intro c asked line buf awaits
          cases awaits with
          | unread pending wire tty nothing asking => exact .unread pending wire tty nothing asking
          | printed input recorded whole asking => exact .printed input recorded whole asking
        · exact fun asked line done => ⟨done.input, done.asking⟩
        · exact fun booting => ⟨booting.unready, booting.input, booting.asking⟩
      · rw [nobody c] at called
        simp at called

/-- A manager that nobody uses is closed. -/
theorem close (orderly : Orderly carried path m calls boots) (nobody : ∀ c, calls c = none)
    (closed : m.close = some m') : Orderly carried path m' calls boots := by
  have serving := orderly.serving.close closed
  obtain ⟨free, rfl⟩ := close_eq_some.mp closed
  have none_ {P : Nat → Call → Prop} (c : Nat) (call : Call) (called : calls c = some call) :
      P c call := by
    rw [nobody c] at called
    simp at called
  refine ⟨serving, by simp, ?_, orderly.alone, by simpa using orderly.busy, none_, none_,
    by simp, fun c call _ called => none_ (P := fun _ _ => _) c call called⟩
  intro c i buf starting
  rw [orderly.serving.no_boots free] at starting
  simp at starting

/-- An interpreter reads a line, and no executed request fails that is to be carried
out. -/
theorem consume {ok : Bool} (orderly : Orderly carried path m calls boots)
    (there : m.sessions[i]? = some s) (consumed : s.consume I path ok d = some (s', d'))
    (serving : Serving path (m.onSession i fun _ => s') calls boots)
    (has : ∀ c call request, calls c = some call → requestOf call.text = some request →
      carried request → d.Has request)
    (able : ok = true ∨ ∀ request, carried request → s.asking ≠ some request) :
    Orderly carried path (m.onSession i fun _ => s') calls boots := by
  have unread : s.input ≠ [] := fun empty => by
    simp [Session.consume_nil empty] at consumed
  refine orderly.world _ serving there ?_ fun c call request called here requested sure before => ?_
  · obtain ⟨-, _, _, _, _, _, _, _, _, -, frame⟩ := Session.consume_cases consumed
    rw [frame]
    exact ⟨rfl, rfl, rfl, rfl, rfl⟩
  · have talks := orderly.serving.talks c call called
    cases phase : call.phase with
    | reading want buf =>
        cases want with
        | filename => exact trivial
        | prompt =>
            rw [phase] at before
            rcases before with asking | done
            · simp only [Talks, phase] at talks
              obtain ⟨t, asked, line, found, -, -, turn, asks, awaits⟩ := talks
              rw [here, there, Option.some.injEq] at found
              subst found
              cases awaits with
              | unread pending =>
                  have named := (turn.of_prompt asks.symm).2
                  rw [lastLine, isSaveRestoreCommand, requested] at named
                  simp only [Option.isSome_some, if_true] at named
                  rw [named] at pending
                  refine .inr (Session.consume_does consumed asking pending ?_
                    (has c call request called requested sure))
                  rcases able with able | other
                  · exact able
                  · exact absurd asking (other request sure)
              | printed input => exact absurd input unread
            · exact .inr (Session.consume_did consumed done)
    | draining want raw =>
        cases want with
        | filename => exact trivial
        | prompt =>
            rw [phase] at before
            exact Session.consume_did consumed before
    | leaving r =>
        rw [phase] at before
        exact Session.consume_did consumed before
    | entered | timedOut | booting => exact trivial

/-- The world outside, as long as it answers and no executed request fails that is to
be carried out. -/
theorem env {event : Env} (orderly : Orderly carried path m calls boots)
    (happened : m.env I path event d = some (m', d'))
    (has : ∀ c call request, calls c = some call → requestOf call.text = some request →
      carried request → d.Has request)
    (stays : ∀ i, event ≠ .exit i)
    (able : ∀ i, event = .consume i false → ∀ s, m.sessions[i]? = some s →
      ∀ request, carried request → s.asking ≠ some request) : Orderly carried path m' calls boots := by
  have serving := orderly.serving.env happened
  cases happens happened with
  | @consumed i ok s s' _ there read =>
      refine orderly.consume there read serving has ?_
      cases ok with
      | true => exact .inl rfl
      | false => exact .inr (able i rfl s there)
  | delivered i n =>
      cases there : m.sessions[i]? with
      | none =>
          rw [Manager.onSession, List.modify_eq_self (by simpa using there)]
          exact orderly
      | some s =>
          refine orderly.world _ serving there ⟨rfl, rfl, rfl, rfl, rfl⟩
            fun c call request _ _ _ _ before => ?_
          cases phase : call.phase <;> cases request <;> rw [phase] at before <;> exact before
  | exited i => exact absurd rfl (stays i)

/-- The terminal of the current session is quiet, or it is that of a command whose
line is still unread or was read last. -/
theorem reader (orderly : Orderly carried path m calls boots) (current : m.session = some i)
    (there : m.sessions[i]? = some s) :
    s.Quiet ∨ ∃ c call asked line, calls c = some call ∧ call.phase.reads = true ∧
      Turn path call.text asked line ∧
      (s.input = [] ∧ s.asking = after asked line ∨ s.input = [(c, line)] ∧ s.asking = asked) := by
  obtain ⟨t, found, up⟩ := orderly.up i current
  rw [there, Option.some.injEq] at found
  subst found
  cases held : s.mu with
  | none => exact .inl (orderly.serving.quiet i s there up.ready held up.kept)
  | some c =>
      obtain ⟨call, called, reads⟩ := orderly.holds i s c current there held
      have talks := orderly.serving.talks c call called
      have here := orderly.here c call called
      rw [current, Option.some.injEq] at here
      refine .inr ⟨c, call, ?_⟩
      unfold Talks at talks
      split at talks
      · next phase =>
          obtain ⟨t, asked, line, at_, -, -, turn, -, awaits⟩ := talks
          rw [← here, there, Option.some.injEq] at at_
          subst at_
          refine ⟨asked, line, called, reads, turn, ?_⟩
          cases awaits with
          | unread pending wire tty nothing asking => exact .inr ⟨pending, asking⟩
          | printed input recorded whole asking => exact .inl ⟨input, asking⟩
      · next phase =>
          obtain ⟨t, asked, line, at_, -, -, turn, -, answered⟩ := talks
          rw [← here, there, Option.some.injEq] at at_
          subst at_
          exact ⟨asked, line, called, reads, turn, .inl ⟨answered.input, answered.asking⟩⟩
      · next other1 other2 =>
          cases phase : call.phase with
          | reading want buf => exact absurd phase (other1 want buf)
          | draining want raw => exact absurd phase (other2 want raw)
          | _ => rw [phase] at reads; simp [Phase.reads] at reads

end Orderly

end Manager

end Zorkbot.Pty
