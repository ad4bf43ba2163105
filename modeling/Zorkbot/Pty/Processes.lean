/-
# Which interpreters run, and who writes to them

At most one process of a manager runs: that of the session being started if
there is one, and that of the current session otherwise. Closing a manager that
starts nothing leaves none running.

What a step does to a session is small: it changes nothing that bears on the
game, or writes a command or a file name, or creates the session. Invariants
about games are proved from these cases.
-/

import Zorkbot.Pty.Serving

namespace Zorkbot.Pty

open Go Function

variable {G : Type}

/-- Nothing that bears on the game changed. The process may have ended. -/
structure Session.SameGame (s s' : Session G) : Prop where
  play : s'.play = s.play
  asking : s'.asking = s.asking
  input : s'.input = s.input
  restored : s'.restored = s.restored
  saved : s'.saved = s.saved
  running : s'.running = true → s.running = true

theorem Session.SameGame.refl (s : Session G) : s.SameGame s := ⟨rfl, rfl, rfl, rfl, rfl, id⟩

theorem Session.SameGame.close (s : Session G) : s.SameGame s.close :=
  ⟨rfl, rfl, rfl, rfl, rfl, fun running => by
    simp only [Session.close, Bool.and_eq_true] at running
    exact running.1⟩

namespace Manager

variable {I : Interpreter G} {path : Text} {m m' : Manager G} {d d' : Disk G} {c i : Nat}
  {s s' : Session G} {boots : Nat → Option (Nat × Text)} {move : Move}

/-! ## Running processes -/

/-- The processes of a manager are where they should be. -/
structure Hosts (m : Manager G) (boots : Nat → Option (Nat × Text)) : Prop where
  current : ∀ i, m.session = some i → i < m.sessions.length
  running : ∀ (j : Nat) (s : Session G), m.sessions[j]? = some s → s.running = true →
    (∃ c buf, boots c = some (j, buf)) ∨ (m.session = some j ∧ ∀ c, boots c = none)
  booting : ∀ c i buf, boots c = some (i, buf) → m.mu = true ∧ i < m.sessions.length
  alone : ∀ c c' b b', boots c = some b → boots c' = some b' → c = c'
  /-- Nothing ever waits for a process, so none is ever known to be dead. -/
  unwaited : ∀ s ∈ m.sessions, s.processState = false

namespace Hosts

theorem new : Hosts (Manager.new : Manager G) (fun _ => none) where
  current i current := by simp [Manager.new] at current
  running j s there := by simp [Manager.new] at there
  booting c i buf starting := by simp at starting
  alone c c' b b' starting := by simp at starting
  unwaited s listed := by simp [Manager.new] at listed

/-- While the mutex is free, no start is in progress. -/
theorem no_boots (hosts : Hosts m boots) (free : m.mu = false) (c : Nat) : boots c = none := by
  cases starting : boots c with
  | none => rfl
  | some b =>
      have locked := (hosts.booting c b.1 b.2 starting).1
      simp [free] at locked

/-- Whoever starts a session, nobody else does. -/
theorem others (hosts : Hosts m boots) {b : Nat × Text} (starting : boots c = some b) {c' : Nat}
    (differs : c' ≠ c) : boots c' = none := by
  cases other : boots c' with
  | none => rfl
  | some b' => exact absurd (hosts.alone c' c _ _ other starting) differs

/-- While a session is being started, no other process runs. -/
theorem only_booting (hosts : Hosts m boots) {buf : Text} (starting : boots c = some (i, buf))
    {j : Nat} (there : m.sessions[j]? = some s) (running : s.running = true) : j = i := by
  rcases hosts.running j s there running with ⟨c', buf', boot⟩ | ⟨-, none_⟩
  · have same := hosts.alone c' c _ _ boot starting
    subst same
    rw [starting, Option.some.injEq, Prod.mk.injEq] at boot
    exact boot.1.symm
  · rw [none_ c] at starting; simp at starting

/-- At most one process runs. -/
theorem sole (hosts : Hosts m boots) {j j' : Nat} {s s' : Session G}
    (there : m.sessions[j]? = some s) (running : s.running = true)
    (there' : m.sessions[j']? = some s') (running' : s'.running = true) : j = j' := by
  rcases hosts.running j s there running with ⟨c, buf, boot⟩ | ⟨current, none_⟩
  · exact (hosts.only_booting boot there' running').symm
  · rcases hosts.running j' s' there' running' with ⟨c', buf', boot'⟩ | ⟨current', -⟩
    · rw [none_ c'] at boot'; simp at boot'
    · rw [current, Option.some.injEq] at current'
      exact current'

/-- A session of a changed list is the changed one or one of the old list. -/
theorem onSession_cases {f : Session G → Session G} {j : Nat} {t : Session G}
    (found : (m.onSession i f).sessions[j]? = some t) :
    (∃ s, m.sessions[i]? = some s ∧ j = i ∧ t = f s) ∨ j ≠ i ∧ m.sessions[j]? = some t := by
  rw [onSession_get] at found
  split at found
  · next here =>
      subst here
      obtain ⟨s, there, rfl⟩ := Option.map_eq_some_iff.mp found
      exact .inl ⟨s, there, rfl, rfl⟩
  · next other => exact .inr ⟨fun same => other same.symm, found⟩

/-- A session may change in whatever does not concern its process. -/
theorem onSession (hosts : Hosts m boots) (i : Nat) (f : Session G → Session G)
    (running : ∀ s, m.sessions[i]? = some s → (f s).running = true → s.running = true)
    (waited : ∀ s, m.sessions[i]? = some s → (f s).processState = s.processState) :
    Hosts (m.onSession i f) boots where
  current j current := by simpa using hosts.current j current
  running j t found runs := by
    rcases onSession_cases found with ⟨s, there, rfl, rfl⟩ | ⟨-, found⟩
    · exact hosts.running j s there (running s there runs)
    · exact hosts.running j t found runs
  booting c' j buf starting := by simpa using hosts.booting c' j buf starting
  alone := hosts.alone
  unwaited t listed := by
    obtain ⟨j, found⟩ := List.mem_iff_getElem?.mp listed
    rcases onSession_cases found with ⟨s, there, rfl, rfl⟩ | ⟨-, found⟩
    · exact (waited s there).trans (hosts.unwaited s (List.mem_of_getElem? there))
    · exact hosts.unwaited t (List.mem_of_getElem? found)

/-- The busy flag does not matter. -/
theorem flag (hosts : Hosts m boots) (busy : Bool) : Hosts { m with busy := busy } boots :=
  ⟨hosts.current, hosts.running, hosts.booting, hosts.alone, hosts.unwaited⟩

theorem closeCurrent (hosts : Hosts m boots) : Hosts m.closeCurrent boots := by
  unfold Manager.closeCurrent
  split
  · exact hosts.onSession _ _ (fun s _ => (Session.SameGame.close s).running) fun _ _ => rfl
  · exact hosts

/-- A process that is closed is killed. -/
theorem close_running (hosts : Hosts m boots) (there : m.sessions[i]? = some s) :
    s.close.running = false := by
  simp [Session.close, Session.alive, hosts.unwaited s (List.mem_of_getElem? there)]

/-- Closing a manager that starts nothing leaves no process running. -/
theorem stopped (hosts : Hosts m boots) (free : m.mu = false) {j : Nat}
    (there : m.closeCurrent.sessions[j]? = some s) : s.running = false := by
  rw [closeCurrent_get] at there
  split at there
  · obtain ⟨t, found, rfl⟩ := Option.map_eq_some_iff.mp there
    exact hosts.close_running found
  · next other =>
      by_contra runs
      rcases hosts.running j s there (by simpa using runs) with ⟨c, buf, boot⟩ | ⟨current, -⟩
      · rw [hosts.no_boots free c] at boot; simp at boot
      · exact other current

theorem close (hosts : Hosts m boots) (closed : m.close = some m') : Hosts m' boots := by
  obtain ⟨free, rfl⟩ := close_eq_some.mp closed
  have kept := hosts.closeCurrent
  refine ⟨fun i current => by simp at current, ?_, kept.booting, kept.alone, kept.unwaited⟩
  intro j s there running
  rw [hosts.stopped free there] at running
  simp at running

theorem closed_stopped (hosts : Hosts m boots) (closed : m.close = some m') {j : Nat}
    (there : m'.sessions[j]? = some s) : s.running = false := by
  obtain ⟨free, rfl⟩ := close_eq_some.mp closed
  exact hosts.stopped free there

/-- The sessions after a launch are the closed old ones and the new one. -/
theorem launch_cases {k : Nat}
    (there : (m.closeCurrent.sessions ++ [Session.spawn I d.wipes])[k]? = some s) :
    m.closeCurrent.sessions[k]? = some s ∨
      k = m.sessions.length ∧ s = Session.spawn I d.wipes := by
  by_cases inside : k < m.closeCurrent.sessions.length
  · rw [List.getElem?_append_left inside] at there
    exact .inl there
  · have outside := Nat.le_of_not_lt inside
    rw [List.getElem?_append_right outside] at there
    have bound := (List.getElem?_eq_some_iff.mp there).1
    simp only [List.length_singleton, closeCurrent_length] at bound outside
    have here : k = m.sessions.length := by omega
    subst here
    exact .inr ⟨rfl, by simpa using there.symm⟩

theorem launch {spawn : Spawn} {j : Nat} (hosts : Hosts m boots)
    (launched : m.launch I spawn d = some (m', d', some j)) (c : Nat) :
    Hosts m' (update boots c (some (j, []))) := by
  obtain ⟨free, rfl, -, rfl⟩ := launch_started launched
  have kept := hosts.closeCurrent
  have only {c' : Nat} {b : Nat × Text}
      (starting : update boots c (some (m.sessions.length, [])) c' = some b) :
      c' = c ∧ b = (m.sessions.length, []) := by
    by_cases same : c' = c
    · subst same
      exact ⟨rfl, by simpa using starting.symm⟩
    · simp [same, hosts.no_boots free] at starting
  constructor
  · intro k current
    have inside := kept.current k current
    simp only [List.length_append, List.length_singleton]
    omega
  · intro k s there running
    rcases launch_cases there with there | ⟨rfl, rfl⟩
    · rw [hosts.stopped free there] at running
      simp at running
    · exact .inl ⟨c, [], by simp⟩
  · intro c' k buf starting
    obtain ⟨-, same⟩ := only starting
    simp only [Prod.mk.injEq] at same
    exact ⟨rfl, by simp [same.1]⟩
  · intro c₁ c₂ b₁ b₂ first second
    rw [(only first).1, (only second).1]
  · intro s listed
    rcases List.mem_append.mp listed with old | new
    · exact kept.unwaited s old
    · rw [List.mem_singleton.mp new]; rfl

theorem boot {buf : Text} {b : Boot} (hosts : Hosts m boots) (starting : boots c = some (i, buf))
    (round : Boots i buf m m' b) : Hosts m' (update boots c (b.boot? i)) := by
  have cleared (c' : Nat) : update boots c none c' = none := by
    by_cases same : c' = c
    · simp [same]
    · simp [same, hosts.others starting same]
  cases round with
  | @read s n there positive available =>
      have kept := hosts.onSession i (fun _ => { s with tty := s.tty.drop n })
        (fun t found runs => by rw [there, Option.some.injEq] at found; exact found ▸ runs)
        (fun t found => by rw [there, Option.some.injEq] at found; exact found ▸ rfl)
      have only {c' : Nat} {b : Nat × Text}
          (awaited : update boots c (some (i, buf ++ s.tty.take n)) c' = some b) :
          c' = c ∧ b.1 = i := by
        by_cases same : c' = c
        · subst same
          rw [update_self, Option.some.injEq] at awaited
          exact ⟨rfl, by rw [← awaited]⟩
        · simp [same, hosts.others starting same] at awaited
      refine ⟨kept.current, ?_, ?_, ?_, kept.unwaited⟩
      · intro j t found running
        have here : j = i := kept.only_booting starting found running
        exact .inl ⟨c, buf ++ s.tty.take n, by simp [here, Boot.boot?]⟩
      · intro c' j buf' awaited
        obtain ⟨rfl, rfl⟩ := only awaited
        exact kept.booting c' j buf starting
      · intro c₁ c₂ b₁ b₂ first second
        rw [(only first).1, (only second).1]
  | @started s there accepted settled =>
      have kept := hosts.onSession i (fun _ => { s with ready := true })
        (fun t found runs => by rw [there, Option.some.injEq] at found; exact found ▸ runs)
        (fun t found => by rw [there, Option.some.injEq] at found; exact found ▸ rfl)
      refine ⟨?_, ?_, ?_, ?_, kept.unwaited⟩
      · rintro j ⟨⟩
        exact (kept.booting c i buf starting).2
      · intro j t found running
        exact .inr ⟨congrArg some (kept.only_booting starting found running).symm, cleared⟩
      · intro c' j buf' awaited
        rw [show Boot.boot? i .started = none from rfl, cleared] at awaited
        simp at awaited
      · intro c₁ c₂ b₁ b₂ first
        rw [show Boot.boot? i .started = none from rfl, cleared] at first
        simp at first
  | @failed s there =>
      have kept := hosts.onSession i (fun _ => s.close)
        (fun t found runs => by
          rw [there, Option.some.injEq] at found
          exact found ▸ (Session.SameGame.close s).running runs)
        (fun t found => by rw [there, Option.some.injEq] at found; exact found ▸ rfl)
      refine ⟨kept.current, ?_, ?_, ?_, kept.unwaited⟩
      · intro j t found running
        have here : j = i := kept.only_booting starting found running
        subst here
        rw [show ({ m.onSession j fun _ => s.close with mu := false } : Manager G).sessions[j]? =
          some s.close from onSession_there there _, Option.some.injEq] at found
        rw [← found, hosts.close_running there] at running
        simp at running
      · intro c' j buf' awaited
        rw [show Boot.boot? i .failed = none from rfl, cleared] at awaited
        simp at awaited
      · intro c₁ c₂ b₁ b₂ first
        rw [show Boot.boot? i .failed = none from rfl, cleared] at first
        simp at first

theorem enter {text : Text} {stage : Stage} (hosts : Hosts m boots)
    (entered : m.enter text = some (m', stage)) : Hosts m' boots := by
  obtain ⟨-, ⟨_, rfl, -, -⟩ | ⟨_, -, -, rfl, -⟩⟩ := enter_cases entered
  · exact hosts
  · exact hosts.flag true

theorem env {event : Env} (hosts : Hosts m boots)
    (happened : m.env I path event d = some (m', d')) : Hosts m' boots := by
  cases happens happened with
  | consumed there read =>
      obtain ⟨-, _, _, _, _, _, _, _, _, -, rfl⟩ := Session.consume_cases read
      exact hosts.onSession _ _
        (fun t found runs => by rw [there, Option.some.injEq] at found; exact found ▸ runs)
        (fun t found => by rw [there, Option.some.injEq] at found; exact found ▸ rfl)
  | delivered => exact hosts.onSession _ _ (fun _ _ => id) fun _ _ => rfl
  | exited => exact hosts.onSession _ _ (fun _ _ runs => by simp at runs) fun _ _ => rfl

/-- A command keeps the processes in order. -/
theorem advance {call : Call} {stage : Stage} (hosts : Hosts m boots)
    (starting : boots c = call.phase.boot?) (step : Advances I path c call move m d m' d' stage) :
    Hosts m' (update boots c stage.boot?) := by
  -- A phase that starts nothing on either side leaves the starts as they are.
  have idle {m' : Manager G} {stage : Stage} (before : call.phase.boot? = none)
      (after : stage.boot? = none) (kept : Hosts m' boots) :
      Hosts m' (update boots c stage.boot?) := by
    have same : update boots c stage.boot? = boots :=
      update_eq_self_iff.mpr (by rw [after, starting, before])
    rwa [same]
  cases step with
  | notReady phase | unwritten phase | settled phase =>
      exact idle (by simp [phase, Phase.boot?]) rfl hosts
  | left phase free => exact idle (by simp [phase, Phase.boot?]) rfl (hosts.flag false)
  | wrote phase | named phase =>
      exact idle (by simp [phase, Phase.boot?]) rfl
        (hosts.onSession _ _ (fun _ _ => id) fun _ _ => rfl)
  | gaveUp phase there ends =>
      refine idle (by simp [phase, Phase.boot?]) ?_
        (hosts.onSession _ _ (fun _ _ => id) fun _ _ => rfl)
      rcases ends with rfl | ⟨err, rfl⟩ <;> rfl
  | read phase there =>
      exact idle (by simp [phase, Phase.boot?]) rfl (hosts.onSession _ _
        (fun t found runs => by rw [there, Option.some.injEq] at found; exact found ▸ runs)
        (fun t found => by rw [there, Option.some.injEq] at found; exact found ▸ rfl))
  | answered phase | unnamed phase =>
      exact idle (by simp [phase, Phase.boot?]) rfl
        ((hosts.onSession _ Session.drainPTY (fun _ _ => id) fun _ _ => rfl).onSession _ _
          (fun _ _ => id) fun _ _ => rfl)
  | relaunched phase launched => exact hosts.launch launched c
  | unlaunched phase launched =>
      obtain ⟨-, rfl, -⟩ := launch_refused launched
      exact idle (by simp [phase, Phase.boot?]) rfl hosts.closeCurrent
  | booting phase round => exact hosts.boot (by rw [starting, phase]; rfl) round
  | booted phase round ended =>
      have kept := hosts.boot (by rw [starting, phase]; rfl) round
      rcases ended with rfl | rfl <;> exact kept

end Hosts

/-! ## What a step does to a session -/

/-- What one step of a command can have made of a session. -/
inductive Touch (I : Interpreter G) (path : Text) (c : Nat) (call : Call) (m : Manager G)
    (d : Disk G) (i : Nat) (s' : Session G) : Prop
  | same {s : Session G} (there : m.sessions[i]? = some s) (same : s.SameGame s')
  | wrote {s : Session G} (there : m.sessions[i]? = some s) (here : i = call.session)
      (phase : call.phase = .entered) (same : (s.writeLines c call.text).SameGame s')
  | named {s : Session G} {raw : Text} (there : m.sessions[i]? = some s) (here : i = call.session)
      (phase : call.phase = .draining .filename raw) (same : (s.writeLines c path).SameGame s')
  | spawned (phase : call.phase = .timedOut) (new : i = m.sessions.length)
      (fresh : s' = Session.spawn I d.wipes)

/-- A change of one session that keeps its game keeps every game. -/
theorem onSession_same {f : Session G → Session G} {j : Nat}
    (there' : (m.onSession i f).sessions[j]? = some s')
    (keeps : ∀ s, m.sessions[i]? = some s → s.SameGame (f s)) :
    ∃ s, m.sessions[j]? = some s ∧ s.SameGame s' := by
  rcases Hosts.onSession_cases there' with ⟨s, there, rfl, rfl⟩ | ⟨-, there⟩
  · exact ⟨s, there, keeps s there⟩
  · exact ⟨s', there, .refl s'⟩

theorem closeCurrent_same {j : Nat} (there' : m.closeCurrent.sessions[j]? = some s') :
    ∃ s, m.sessions[j]? = some s ∧ s.SameGame s' := by
  unfold closeCurrent at there'
  split at there'
  · exact onSession_same there' fun s _ => .close s
  · exact ⟨s', there', .refl s'⟩

theorem boot_same {buf : Text} {b : Boot} {j : Nat} (round : Boots i buf m m' b)
    (there' : m'.sessions[j]? = some s') : ∃ s, m.sessions[j]? = some s ∧ s.SameGame s' := by
  cases round with
  | @read s n there =>
      refine onSession_same there' fun t found => ?_
      rw [there, Option.some.injEq] at found
      exact found ▸ ⟨rfl, rfl, rfl, rfl, rfl, id⟩
  | @started s there =>
      refine onSession_same (i := i) (f := fun _ => { s with ready := true }) there'
        fun t found => ?_
      rw [there, Option.some.injEq] at found
      exact found ▸ ⟨rfl, rfl, rfl, rfl, rfl, id⟩
  | @failed s there =>
      refine onSession_same (i := i) (f := fun _ => s.close) there' fun t found => ?_
      rw [there, Option.some.injEq] at found
      exact found ▸ .close s

theorem close_same {j : Nat} (closed : m.close = some m') (there' : m'.sessions[j]? = some s') :
    ∃ s, m.sessions[j]? = some s ∧ s.SameGame s' := by
  obtain ⟨-, rfl⟩ := close_eq_some.mp closed
  exact closeCurrent_same there'

theorem enter_same {text : Text} {stage : Stage} {j : Nat}
    (entered : m.enter text = some (m', stage)) (there' : m'.sessions[j]? = some s') :
    m.sessions[j]? = some s' := by
  obtain ⟨-, ⟨_, rfl, -, -⟩ | ⟨_, -, -, rfl, -⟩⟩ := enter_cases entered <;> exact there'

theorem advance_touch {call : Call} {stage : Stage} {j : Nat}
    (step : Advances I path c call move m d m' d' stage) (there' : m'.sessions[j]? = some s') :
    Touch I path c call m d j s' := by
  have same (kept : ∃ s, m.sessions[j]? = some s ∧ s.SameGame s') :
      Touch I path c call m d j s' :=
    let ⟨_, there, same⟩ := kept
    .same there same
  cases step with
  | notReady | unwritten | settled => exact .same there' (.refl s')
  | left => exact .same there' (.refl s')
  | wrote phase there =>
      rcases Hosts.onSession_cases there' with ⟨s, there, rfl, rfl⟩ | ⟨-, there⟩
      · exact .wrote there rfl phase ⟨rfl, rfl, rfl, rfl, rfl, id⟩
      · exact .same there (.refl s')
  | named phase there =>
      rcases Hosts.onSession_cases there' with ⟨s, there, rfl, rfl⟩ | ⟨-, there⟩
      · exact .named there rfl phase ⟨rfl, rfl, rfl, rfl, rfl, id⟩
      · exact .same there (.refl s')
  | read phase there =>
      refine same (onSession_same there' fun t found => ?_)
      rw [there, Option.some.injEq] at found
      exact found ▸ ⟨rfl, rfl, rfl, rfl, rfl, id⟩
  | gaveUp =>
      exact same (onSession_same there' fun t _ => ⟨rfl, rfl, rfl, rfl, rfl, id⟩)
  | answered | unnamed =>
      obtain ⟨t, there, first⟩ := onSession_same there' fun t _ => ⟨rfl, rfl, rfl, rfl, rfl, id⟩
      obtain ⟨s, there, second⟩ := onSession_same (f := Session.drainPTY) there
        fun t _ => ⟨rfl, rfl, rfl, rfl, rfl, id⟩
      exact .same there ⟨first.play.trans second.play, first.asking.trans second.asking,
        first.input.trans second.input, first.restored.trans second.restored,
        first.saved.trans second.saved, fun runs => second.running (first.running runs)⟩
  | relaunched phase launched =>
      obtain ⟨-, rfl, -, rfl⟩ := launch_started launched
      rcases Hosts.launch_cases there' with old | ⟨new, fresh⟩
      · exact same (closeCurrent_same old)
      · exact .spawned phase new fresh
  | unlaunched phase launched =>
      obtain ⟨-, rfl, -⟩ := launch_refused launched
      exact same (closeCurrent_same there')
  | booting phase round => exact same (boot_same round there')
  | booted phase round => exact same (boot_same round there')

/-- A command keeps the current session, or makes another one current. -/
theorem advance_session {call : Call} {stage : Stage}
    (step : Advances I path c call move m d m' d' stage) :
    m'.session = m.session ∨ m'.session ≠ none := by
  have boot {i : Nat} {buf : Text} {b : Boot} (round : Boots i buf m m' b) :
      m'.session = m.session ∨ m'.session ≠ none := by
    cases round with
    | started => exact .inr (by simp)
    | read | failed => exact .inl rfl
  cases step with
  | relaunched phase launched =>
      obtain ⟨-, -, -, rfl⟩ := launch_started launched
      exact .inl (by simp)
  | unlaunched phase launched =>
      obtain ⟨-, rfl, -⟩ := launch_refused launched
      exact .inl (by simp)
  | booting phase round => exact boot round
  | booted phase round => exact boot round
  | _ => exact .inl rfl

/-- The world outside neither makes a session nor changes which is current. -/
theorem env_frame {event : Env} (happened : m.env I path event d = some (m', d')) :
    m'.session = m.session ∧ m'.sessions.length = m.sessions.length := by
  cases happens happened <;> exact ⟨rfl, onSession_length ..⟩

/-- A command makes the save directory at most. -/
theorem advance_disk {call : Call} {stage : Stage}
    (step : Advances I path c call move m d m' d' stage) : d' = d ∨ d' = d.mkdirAll := by
  cases step with
  | relaunched _ launched => exact .inr (launch_started launched).2.2.1
  | unlaunched _ launched => exact (launch_refused launched).2.2
  | _ => exact .inl rfl

/-- The world outside lets an interpreter read its next line, or keeps every
game. -/
theorem env_cases {event : Env} {j : Nat} (happened : m.env I path event d = some (m', d'))
    (there' : m'.sessions[j]? = some s') :
    (∃ s, m.sessions[j]? = some s ∧ s.SameGame s') ∨
      ∃ ok s, event = .consume j ok ∧ m.sessions[j]? = some s ∧
        s.consume I path ok d = some (s', d') := by
  cases happens happened with
  | @consumed i ok s t _ there read =>
      rcases Hosts.onSession_cases there' with ⟨_, _, rfl, rfl⟩ | ⟨-, kept⟩
      · exact .inr ⟨ok, s, rfl, there, read⟩
      · exact .inl ⟨s', kept, .refl s'⟩
  | delivered => exact .inl (onSession_same there' fun t _ => ⟨rfl, rfl, rfl, rfl, rfl, id⟩)
  | exited =>
      refine .inl (onSession_same there' fun t _ => ⟨rfl, rfl, rfl, rfl, rfl, ?_⟩)
      intro runs
      simp at runs

/-- The world outside changes the disk when an interpreter reads a line. -/
theorem env_disk {event : Env} (happened : m.env I path event d = some (m', d')) :
    d' = d ∨ ∃ j ok s s', event = .consume j ok ∧ m.sessions[j]? = some s ∧
      s.consume I path ok d = some (s', d') := by
  cases happens happened with
  | consumed there read => exact .inr ⟨_, _, _, _, rfl, there, read⟩
  | delivered | exited => exact .inl rfl

end Manager

namespace Session

/-- The interpreter has a save request before it, or asks for its file name. -/
def Saving (s : Session G) : Prop :=
  s.asking = some .save ∨ ∃ line ∈ s.input, requestOf line.2 = some .save

instance (s : Session G) : Decidable s.Saving := inferInstanceAs (Decidable (_ ∨ _))

variable {I : Interpreter G} {path line : Text} {ok : Bool} {s s' : Session G} {d d' : Disk G}

/-- What a line makes of the game and of the save file. -/
inductive Obeys (I : Interpreter G) (path : Text) (ok : Bool) (line : Text) (s : Session G)
    (d : Disk G) : Session G → Disk G → Prop
  | plays (idle : s.asking = none) (plain : requestOf line = none) :
      Obeys I path ok line s d
        { s with asking := none, play := { s.play with state := I.play s.play.state line } } d
  | asks {request : Request} (idle : s.asking = none) (requested : requestOf line = some request) :
      Obeys I path ok line s d { s with asking := some request } d
  | saves {play : Play G} {d' : Disk G} (asked : s.asking = some .save) (named : line = path)
      (able : ok = true) (written : d.write s.play = some (play, d')) :
      Obeys I path ok line s d { s with asking := none, play := play, saved := true } d'
  | loads {play : Play G} (asked : s.asking = some .restore) (named : line = path)
      (able : ok = true) (there : d.save = some play) :
      Obeys I path ok line s d { s with asking := none, play := play, restored := true } d
  | fails {request : Request} (asked : s.asking = some request)
      (cause : line ≠ path ∨ ok = false ∨ (request = .save ∧ d.write s.play = none) ∨
        (request = .restore ∧ d.save = none)) :
      Obeys I path ok line s d { s with asking := none } d

theorem obeys (I : Interpreter G) (path : Text) (ok : Bool) (line : Text) (s : Session G)
    (d : Disk G) :
    Obeys I path ok line s d (s.obey I path ok line d).1 (s.obey I path ok line d).2.1 := by
  unfold obey
  cases asking : s.asking with
  | none =>
      cases requested : requestOf line with
      | none => exact .plays asking requested
      | some request => exact .asks asking requested
  | some request =>
      by_cases able : line = path ∧ ok = true
      · obtain ⟨rfl, rfl⟩ := able
        cases request with
        | save =>
            cases written : d.write s.play with
            | none => simpa [written] using .fails asking (.inr (.inr (.inl ⟨rfl, written⟩)))
            | some result => simpa [written] using .saves asking rfl rfl written
        | restore =>
            cases there : d.save with
            | none => simpa [there] using .fails asking (.inr (.inr (.inr ⟨rfl, there⟩)))
            | some play => simpa [there] using .loads asking rfl rfl there
      · have cause : line ≠ path ∨ ok = false := by
          by_cases same : line = path
          · exact .inr (by simpa [same] using able)
          · exact .inl same
        have fails : Obeys I path ok line s d { s with asking := none } d :=
          .fails asking (by tauto)
        cases request <;> simpa [able] using fails

/-- What reading a line does to a game: the process runs, and the line is obeyed. -/
theorem consume_obeys (consumed : s.consume I path ok d = some (s', d')) :
    s.running = true ∧ ∃ c line rest t, s.input = (c, line) :: rest ∧
      Obeys I path ok line s d t d' ∧ ({ t with input := rest } : Session G).SameGame s' := by
  unfold consume at consumed
  split at consumed
  · next c line rest running pending =>
      simp only [Option.some.injEq, Prod.mk.injEq] at consumed
      obtain ⟨rfl, rfl⟩ := consumed
      exact ⟨running, c, line, rest, _, pending, obeys .., rfl, rfl, rfl, rfl, rfl, id⟩
  · simp at consumed

/-- What reading a line makes of a game and of the save file: the game is played
on, or the save file is loaded, or the game is written to it. -/
theorem consume_play (consumed : s.consume I path ok d = some (s', d')) :
    (s'.play.born = s.play.born ∧ s'.play.saves = s.play.saves ∧ d' = d) ∨
      (d.save = some s'.play ∧ d' = d) ∨
      (s.Saving ∧ d.write s.play = some (s'.play, d')) := by
  obtain ⟨-, c, line, rest, t, -, obeys, same⟩ := consume_obeys consumed
  rw [same.play]
  cases obeys with
  | plays | asks | fails => exact .inl ⟨rfl, rfl, rfl⟩
  | saves asked named able written => exact .inr (.inr ⟨.inl asked, written⟩)
  | loads asked named able there => exact .inr (.inl ⟨there, rfl⟩)

end Session

end Zorkbot.Pty
