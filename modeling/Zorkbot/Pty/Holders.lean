/-
# Who will close a process

A process that was started is closed by whoever holds its manager: by the
goroutine of the `Start` that created the manager until it is inserted in the
table, and by the goroutine that takes it out of the table afterwards. Here that
is followed step by step: who holds a manager goes on holding it, hands it to the
table, or leaves no process of it open.

A process counts as open until it is closed, whether or not it still runs.
-/

import Zorkbot.Pty.Endings

namespace Zorkbot.Pty

open Go Transition Function

variable {G : Type}

/-- The process was started and has not been closed. It may have exited by itself. -/
def Session.isOpen (s : Session G) : Bool := s.ptmxOpen || s.running

theorem Session.close_isOpen {s : Session G} (unwaited : s.processState = false) :
    s.close.isOpen = false := by
  simp [isOpen, close, alive, unwaited]

theorem Session.close_open {s : Session G} (opened : s.close.isOpen = true) :
    s.isOpen = true := by
  simp only [isOpen, close, Bool.false_or, Bool.and_eq_true] at opened
  simp [isOpen, opened.1]

namespace Manager

variable {I : Interpreter G} {path : Text} {m m' m'' : Manager G} {d d' : Disk G} {c i : Nat}
  {s s' : Session G} {boots : Nat → Option (Nat × Text)} {move : Move}

/-! ## Steps that open nothing -/

/-- No process is open that was not open before. -/
def Fewer (m m' : Manager G) : Prop :=
  ∀ (j : Nat) (s' : Session G), m'.sessions[j]? = some s' → s'.isOpen = true →
    ∃ s, m.sessions[j]? = some s ∧ s.isOpen = true

namespace Fewer

theorem refl (m : Manager G) : m.Fewer m := fun _ s there opened => ⟨s, there, opened⟩

theorem trans (first : m.Fewer m') (second : m'.Fewer m'') : m.Fewer m'' := by
  intro j s'' there opened
  obtain ⟨s', there', opened'⟩ := second j s'' there opened
  exact first j s' there' opened'

theorem onSession (m : Manager G) (i : Nat) (f : Session G → Session G)
    (keeps : ∀ s, m.sessions[i]? = some s → (f s).isOpen = true → s.isOpen = true) :
    m.Fewer (m.onSession i f) := by
  intro j s' there opened
  rcases Hosts.onSession_cases there with ⟨s, found, rfl, rfl⟩ | ⟨-, found⟩
  · exact ⟨s, found, keeps s found opened⟩
  · exact ⟨s', found, opened⟩

/-- A session is written back with its process left as it is. -/
theorem write (there : m.sessions[i]? = some s) (new : Session G) (same : new.isOpen = s.isOpen) :
    m.Fewer (m.onSession i fun _ => new) := by
  apply onSession
  intro t found opened
  rw [there, Option.some.injEq] at found
  rw [← found, ← same, opened]

theorem closeCurrent (m : Manager G) : m.Fewer m.closeCurrent := by
  unfold Manager.closeCurrent
  split
  · exact onSession m _ _ fun _ _ => Session.close_open
  · exact .refl m

theorem close (closed : m.close = some m') : m.Fewer m' := by
  obtain ⟨-, rfl⟩ := close_eq_some.mp closed
  exact Fewer.closeCurrent m

theorem boot {buf : Text} {b : Boot} (round : Boots i buf m m' b) : m.Fewer m' := by
  cases round with
  | read there => exact write there _ rfl
  | started there => exact write there _ rfl
  | failed there =>
      apply onSession
      intro t found opened
      rw [there, Option.some.injEq] at found
      exact found ▸ Session.close_open opened

theorem enter {text : Text} {stage : Stage} (entered : m.enter text = some (m', stage)) :
    m.Fewer m' := by
  obtain ⟨-, ⟨_, rfl, -, -⟩ | ⟨_, -, -, rfl, -⟩⟩ := enter_cases entered
  · exact .refl _
  · exact .refl m

theorem env {event : Env} (happened : m.env I path event d = some (m', d')) : m.Fewer m' := by
  cases happens happened with
  | consumed there read =>
      obtain ⟨-, _, _, _, _, _, _, _, _, -, rfl⟩ := Session.consume_cases read
      exact write there _ rfl
  | delivered => exact onSession m _ _ fun _ _ => id
  | exited =>
      apply onSession
      intro s _ opened
      simp only [Session.isOpen, Bool.or_false] at opened
      simp [Session.isOpen, opened]

/-- A command opens no process, unless it restarts its session. -/
theorem advance {call : Call} {stage : Stage}
    (step : Advances I path c call move m d m' d' stage)
    (kept : m'.sessions.length ≤ m.sessions.length) : m.Fewer m' := by
  cases step with
  | notReady | unwritten | settled | left => exact .refl m
  | wrote | named | gaveUp => exact onSession m _ _ fun _ _ => id
  | read phase there => exact write there _ rfl
  | answered | unnamed =>
      have drained : m.Fewer (m.onSession call.session Session.drainPTY) :=
        onSession m _ _ fun _ _ => id
      exact drained.trans (onSession _ _ _ fun _ _ => id)
  | relaunched phase launched =>
      obtain ⟨-, -, -, rfl⟩ := launch_started launched
      exact absurd kept (by simp)
  | unlaunched phase launched =>
      obtain ⟨-, rfl, -⟩ := launch_refused launched
      exact closeCurrent m
  | booting phase round => exact boot round
  | booted phase round => exact boot round

end Fewer

/-- Only a start that succeeds changes the current session. -/
theorem boots_session {buf : Text} {b : Boot} (round : Boots i buf m m' b) (ends : b ≠ .started) :
    m'.session = m.session := by
  cases round with
  | read | failed => rfl
  | started => exact absurd rfl ends

/-! ## Which process is open -/

/-- Only the process of the session being started, or else that of the current
session, is open. -/
def Opened (m : Manager G) (boots : Nat → Option (Nat × Text)) : Prop :=
  ∀ (j : Nat) (s : Session G), m.sessions[j]? = some s → s.isOpen = true →
    (∃ c buf, boots c = some (j, buf)) ∨ (m.session = some j ∧ ∀ c, boots c = none)

namespace Opened

theorem only_booting (opened : Opened m boots) (hosts : Hosts m boots) {buf : Text}
    (starting : boots c = some (i, buf)) {j : Nat} (there : m.sessions[j]? = some s)
    (isOpen : s.isOpen = true) : j = i := by
  rcases opened j s there isOpen with ⟨c', buf', boot⟩ | ⟨-, none_⟩
  · have same := hosts.alone c' c _ _ boot starting
    subst same
    rw [starting, Option.some.injEq, Prod.mk.injEq] at boot
    exact boot.1.symm
  · rw [none_ c] at starting
    simp at starting

/-- At most one process is open. -/
theorem sole (opened : Opened m boots) (hosts : Hosts m boots) {j j' : Nat}
    (there : m.sessions[j]? = some s) (isOpen : s.isOpen = true)
    (there' : m.sessions[j']? = some s') (isOpen' : s'.isOpen = true) : j = j' := by
  rcases opened j s there isOpen with ⟨c, buf, boot⟩ | ⟨current, none_⟩
  · exact (opened.only_booting hosts boot there' isOpen').symm
  · rcases opened j' s' there' isOpen' with ⟨c', buf', boot'⟩ | ⟨current', -⟩
    · rw [none_ c'] at boot'
      simp at boot'
    · rw [current, Option.some.injEq] at current'
      exact current'

/-- While nothing is opened and the current session stays, nothing changes. -/
theorem frame (opened : Opened m boots) (fewer : m.Fewer m') (session : m'.session = m.session) :
    Opened m' boots := by
  intro j s' there isOpen
  obtain ⟨s, found, wasOpen⟩ := fewer j s' there isOpen
  rw [session]
  exact opened j s found wasOpen

/-- Closing a manager that starts nothing leaves no process open. -/
theorem stopped (opened : Opened m boots) (hosts : Hosts m boots) (free : m.mu = false) {j : Nat}
    (there : m.closeCurrent.sessions[j]? = some s) : s.isOpen = false := by
  rw [closeCurrent_get] at there
  split at there
  · obtain ⟨t, found, rfl⟩ := Option.map_eq_some_iff.mp there
    exact Session.close_isOpen (hosts.unwaited t (List.mem_of_getElem? found))
  · next other =>
      by_contra isOpen
      rcases opened j s there (by simpa using isOpen) with ⟨c, buf, boot⟩ | ⟨current, -⟩
      · rw [hosts.no_boots free c] at boot
        simp at boot
      · exact other current

theorem closed (opened : Opened m boots) (hosts : Hosts m boots) (closed : m.close = some m')
    {j : Nat} (there : m'.sessions[j]? = some s) : s.isOpen = false := by
  obtain ⟨free, rfl⟩ := close_eq_some.mp closed
  exact opened.stopped hosts free there

/-- A start that fails leaves no process open. -/
theorem failed {buf : Text} (opened : Opened m boots) (hosts : Hosts m boots)
    (starting : boots c = some (i, buf)) (round : Boots i buf m m' .failed) {j : Nat}
    (there : m'.sessions[j]? = some s) : s.isOpen = false := by
  by_contra isOpen
  have isOpen : s.isOpen = true := by simpa using isOpen
  obtain ⟨t, found, wasOpen⟩ := Fewer.boot round j s there isOpen
  have here : j = i := opened.only_booting hosts starting found wasOpen
  subst here
  cases round with
  | @failed u old =>
      have new := onSession_there old fun _ => u.close
      rw [show (m.onSession j fun _ => u.close).sessions[j]? = some s from there,
        Option.some.injEq] at new
      rw [new, Session.close_isOpen (hosts.unwaited u (List.mem_of_getElem? old))] at isOpen
      simp at isOpen

theorem close (opened : Opened m boots) (hosts : Hosts m boots) (closed : m.close = some m') :
    Opened m' boots := by
  intro j s there isOpen
  rw [opened.closed hosts closed there] at isOpen
  simp at isOpen

theorem launch {spawn : Spawn} {j : Nat} (opened : Opened m boots) (hosts : Hosts m boots)
    (launched : m.launch I spawn d = some (m', d', some j)) (c : Nat) :
    Opened m' (update boots c (some (j, []))) := by
  obtain ⟨free, rfl, -, rfl⟩ := launch_started launched
  intro k s there isOpen
  rcases Hosts.launch_cases there with old | ⟨rfl, -⟩
  · rw [opened.stopped hosts free old] at isOpen
    simp at isOpen
  · exact .inl ⟨c, [], by simp⟩

theorem boot {buf : Text} {b : Boot} (opened : Opened m boots) (hosts : Hosts m boots)
    (starting : boots c = some (i, buf)) (round : Boots i buf m m' b) :
    Opened m' (update boots c (b.boot? i)) := by
  intro j s there isOpen
  obtain ⟨t, found, wasOpen⟩ := Fewer.boot round j s there isOpen
  have here : j = i := opened.only_booting hosts starting found wasOpen
  subst here
  cases b with
  | waiting buf' => exact .inl ⟨c, buf', by simp [Boot.boot?]⟩
  | started =>
      refine .inr ⟨boots_started round, fun c' => ?_⟩
      by_cases same : c' = c
      · simp [same, Boot.boot?]
      · simp [same, hosts.others starting same]
  | failed =>
      rw [opened.failed hosts starting round there] at isOpen
      simp at isOpen

/-- A command keeps the open processes in order. -/
theorem advance {call : Call} {stage : Stage} (opened : Opened m boots) (hosts : Hosts m boots)
    (starting : boots c = call.phase.boot?) (step : Advances I path c call move m d m' d' stage) :
    Opened m' (update boots c stage.boot?) := by
  -- A phase that starts nothing on either side leaves the starts as they are.
  have idle (before : call.phase.boot? = none) (after : stage.boot? = none)
      (kept : m'.sessions.length ≤ m.sessions.length) (session : m'.session = m.session) :
      Opened m' (update boots c stage.boot?) := by
    have same : update boots c stage.boot? = boots :=
      update_eq_self_iff.mpr (by rw [after, starting, before])
    rw [same]
    exact opened.frame (Fewer.advance step kept) session
  cases step with
  | notReady phase | unwritten phase | settled phase | left phase =>
      exact idle (by simp [phase, Phase.boot?]) rfl le_rfl rfl
  | wrote phase | named phase | read phase | answered phase | unnamed phase =>
      exact idle (by simp [phase, Phase.boot?]) rfl (by simp [release]) rfl
  | gaveUp phase there ends =>
      refine idle (by simp [phase, Phase.boot?]) ?_ (by simp [release]) rfl
      rcases ends with rfl | ⟨err, rfl⟩ <;> rfl
  | relaunched phase launched => exact opened.launch hosts launched c
  | unlaunched phase launched =>
      obtain ⟨-, rfl, -⟩ := launch_refused launched
      exact idle (by simp [phase, Phase.boot?]) rfl (by simp) (by simp)
  | booting phase round => exact opened.boot hosts (by rw [starting, phase]; rfl) round
  | booted phase round ended =>
      have kept := opened.boot hosts (by rw [starting, phase]; rfl) round
      rcases ended with rfl | rfl <;> exact kept

end Opened

end Manager

namespace Pool

variable {I : Interpreter G} {cfg : PoolConfig} {s t : Pool G} {a : Act} {p : PlayerId}

/-- The open processes of every manager are where they should be. -/
def Opened (s : Pool G) : Prop := Everywhere (fun _ mgr _ boots => mgr.Opened boots) s

theorem opened_step (owned : Owned s) (hosted : Hosted s) (opened : Opened s)
    (step : Steps I cfg s a t) : Opened t := by
  refine everywhere_step owned opened ⟨?_, ?_, ?_, ?_, ?_, ?_, ?_⟩ step
  · intro c p via hasSave spawn mgr d i at_ launched
    have nothing : (Manager.new : Manager G).Opened fun _ => none := by
      intro j s there
      simp [Manager.new] at there
    exact nothing.launch Manager.Hosts.new launched c
  · intro c p q via hasSave m i buf poll mgr mgr' b _ at_ there opened round
    exact opened.boot (hosted m q mgr there) (bootsOn_booting at_) (Manager.boots round)
  · intro c here p q m text for_ mgr mgr' stage _ at_ about there opened entered
    refine opened.frame (.enter entered) ?_
    obtain ⟨-, ⟨_, rfl, -, -⟩ | ⟨_, -, -, rfl, -⟩⟩ := Manager.enter_cases entered <;> rfl
  · intro c p q m for_ call move mgr mgr' d stage _ at_ there opened advanced
    exact opened.advance (hosted m q mgr there) (bootsOn_calling at_) (Manager.advances advanced)
  · intro c p q m call move mgr mgr' d output _ _ _ _ opened
    exact opened.frame (.onSession _ _ _ fun _ _ => id) rfl
  · intro c here p q m mgr mgr' at_ _ there opened closed
    exact opened.close (hosted m q mgr there) closed
  · intro m p event mgr mgr' d _ there opened happened
    exact opened.frame (.env happened) (Manager.env_frame happened).1

theorem opened {guard : Pool G → Act → Prop} (reached : (pool I cfg).Reachable guard s) :
    Opened s :=
  reached.invariant everywhere_init fun _ _ _ reached opened _ taken =>
    opened_step (owned reached) (hosted reached) opened (pool_steps taken)

/-! ## What a step does to one manager -/

/-- What a step can have made of a manager, as far as its processes go. -/
inductive ManagerStep (s : Pool G) (a : Act) (t : Pool G) (p : PlayerId) (m : Nat)
    (mgr' : Manager G) : Prop
  | fewer {mgr : Manager G} (was : s.managers[m]? = some (p, mgr)) (fewer : mgr.Fewer mgr')
      (session : mgr'.session = mgr.session ∨ mgr'.session = none)
  | created {c : Nat} {next : Thread} (after : t.threads.get c = some next)
      (starts : next.starts = some (p, m)) (session : mgr'.session = none)
  | started {c : Nat} {mgr : Manager G} {next : Thread} (was : s.managers[m]? = some (p, mgr))
      (fewer : mgr.Fewer mgr') (after : t.threads.get c = some next)
      (starts : next.starts = some (p, m)) (hosts : next.hosts = some (p, m))
  | restarted {c : Nat} {for_ : For} {call : Call} {mgr : Manager G}
      (was : s.managers[m]? = some (p, mgr)) (fewer : mgr.Fewer mgr')
      (at_ : s.threads.get c = some (.calling p m for_ call))
      (after : t.threads.get c = some (.calling p m for_ (call.to (.leaving (.err .timeout)))))
  | relaunched {c : Nat} {for_ : For} {call : Call} {mgr : Manager G}
      (was : s.managers[m]? = some (p, mgr)) (action : a = .move c (.relaunch .ok))
      (at_ : s.threads.get c = some (.calling p m for_ call)) (phase : call.phase = .timedOut)
      (session : mgr'.session = mgr.session)

theorem completed_fewer (i : Nat) (for_ : For) (r : Result) (mgr : Manager G) :
    mgr.Fewer (completed i for_ r mgr) := by
  unfold completed
  split
  · exact .onSession _ _ _ fun _ _ => id
  · exact .refl mgr

theorem manager_step {m : Nat} {new : Manager G} (owned : Owned s) (step : Steps I cfg s a t)
    (now : t.managers[m]? = some (p, new)) : ManagerStep s a t p m new := by
  have untouched (managers : t.managers = s.managers) : ManagerStep s a t p m new :=
    .fewer (managers ▸ now) (.refl new) (.inl rfl)
  have changed {n : Nat} {q : PlayerId} {mgr mgr' : Manager G} (there : s.managers[n]? = some (q, mgr))
      (managers : t.managers = (s.setManager n mgr').managers)
      (here : s.managers[n]? = some (q, mgr) → ManagerStep s a t q n mgr') :
      ManagerStep s a t p m new := by
    rcases session_setManager there managers now with ⟨rfl, rfl, rfl⟩ | ⟨-, old⟩
    · exact here there
    · exact .fewer old (.refl new) (.inl rfl)
  cases step with
  | calls | fires | passes | lists | refuses | wipes | keeps | empties => exact untouched rfl
  | inserts | touches | deletes => exact untouched (by simp)
  | enters at_ about there entered =>
      refine changed there rfl fun was => .fewer was (.enter entered) (.inl ?_)
      obtain ⟨-, ⟨_, rfl, -⟩ | ⟨_, -, -, rfl, -⟩⟩ := Manager.enter_cases entered <;> rfl
  | discards at_ there closed | closes at_ there closed =>
      refine changed there rfl fun was => .fewer was (.close closed) (.inr ?_)
      obtain ⟨-, rfl⟩ := Manager.close_eq_some.mp closed
      rfl
  | @creates c q via hasSave spawn mgr d i at_ launched =>
      have whole : (s.managers ++ [(q, mgr)])[m]? = some (p, new) := now
      by_cases inside : m < s.managers.length
      · rw [List.getElem?_append_left inside] at whole
        exact .fewer whole (.refl new) (.inl rfl)
      · have outside := Nat.le_of_not_lt inside
        have bound := (List.getElem?_eq_some_iff.mp whole).1
        simp only [List.length_append, List.length_singleton] at bound
        have here : m = s.managers.length := by omega
        subst here
        rw [List.getElem?_append_right outside] at whole
        simp only [Nat.sub_self, List.getElem?_cons_zero, Option.some.injEq,
          Prod.mk.injEq] at whole
        obtain ⟨rfl, rfl⟩ := whole
        obtain ⟨-, -, -, rfl⟩ := Manager.launch_started launched
        exact .created (Table.get_set_self s.threads c _) rfl rfl
  | @boots c q r via hasSave n i buf poll mgr mgr' b at_ there round =>
      obtain ⟨old, mine⟩ := owned.owner c _ q n at_ rfl
      rw [there, Option.some.injEq, Prod.mk.injEq] at mine
      obtain ⟨rfl, rfl⟩ := mine
      refine changed there rfl fun was => ?_
      have round := Manager.boots round
      cases b with
      | waiting buf' =>
          exact .fewer was (.boot round) (.inl (Manager.boots_session round (by simp)))
      | failed => exact .fewer was (.boot round) (.inl (Manager.boots_session round (by simp)))
      | started =>
          refine .started was (.boot round) (Table.get_set_self s.threads c _) ?_ ?_
          · cases hasSave <;> rfl
          · cases hasSave <;> rfl
  | @advances c q r n for_ call call' move mgr mgr' d at_ there advanced =>
      obtain rfl := owned.caller at_ there
      refine changed there rfl fun was => ?_
      have steps := Manager.advances advanced
      cases steps with
      | relaunched phase launched =>
          obtain ⟨-, -, -, new⟩ := Manager.launch_started launched
          have longer : mgr.sessions.length < mgr'.sessions.length := by rw [new]; simp
          have action := Manager.timedOut_relaunches phase advanced longer
          exact .relaunched was (by rw [action]) at_ phase (by rw [new]; simp)
      | booted phase round =>
          exact .restarted was (.boot round) at_ (Table.get_set_self s.threads c _)
      | unlaunched phase launched =>
          obtain ⟨-, rfl, -⟩ := Manager.launch_refused launched
          exact .fewer was (.closeCurrent _) (.inl (by simp))
      | booting phase round =>
          exact .fewer was (.boot round) (.inl (Manager.boots_session round (by simp)))
      | notReady | unwritten | settled => exact .fewer was (.refl _) (.inl rfl)
      | wrote | named | gaveUp | read | answered | unnamed =>
          exact .fewer was (.advance (Manager.advances advanced) (by simp [Manager.release])) (.inl rfl)
  | @leaves c q r n for_ call move mgr mgr' d res at_ there advanced =>
      obtain ⟨-, rfl⟩ := Manager.left_cases (Manager.advances advanced)
      refine changed there rfl fun was => ?_
      have cleared : mgr.Fewer { mgr with busy := false } := .refl mgr
      have marked := completed_fewer call.session for_ res { mgr with busy := false }
      exact .fewer was (cleared.trans marked) (.inl (completed_session ..))
  | @envs n q event mgr mgr' d there happened =>
      exact changed there rfl fun was =>
        .fewer was (.env happened) (.inl (Manager.env_frame happened).1)

/-! ## Holders -/

/-- What a goroutine that holds a manager goes on with. -/
structure Carries (p : PlayerId) (m : Nat) (here next : Thread) : Prop where
  owns : next.owns = some (p, m)
  starts : here.starts = some (p, m) → next.starts = some (p, m)
  hosts : here.hosts = some (p, m) → next.hosts = some (p, m)

theorem carries_enters {m n : Nat} {here : Thread} {q : PlayerId} {text : Text} {for_ : For}
    {mgr mgr' : Manager G} {stage : Stage} (about : here.enters = some (q, n, text, for_))
    (entered : mgr.enter text = some (mgr', stage)) (owns : here.owns = some (p, m)) :
    Carries p m here (stage.thread q n for_) := by
  obtain ⟨-, ⟨err, -, rfl, -⟩ | ⟨i, -, -, -, rfl⟩⟩ := Manager.enter_cases entered
  all_goals
    cases here <;> simp only [Thread.enters, Option.some.injEq, Prod.mk.injEq,
      reduceCtorEq] at about <;> obtain ⟨rfl, rfl, rfl, rfl⟩ := about
  · exact ⟨owns, id, id⟩
  · simp [Thread.owns] at owns
  · exact ⟨owns, fun starts => by simp [Thread.starts] at starts, id⟩
  · exact ⟨owns, id, id⟩
  · simp [Thread.owns] at owns
  · exact ⟨owns, fun starts => by simp [Thread.starts] at starts, id⟩

/-- How a goroutine lets go of the manager it holds. -/
inductive Releases (s t : Pool G) (p : PlayerId) (m : Nat) (here : Thread) : Prop
  | inserted {e : Entry} (listed : t.entries.get p = some e) (same : e.manager = m)
      (begun : t.Begun p m)
  | closed {mgr mgr' : Manager G} (there : s.managers[m]? = some (p, mgr))
      (closed : mgr.close = some mgr') (now : t.managers[m]? = some (p, mgr'))
  | failed {c i : Nat} {via : Via} {hasSave : Bool} {buf : Text} {mgr mgr' : Manager G}
      (at_ : s.threads.get c = some here) (booting : here = .booting p via hasSave m i buf)
      (there : s.managers[m]? = some (p, mgr)) (round : Manager.Boots i buf mgr mgr' .failed)
      (now : t.managers[m]? = some (p, mgr'))

theorem setManager_now {m : Nat} {q : PlayerId} {mgr mgr' : Manager G}
    (there : s.managers[m]? = some (q, mgr))
    (managers : t.managers = (s.setManager m mgr').managers) : t.managers[m]? = some (q, mgr') := by
  rw [managers, setManager_get, if_pos rfl, there]
  rfl

/-- Who holds a manager goes on holding it, hands it to the table, closes it, or has
seen its start fail. -/
theorem owner_step {c m : Nat} {here : Thread} (owned : Owned s) (step : Steps I cfg s a t)
    (at_ : s.threads.get c = some here) (owns : here.owns = some (p, m)) :
    (∃ next, t.threads.get c = some next ∧ Carries p m here next) ∨ Releases s t p m here := by
  obtain ⟨mgr₀, mine⟩ := owned.owner c here p m at_ owns
  have stays (threads : t.threads.get c = some here) :
      (∃ next, t.threads.get c = some next ∧ Carries p m here next) ∨ Releases s t p m here :=
    .inl ⟨here, threads, owns, id, id⟩
  -- Either this goroutine moves, or it stays where it is.
  have goes {c' : Nat} {before : Option Thread} {next : Thread}
      (at' : s.threads.get c' = before) (threads : t.threads = s.threads.set c' next)
      (moves : before = some here → t.threads.get c = some next →
        (∃ next, t.threads.get c = some next ∧ Carries p m here next) ∨ Releases s t p m here) :
      (∃ next, t.threads.get c = some next ∧ Carries p m here next) ∨ Releases s t p m here := by
    by_cases mover : c = c'
    · subst mover
      exact moves (at'.symm.trans at_) (by rw [threads, Table.get_set_self])
    · exact stays (by rw [threads, Table.get_set_of_ne mover, at_])
  -- A goroutine that holds nothing is not this one.
  have idle {c' : Nat} {before : Option Thread} {next : Thread}
      (at' : s.threads.get c' = before) (threads : t.threads = s.threads.set c' next)
      (nothing : ∀ thread, before = some thread → thread.owns = none) :
      (∃ next, t.threads.get c = some next ∧ Carries p m here next) ∨ Releases s t p m here := by
    apply goes at' threads
    intro same
    rw [nothing here same] at owns
    simp at owns
  have carries {next : Thread} (now : t.threads.get c = some next) (kept : Carries p m here next) :
      (∃ next, t.threads.get c = some next ∧ Carries p m here next) ∨ Releases s t p m here :=
    .inl ⟨next, now, kept⟩
  cases step with
  | calls new | fires armed new => exact idle new rfl (by simp)
  | passes at' pass =>
      apply goes at' rfl
      intro same now
      rw [Option.some.injEq] at same
      subst same
      cases pass with
      | raced | crowded => exact carries now ⟨owns, id, id⟩
      | _ => simp [Thread.owns] at owns
  | @inserts c' q via hasSave n at' vacant room =>
      apply goes at' (by simp; rfl)
      intro same now
      rw [Option.some.injEq] at same
      subst same
      simp only [Thread.owns, Option.some.injEq, Prod.mk.injEq] at owns
      obtain ⟨rfl, rfl⟩ := owns
      exact .inr (.inserted (by simp [insert_entries]; rfl) rfl
        ⟨⟨q, c', n, s.left q, s.stateOf n⟩, by simp, rfl, rfl⟩)
  | touches at' | deletes at' => exact idle at' (by simp; rfl) (by simp [Thread.owns])
  | lists at' | creates at' | refuses at' | wipes at' | keeps at' | empties at' =>
      exact idle at' rfl (by simp [Thread.owns])
  | enters at' about there entered =>
      apply goes at' rfl
      intro same now
      rw [Option.some.injEq] at same
      subst same
      exact carries now (carries_enters about entered owns)
  | discards at' there closed | closes at' there closed =>
      apply goes at' rfl
      intro same now
      rw [Option.some.injEq] at same
      subst same
      simp only [Thread.owns, Option.some.injEq, Prod.mk.injEq] at owns
      obtain ⟨rfl, rfl⟩ := owns
      rw [there, Option.some.injEq, Prod.mk.injEq] at mine
      obtain ⟨rfl, rfl⟩ := mine
      exact .inr (.closed there closed (setManager_now there rfl))
  | @boots c' q r via hasSave n i buf poll mgr mgr' b at' there round =>
      apply goes at' rfl
      intro same now
      rw [Option.some.injEq] at same
      subst same
      cases b with
      | waiting buf' => exact carries now ⟨owns, id, fun hosts => by simp [Thread.hosts] at hosts⟩
      | started =>
          have new : ((Manager.Boot.started).thread q via hasSave n i).owns = some (p, m) ∧
              ((Manager.Boot.started).thread q via hasSave n i).starts = some (p, m) := by
            cases hasSave <;> exact ⟨owns, owns⟩
          exact carries now ⟨new.1, fun _ => new.2, fun hosts => by simp [Thread.hosts] at hosts⟩
      | failed =>
          simp only [Thread.owns, Option.some.injEq, Prod.mk.injEq] at owns
          obtain ⟨rfl, rfl⟩ := owns
          rw [there, Option.some.injEq, Prod.mk.injEq] at mine
          obtain ⟨rfl, rfl⟩ := mine
          exact .inr (.failed at_ rfl there (Manager.boots round) (setManager_now there rfl))
  | @advances c' q r n for_ call call' move mgr mgr' d at' there advanced =>
      apply goes at' rfl
      intro same now
      rw [Option.some.injEq] at same
      subst same
      cases for_ with
      | restore | save => exact carries now ⟨owns, id, id⟩
      | reply => simp [Thread.owns] at owns
  | @leaves c' q r n for_ call move mgr mgr' d res at' there advanced =>
      apply goes at' rfl
      intro same now
      rw [Option.some.injEq] at same
      subst same
      cases for_ with
      | restore => exact carries now ⟨owns, id, id⟩
      | save => exact carries now ⟨owns, fun starts => by simp [Thread.starts] at starts, id⟩
      | reply => simp [Thread.owns] at owns
  | envs => exact stays at_

/-- Somebody will close the manager, or it is in the table. -/
def Holds (s : Pool G) (p : PlayerId) (m : Nat) : Prop :=
  (∃ e, s.entries.get p = some e ∧ e.manager = m) ∨
    ∃ c here, s.threads.get c = some here ∧ here.owns = some (p, m)

theorem At.manager {m i : Nat} {σ : Session G} {mgr : Manager G} (now : s.At p m i σ)
    (there : s.managers[m]? = some (p, mgr)) : mgr.sessions[i]? = some σ := by
  obtain ⟨mgr', there', listed⟩ := now
  rw [there, Option.some.injEq, Prod.mk.injEq] at there'
  exact there'.2 ▸ listed

/-- A manager that is let go of without being handed to the table has no open
process. -/
theorem Releases.shut {m : Nat} {here : Thread} (hosted : Hosted s) (opened : Opened s)
    (releases : Releases s t p m here) :
    (∃ e, t.entries.get p = some e ∧ e.manager = m) ∨
      ∀ i σ, t.At p m i σ → σ.isOpen = false := by
  cases releases with
  | inserted listed same => exact .inl ⟨_, listed, same⟩
  | closed there closed now =>
      exact .inr fun i σ at_ =>
        (opened m p _ there).closed (hosted m p _ there) closed (at_.manager now)
  | failed at_ booting there round now =>
      subst booting
      exact .inr fun i σ at' => (opened m p _ there).failed (hosted m p _ there)
        (bootsOn_booting at_) round (at'.manager now)

/-- A manager stays held as long as a process of it is open. -/
theorem holds_step {m : Nat} (owned : Owned s) (hosted : Hosted s) (opened : Opened s)
    (step : Steps I cfg s a t) (holds : s.Holds p m) :
    t.Holds p m ∨ ∀ i σ, t.At p m i σ → σ.isOpen = false := by
  rcases holds with ⟨e, listed, rfl⟩ | ⟨c, here, at_, owns⟩
  · rcases entry_after step listed with still | ⟨c, by_, -, after⟩
    · exact .inl (.inl still)
    · exact .inl (.inr ⟨c, _, after, by split <;> rfl⟩)
  · rcases owner_step owned step at_ owns with ⟨next, at', carries⟩ | releases
    · exact .inl (.inr ⟨c, next, at', carries.owns⟩)
    · rcases releases.shut hosted opened with listed | shut
      · exact .inl (.inl listed)
      · exact .inr shut

/-- A process is open because it was, or because it has just been started. -/
theorem open_before {m i : Nat} {σ' : Session G} (owned : Owned s) (step : Steps I cfg s a t)
    (now : t.At p m i σ') (isOpen : σ'.isOpen = true) :
    (∃ σ, s.At p m i σ ∧ σ.isOpen = true) ∨
      (∃ c next, t.threads.get c = some next ∧ next.starts = some (p, m)) ∨
      ∃ c for_ call, a = .move c (.relaunch .ok) ∧
        s.threads.get c = some (.calling p m for_ call) ∧ call.phase = .timedOut := by
  obtain ⟨mgr', there, listed⟩ := now
  have before {mgr : Manager G} (was : s.managers[m]? = some (p, mgr)) (fewer : mgr.Fewer mgr') :
      ∃ σ, s.At p m i σ ∧ σ.isOpen = true := by
    obtain ⟨σ, old, wasOpen⟩ := fewer i σ' listed isOpen
    exact ⟨σ, ⟨mgr, was, old⟩, wasOpen⟩
  cases manager_step owned step there with
  | fewer was fewer | started was fewer | restarted was fewer => exact .inl (before was fewer)
  | created after starts => exact .inr (.inl ⟨_, _, after, starts⟩)
  | relaunched was action at_ phase => exact .inr (.inr ⟨_, _, _, action, at_, phase⟩)

end Pool

end Zorkbot.Pty
