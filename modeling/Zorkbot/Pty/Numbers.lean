/-
# The table of the pool

`Start` looks at the table a second time before it inserts its session, so two of
them never insert one each for the same player, and the one that comes too late
closes what it started. Entries are numbered in the order in which they are
inserted, and a number is never used again.

An entry is left to a timer that carries its number: at first to the one that
`Start` armed, and from the first command on to the one that the last command
armed. A timer that fires when its entry has just been touched, or ended, finds
another number or no entry, and does nothing.
-/

import Zorkbot.Pty.Holders

namespace Zorkbot.Pty

open Go Transition

variable {G : Type}

/-- The entry refers to this timer. -/
def Entry.Mentions (e : Entry) (timer : Nat) : Prop :=
  e.idleTimer = some timer ∨ e.inactiveTimer = some timer

namespace Pool

variable {I : Interpreter G} {cfg : PoolConfig} {s t : Pool G} {a : Act} {p : PlayerId}

/-! ## What a step does to the table -/

/-- What a step does to the table and its timers. -/
inductive TableStep (cfg : PoolConfig) (s t : Pool G) : Prop
  | kept (entries : t.entries = s.entries) (nextNum : t.nextNum = s.nextNum)
      (timers : t.timers = s.timers) (nextTimer : t.nextTimer = s.nextTimer)
  | fired {timer c : Nat} {p : PlayerId} {num : Nat} (armed : s.timers.get timer = some (p, num))
      (after : t = { s with timers := s.timers.erase timer }.goes c (.autoEnding p num))
  | inserted {c m : Nat} {p : PlayerId} {next : Thread} (vacant : s.entries.get p = none)
      (room : s.entries.size < cfg.maxActiveSessions)
      (after : t = (s.insert cfg p c m).goes c next)
  | touched {c : Nat} {p : PlayerId} {e : Entry} {next : Thread}
      (found : s.entries.get p = some e) (after : t = (s.touch cfg p e).goes c next)
  | deleted {c : Nat} {p : PlayerId} {e : Entry} {save : Bool} {next : Thread}
      (found : s.entries.get p = some e) (after : t = (s.delete p e save).goes c next)

theorem table_step (step : Steps I cfg s a t) : TableStep cfg s t := by
  cases step with
  | fires armed new => exact .fired armed rfl
  | inserts at_ vacant room => exact .inserted vacant room rfl
  | touches at_ found => exact .touched found rfl
  | deletes at_ found => exact .deleted found rfl
  | _ => exact .kept rfl rfl rfl rfl

/-! ## Numbers -/

/-- The table is within its limit, and its entries have numbers of their own. -/
structure Tabled (cfg : PoolConfig) (s : Pool G) : Prop where
  few : (s.entries.size : Int) ≤ cfg.maxActiveSessions
  below : ∀ p e, s.entries.get p = some e → e.num < s.nextNum
  distinct : ∀ p q e e', s.entries.get p = some e → s.entries.get q = some e' →
    e.num = e'.num → p = q

/-- An entry is numbered when it is inserted, and keeps its number. -/
theorem entry_num {e' : Entry} (step : Steps I cfg s a t) (listed : t.entries.get p = some e') :
    (∃ e, s.entries.get p = some e ∧ e.manager = e'.manager ∧ e.num = e'.num) ∨
      s.entries.get p = none ∧ e'.num = s.nextNum ∧ t.nextNum = s.nextNum + 1 ∧
        ∀ q, q ≠ p → t.entries.get q = s.entries.get q := by
  cases table_step step with
  | kept entries => exact .inl ⟨e', entries ▸ listed, rfl, rfl⟩
  | fired armed after =>
      subst after
      exact .inl ⟨e', listed, rfl, rfl⟩
  | @inserted c m q next vacant room after =>
      subst after
      change (s.insert cfg q c m).entries.get p = some e' at listed
      rw [insert_entries] at listed
      split at listed
      · next here =>
          subst here
          rw [Option.some.injEq] at listed
          refine .inr ⟨vacant, by rw [← listed], by simp, fun r other => ?_⟩
          change (s.insert cfg p c m).entries.get r = s.entries.get r
          rw [insert_entries, if_neg other]
      · exact .inl ⟨e', listed, rfl, rfl⟩
  | @touched c q e next found after =>
      subst after
      obtain ⟨e₀, manager, num, touched⟩ := touch_entries cfg q e s
      change (s.touch cfg q e).entries.get p = some e' at listed
      rw [touched] at listed
      split at listed
      · next here =>
          subst here
          rw [Option.some.injEq] at listed
          subst listed
          exact .inl ⟨e, found, manager.symm, num.symm⟩
      · exact .inl ⟨e', listed, rfl, rfl⟩
  | @deleted c q e save next found after =>
      subst after
      have entries : (s.entries.erase q).get p = some e' := by simpa using listed
      rw [Table.get_erase] at entries
      split at entries
      · simp at entries
      · exact .inl ⟨e', entries, rfl, rfl⟩

/-- Numbers are given out in order. -/
theorem nextNum_le (step : Steps I cfg s a t) : s.nextNum ≤ t.nextNum := by
  cases table_step step with
  | kept entries nextNum => exact nextNum.ge
  | fired armed after => exact after ▸ le_rfl
  | inserted vacant room after => rw [after]; simp
  | touched found after => rw [after]; simp
  | deleted found after => rw [after]; simp

theorem tabled_step (tabled : Tabled cfg s) (step : Steps I cfg s a t) : Tabled cfg t where
  few := by
    have few := tabled.few
    cases table_step step with
    | kept entries => exact entries ▸ few
    | fired armed after => exact after ▸ few
    | @inserted c m q next vacant room after =>
        have size : ((s.insert cfg q c m).goes c next).entries.size = s.entries.size + 1 :=
          Table.size_set_vacant vacant _
        rw [after, size]
        omega
    | @touched c q e next found after =>
        have size : ((s.touch cfg q e).goes c next).entries.size = s.entries.size :=
          Table.size_set_bound found _
        rw [after, size]
        exact few
    | @deleted c q e save next found after =>
        have size : ((s.delete q e save).goes c next).entries.size + 1 = s.entries.size :=
          Table.size_erase_bound found
        rw [after]
        omega
  below p e listed := by
    have grown := nextNum_le step
    rcases entry_num step listed with ⟨e₀, old, -, same⟩ | ⟨-, num, nextNum, -⟩
    · have := tabled.below p e₀ old
      omega
    · omega
  distinct p q e e' listed listed' same := by
    rcases entry_num step listed with ⟨e₀, old, -, num⟩ | ⟨-, num, -, others⟩
    · rcases entry_num step listed' with ⟨e₁, old', -, num'⟩ | ⟨-, num', -, -⟩
      · exact tabled.distinct p q e₀ e₁ old old' (by omega)
      · have := tabled.below p e₀ old
        omega
    · by_contra other
      rw [others q (Ne.symm other)] at listed'
      have := tabled.below q e' listed'
      omega

theorem tabled {guard : Pool G → Act → Prop} (reached : (pool I cfg).Reachable guard s) :
    Tabled cfg.withDefaults s := by
  refine reached.invariant ?_ fun s a _ _ tabled _ taken => tabled_step tabled (pool_steps taken)
  refine ⟨Int.le_of_lt cfg.maxActiveSessions_pos, fun p e listed => ?_, fun p q e e' listed => ?_⟩
  · simp [pool, init] at listed
  · simp [pool, init] at listed

/-- Entries that are inserted later have greater numbers than any entry had before. -/
def Numbers (s t : Pool G) : Prop :=
  ∀ p e, t.entries.get p = some e →
    (∃ e₀, s.entries.get p = some e₀ ∧ e₀.manager = e.manager ∧ e₀.num = e.num) ∨
      s.nextNum ≤ e.num

theorem numbers {guard : Pool G → Act → Prop} (path : (pool I cfg).Path guard s t) :
    s.nextNum ≤ t.nextNum ∧ s.Numbers t := by
  refine path.stable (motive := fun u => s.nextNum ≤ u.nextNum ∧ s.Numbers u) ?_
    ⟨le_rfl, fun p e listed => .inl ⟨e, listed, rfl, rfl⟩⟩
  rintro u a v ⟨grown, numbers⟩ - taken
  refine ⟨grown.trans (nextNum_le (pool_steps taken)), fun p e listed => ?_⟩
  rcases entry_num (pool_steps taken) listed with ⟨e₀, old, manager, num⟩ | ⟨-, num, -, -⟩
  · rw [← manager, ← num]
    exact numbers p e₀ old
  · exact .inr (num ▸ grown)

/-! ## Concurrent starts -/

/-- The step takes the player's session out of the table. -/
def removes (p : PlayerId) (s : Pool G) : Act → Bool
  | .go c =>
      match s.threads.get c with
      | some (.deleting q _) => q == p && (s.entries.get p).isSome
      | _ => false
  | _ => false

/-- How often a session of the player was put in the table. -/
def insertions (s : Pool G) (p : PlayerId) : Nat := s.begins.countP fun b => b.player == p

/-- While no session of the player is taken out of the table, one is put there only
when there is none. -/
theorem insertions_step (kept : s.removes p a = false) (step : Steps I cfg s a t) :
    t.insertions p + (s.entries.get p).isSome.toNat =
      s.insertions p + (t.entries.get p).isSome.toNat := by
  have same (insertions : t.insertions p = s.insertions p)
      (present : (t.entries.get p).isSome = (s.entries.get p).isSome) :
      t.insertions p + (s.entries.get p).isSome.toNat =
        s.insertions p + (t.entries.get p).isSome.toNat := by
    rw [insertions, present]
  cases step with
  | @inserts c q via hasSave m at_ vacant room =>
      by_cases here : q = p
      · subst here
        simp [insertions, insert_entries, vacant]
      · exact same (by simp [insertions, here]) (by simp [insert_entries, Ne.symm here])
  | @touches c q text e at_ found =>
      obtain ⟨e', -, -, touched⟩ := touch_entries cfg q e s
      refine same (by simp [insertions]) ?_
      change ((s.touch cfg q e).entries.get p).isSome = _
      rw [touched]
      split
      · next here => rw [here, found]; rfl
      · rfl
  | @deletes c q by_ e at_ found =>
      have other : q ≠ p := by
        rintro rfl
        simp [removes, at_, found] at kept
      exact same (by simp [insertions]) (by simp [Table.get_erase, Ne.symm other])
  | _ => exact same rfl rfl

/-- However many `Start`s run for a player, they put one session in the table
between two removals. -/
theorem insertions_le {guard : Pool G → Act → Prop}
    (path : (pool I cfg).Path (fun u a => guard u a ∧ u.removes p a = false) s t) :
    t.insertions p ≤ s.insertions p + 1 ∧
      ((s.entries.get p).isSome = true → t.insertions p ≤ s.insertions p) := by
  have all : t.insertions p + (s.entries.get p).isSome.toNat =
      s.insertions p + (t.entries.get p).isSome.toNat := by
    refine path.stable (motive := fun u => u.insertions p + (s.entries.get p).isSome.toNat =
      s.insertions p + (u.entries.get p).isSome.toNat) ?_ rfl
    rintro u a v counted ⟨-, kept⟩ taken
    have next := insertions_step kept (pool_steps taken)
    omega
  have one := Bool.toNat_le (t.entries.get p).isSome
  refine ⟨by omega, fun present => ?_⟩
  rw [present, Bool.toNat_true] at all
  omega

/-! ## Managers that are in no table -/

/-- Who uses a session, or ends one, got it from the table. -/
def Enrolled (s : Pool G) : Prop :=
  ∀ (c : Nat) (here : Thread) p m, s.threads.get c = some here →
    here.uses = some (p, m) ∨ (here.owns = some (p, m) ∧ here.starts = none) → s.Begun p m

theorem enrolled_step (booked : Booked s) (enrolled : Enrolled s) (step : Steps I cfg s a t) :
    Enrolled t := by
  intro c here p m at_ holds
  refine Begun.grow ?_ step
  rcases thread_before step at_ with same | onward
  · exact enrolled c here p m same holds
  · -- It held the session before, or it has just looked it up.
    rcases holds with uses | ⟨owns, ends⟩
    · rcases onward.uses_before uses with ⟨before, at', used⟩ | ⟨e, listed, rfl⟩
      · exact enrolled c before p m at' (.inl used)
      · exact booked.begun p e listed
    · rcases onward.ends_before owns ends with ⟨before, at', held⟩ | ⟨e, listed, rfl⟩
      · exact enrolled c before p m at' (.inr held)
      · exact booked.begun p e listed

theorem enrolled {guard : Pool G → Act → Prop} (reached : (pool I cfg).Reachable guard s) :
    Enrolled s := by
  refine reached.invariant ?_ fun s a _ reached enrolled _ taken =>
    enrolled_step (booked reached) enrolled (pool_steps taken)
  intro c here p m at_
  simp [pool, init] at at_

/-- A `Start` in progress holds the manager. -/
def Starting (s : Pool G) (p : PlayerId) (m : Nat) : Prop :=
  ∃ c here, s.threads.get c = some here ∧ here.starts = some (p, m)

/-- A manager with a current session was put in the table, or its `Start` has not
returned. -/
def Accounted (s : Pool G) : Prop :=
  ∀ m p mgr, s.managers[m]? = some (p, mgr) → mgr.session = none ∨ s.Begun p m ∨
    ∃ c here, s.threads.get c = some here ∧ here.starts = some (p, m) ∧
      here.hosts = some (p, m)

theorem accounted_step (owned : Owned s) (enrolled : Enrolled s) (accounted : Accounted s)
    (step : Steps I cfg s a t) : Accounted t := by
  intro m p mgr' now
  have begun (begun : s.Begun p m) : mgr'.session = none ∨ t.Begun p m ∨
      ∃ c here, t.threads.get c = some here ∧ here.starts = some (p, m) ∧
        here.hosts = some (p, m) := .inr (.inl (begun.grow step))
  -- The current session is the one it was.
  have kept {mgr : Manager G} (was : s.managers[m]? = some (p, mgr))
      (session : mgr'.session = mgr.session) : mgr'.session = none ∨ t.Begun p m ∨
      ∃ c here, t.threads.get c = some here ∧ here.starts = some (p, m) ∧
        here.hosts = some (p, m) := by
    rcases accounted m p mgr was with none_ | old | ⟨c, here, at_, starts, hosts⟩
    · exact .inl (session.trans none_)
    · exact begun old
    · rcases owner_step owned step at_ (Thread.owns_of_starts starts) with
        ⟨next, at', carries⟩ | releases
      · exact .inr (.inr ⟨c, next, at', carries.starts starts, carries.hosts hosts⟩)
      · cases releases with
        | inserted listed same new => exact .inr (.inl new)
        | closed there closed there' =>
            rw [now, Option.some.injEq, Prod.mk.injEq] at there'
            obtain ⟨-, rfl⟩ := Manager.close_eq_some.mp closed
            exact .inl (by rw [there'.2])
        | failed at_ booting =>
            rw [booting] at hosts
            simp [Thread.hosts] at hosts
  cases manager_step owned step now with
  | fewer was fewer session =>
      rcases session with same | none_
      · exact kept was same
      · exact .inl none_
  | created after starts session => exact .inl session
  | started was fewer after starts hosts => exact .inr (.inr ⟨_, _, after, starts, hosts⟩)
  | @restarted c for_ call mgr was fewer at_ after =>
      cases for_ with
      | restore via => exact .inr (.inr ⟨c, _, after, rfl, rfl⟩)
      | reply => exact begun (enrolled c _ p m at_ (.inl rfl))
      | save by_ => exact begun (enrolled c _ p m at_ (.inr ⟨rfl, rfl⟩))
  | relaunched was action at_ phase session => exact kept was session

theorem accounted {guard : Pool G → Act → Prop} (reached : (pool I cfg).Reachable guard s) :
    Accounted s := by
  refine reached.invariant ?_ fun s a _ reached accounted _ taken =>
    accounted_step (owned reached) (enrolled reached) accounted (pool_steps taken)
  intro m p mgr there
  simp [pool, init] at there

/-- A manager that was not put in the table, and that no `Start` holds any more, is
closed. -/
def LosersClosed (s : Pool G) : Prop :=
  ∀ m p mgr, s.managers[m]? = some (p, mgr) → s.Begun p m ∨ s.Starting p m ∨
    (mgr.session = none ∧ ∀ σ ∈ mgr.sessions, σ.isOpen = false)

theorem losersClosed {guard : Pool G → Act → Prop} (reached : (pool I cfg).Reachable guard s) :
    LosersClosed s := by
  intro m p mgr there
  rcases accounted reached m p mgr there with none_ | begun | ⟨c, here, at_, starts, -⟩
  · by_contra lost
    rw [not_or, not_or] at lost
    obtain ⟨unbegun, unheld, left⟩ := lost
    refine left ⟨none_, fun σ listed => ?_⟩
    by_contra isOpen
    obtain ⟨i, found⟩ := List.mem_iff_getElem?.mp listed
    -- Only a session that is being started is open without being current.
    rcases opened reached m p mgr there i σ found (by simpa using isOpen) with
      ⟨c, buf, boot⟩ | ⟨current, -⟩
    · obtain ⟨here, at_, boots⟩ := Option.bind_eq_some_iff.mp boot
      cases here with
      | booting q via hasSave n j buf' =>
          simp only [Thread.boots, Option.ite_none_right_eq_some] at boots
          obtain ⟨rfl, -⟩ := boots
          obtain ⟨mgr', there'⟩ := (owned reached).owner c _ q n at_ rfl
          rw [there, Option.some.injEq, Prod.mk.injEq] at there'
          exact unheld ⟨c, _, at_, by rw [there'.1]; rfl⟩
      | calling q n for_ call =>
          simp only [Thread.boots, Option.ite_none_right_eq_some] at boots
          obtain ⟨rfl, -⟩ := boots
          obtain rfl := (owned reached).caller at_ there
          cases for_ with
          | restore via => exact unheld ⟨c, _, at_, rfl⟩
          | reply => exact unbegun (enrolled reached c _ p n at_ (.inl rfl))
          | save by_ => exact unbegun (enrolled reached c _ p n at_ (.inr ⟨rfl, rfl⟩))
      | _ => simp [Thread.boots] at boots
    · rw [none_] at current
      simp at current
  · exact .inl begun
  · exact .inr (.inl ⟨c, here, at_, starts⟩)

end Pool

end Zorkbot.Pty
