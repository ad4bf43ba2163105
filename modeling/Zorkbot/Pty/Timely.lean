/-
# A player whose commands are answered in time

What holds of one player's sessions in every run in which the player's
interpreters answer each line before its reader gives up, do not exit by
themselves, and carry out the saves, or the saves and restores, that they are
asked for, in which the player is not reset, and in which no reader of the
player's stops while a part of what was printed is still to come. All of the
player's managers are then in order, and a session that is played, or about to be
saved or closed, has an interpreter that is up.

That nobody is inside a manager while it is closed is an assumption of the step
lemma here. It does not hold by itself, and each use has its own reason for it.
-/

import Zorkbot.Pty.Games
import Zorkbot.Pty.Orderly
import Zorkbot.Pty.Script

namespace Zorkbot.Pty

open Go Transition Function

variable {G : Type}

namespace Thread

/-- The player that this goroutine resets. -/
def resets : Thread → Option PlayerId
  | .deleting p .reset | .saving p .reset _ | .closing p .reset _ | .wiping p => some p
  | .calling p _ (.save .reset) _ => some p
  | _ => none

/-- The manager that this goroutine holds, once its interpreter has been started. -/
def hosts : Thread → Option (PlayerId × Nat)
  | .restoring p _ m | .inserting p _ _ m | .discarding p _ m _ | .saving p _ m
  | .closing p _ m => some (p, m)
  | .calling p m (.restore _) _ | .calling p m (.save _) _ => some (p, m)
  | _ => none

/-- The player whose save file this goroutine's `Start` has found. -/
def found : Thread → Option PlayerId
  | .launching p _ true | .booting p _ true _ _ _ | .restoring p _ _ => some p
  | .calling p _ (.restore _) _ => some p
  | _ => none

theorem owns_of_hosts {t : Thread} {p : PlayerId} {m : Nat} (hosts : t.hosts = some (p, m)) :
    t.owns = some (p, m) := by
  unfold Thread.hosts at hosts
  unfold owns
  split at hosts <;> simp_all

theorem afterEnd_resets {p q : PlayerId} {err : Option PoolErr} {by_ : By}
    (resets : (afterEnd p err by_).resets = some q) : q = p ∧ by_ = .reset := by
  unfold afterEnd at resets
  split at resets <;> simp_all [Thread.resets]

theorem afterEnd_hosts (p : PlayerId) (err : Option PoolErr) (by_ : By) :
    (afterEnd p err by_).hosts = none := by
  unfold afterEnd
  split <;> rfl

theorem afterEnd_found (p : PlayerId) (err : Option PoolErr) (by_ : By) :
    (afterEnd p err by_).found = none := by
  unfold afterEnd
  split <;> rfl

theorem afterCall_found (p : PlayerId) (m : Nat) (r : Result) (for_ : For) :
    (afterCall p m r for_).found = none := by
  unfold afterCall
  split
  · rfl
  · split <;> rfl
  · rfl

theorem afterCall_hosts (p : PlayerId) (m : Nat) (r : Result) (for_ : For) :
    (afterCall p m r for_).hosts = if for_ = .reply then none else some (p, m) := by
  unfold afterCall
  split
  · rfl
  · split <;> rfl
  · rfl

end Thread

theorem Op.thread_resets {op : Op} {p : PlayerId} (resets : op.thread.resets = some p) :
    ∃ id, op = .reset id ∧ validatePlayerID id = some p := by
  cases op with
  | reset id =>
      unfold Op.thread at resets
      simp only at resets
      split at resets
      · next valid => exact ⟨id, rfl, valid.trans resets⟩
      · simp [Thread.resets] at resets
  | command id text =>
      unfold Op.thread at resets
      simp only at resets
      split at resets
      · split at resets <;> simp [Thread.resets] at resets
      · simp [Thread.resets] at resets
  | close => simp [Op.thread, Thread.resets] at resets
  | start id | endSession id =>
      unfold Op.thread at resets
      simp only at resets
      split at resets <;> simp [Thread.resets] at resets

theorem Op.thread_found (op : Op) : op.thread.found = none := by
  cases op with
  | command id text =>
      unfold Op.thread
      simp only
      split
      · split <;> rfl
      · rfl
  | close => rfl
  | start id | endSession id | reset id =>
      unfold Op.thread
      simp only
      split <;> rfl

namespace Pool

variable {I : Interpreter G} {cfg : PoolConfig} {s t : Pool G} {a : Act} {p : PlayerId}
  {carried : Request → Prop}

/-- The player is not reset, the player's commands are answered before their readers
give up, and none of the player's interpreters exits or fails in what is to be
carried out when it is told the name of the file. -/
def Timely (carried : Request → Prop) (p : PlayerId) (s : Pool G) : Act → Prop
  | .call _ (.reset id) => validatePlayerID id ≠ some p
  | .move c (.poll .cancelled) | .move c (.poll .deadline) =>
      ∀ m for_ call, s.threads.get c ≠ some (.calling p m for_ call)
  | .env m (.exit _) => ∀ row ∈ s.managers[m]?, row.1 ≠ p
  | .env m (.consume i false) =>
      ∀ σ, s.At p m i σ → ∀ request, carried request → σ.asking ≠ some request
  | _ => True

/-- The player of whose terminal the goroutine stops reading in this step while
something that was printed is still to come: where a drain ends, or where a start
has seen the prompt. -/
def lags (s : Pool G) : Act → Option PlayerId
  | .move c .drained =>
      match s.threads.get c with
      | some (.calling p m _ call) =>
          if (s.managers[m]?).any fun row => (row.2.sessions[call.session]?).any fun σ =>
            σ.wire ≠ [] then some p else none
      | _ => none
  | .move c (.poll poll) =>
      match s.threads.get c with
      | some (.booting p _ _ m i buf) =>
          if poll.stops && hasPrompt buf &&
            (s.managers[m]?).any fun row => (row.2.sessions[i]?).any fun σ =>
              σ.tty ≠ [] || σ.wire ≠ [] then some p else none
      | _ => none
  | _ => none

/-- At the end of a drain nothing is on its way. -/
theorem drained_of_lags {c m : Nat} {for_ : For} {call : Call} {mgr : Manager G}
    {σ : Session G} (whole : s.lags (.move c .drained) ≠ some p)
    (at_ : s.threads.get c = some (.calling p m for_ call))
    (there : s.managers[m]? = some (p, mgr)) (listed : mgr.sessions[call.session]? = some σ) :
    σ.wire = [] := by
  by_contra more
  exact whole (by simp [lags, at_, there, listed, more])

/-- A start that has seen the prompt has read the whole banner. -/
theorem started_of_lags {c m i : Nat} {via : Via} {hasSave : Bool} {buf : Text}
    {poll : Session.Poll} {mgr : Manager G} {σ : Session G}
    (whole : s.lags (.move c (.poll poll)) ≠ some p)
    (at_ : s.threads.get c = some (.booting p via hasSave m i buf))
    (there : s.managers[m]? = some (p, mgr)) (stops : poll.stops = true)
    (accepted : hasPrompt buf = true) (listed : mgr.sessions[i]? = some σ) :
    σ.tty = [] ∧ σ.wire = [] := by
  by_contra more
  exact whole (by simpa [lags, at_, there, listed, stops, accepted, imp_iff_not_or] using more)

/-- The session is in the table, or a goroutine holds it that has started it or is
about to save or close it. -/
def Live (s : Pool G) (p : PlayerId) (m : Nat) : Prop :=
  (∃ e, s.entries.get p = some e ∧ e.manager = m) ∨
    ∃ c here, s.threads.get c = some here ∧ here.hosts = some (p, m)

/-- A player's sessions while everything is answered in time. -/
structure InTime (carried : Request → Prop) (cfg : PoolConfig) (p : PlayerId) (s : Pool G) :
    Prop where
  orderly : Everywhere (fun q mgr calls boots =>
    q = p → mgr.Orderly carried (cfg.savePath p) calls boots) s
  live : ∀ (m : Nat) (mgr : Manager G), s.managers[m]? = some (p, mgr) → s.Live p m →
    mgr.session ≠ none
  unreset : ∀ (c : Nat) (here : Thread), s.threads.get c = some here → here.resets ≠ some p
  present : ∀ (m : Nat) (mgr : Manager G), s.managers[m]? = some (p, mgr) →
    (s.disks p).dir ≠ .absent
  found : ∀ (c : Nat) (here : Thread), s.threads.get c = some here → here.found = some p →
    (s.disks p).save ≠ none

theorem inTime_init : InTime carried cfg p (init : Pool G) where
  orderly := everywhere_init
  live m mgr there := by simp [init] at there
  unreset c here at_ := by simp [init] at at_
  present m mgr there := by simp [init] at there
  found c here at_ := by simp [init] at at_

/-! ## Goroutines -/

/-- A goroutine resets the player because it did so before, or because a request
asks for it. -/
theorem Onward.resets {c : Nat} {here : Option Thread} {next : Thread}
    (onward : Onward cfg s a t c here next) (resets : next.resets = some p) :
    (∃ before, here = some before ∧ before.resets = some p) ∨
      ∃ id, a = .call c (.reset id) ∧ validatePlayerID id = some p := by
  cases onward with
  | calls action =>
      obtain ⟨id, rfl, valid⟩ := Op.thread_resets resets
      exact .inr ⟨id, action, valid⟩
  | passes pass =>
      cases pass with
      | gone =>
          obtain ⟨rfl, rfl⟩ := Thread.afterEnd_resets resets
          exact .inl ⟨_, rfl, rfl⟩
      | _ => simp [Thread.resets] at resets
  | closes =>
      obtain ⟨rfl, rfl⟩ := Thread.afterEnd_resets resets
      exact .inl ⟨_, rfl, rfl⟩
  | lists =>
      unfold firstDeletion at resets
      split at resets <;> simp [Thread.resets] at resets
  | @deletes q by_ | @drops q by_ | @saves q by_ | @unsaved q by_ =>
      cases by_ <;> simp [Thread.resets] at resets
      exact .inl ⟨_, rfl, by simp [Thread.resets, resets]⟩
  | @advances q n for_ =>
      cases for_ with
      | save by_ =>
          cases by_ <;> simp [Thread.resets] at resets
          exact .inl ⟨_, rfl, by simp [Thread.resets, resets]⟩
      | restore | reply => simp [Thread.resets] at resets
  | @leaves q n for_ call r =>
      cases for_ with
      | save by_ =>
          cases by_ <;> simp [Thread.afterCall, Thread.resets] at resets
          exact .inl ⟨_, rfl, by simp [Thread.resets, resets]⟩
      | restore => simp [Thread.afterCall, Thread.resets] at resets
      | reply => cases r <;> simp [Thread.afterCall, Thread.resets] at resets
  | _ => simp [Thread.resets] at resets

theorem unreset_step (unreset : ∀ (c : Nat) (here : Thread), s.threads.get c = some here →
      here.resets ≠ some p) (timely : Timely carried p s a) (step : Steps I cfg s a t)
    (c : Nat) (now : Thread) (at_ : t.threads.get c = some now) : now.resets ≠ some p := by
  intro resets
  rcases thread_before step at_ with same | onward
  · exact unreset c now same resets
  · rcases onward.resets resets with ⟨before, at', resets'⟩ | ⟨id, rfl, valid⟩
    · exact unreset c before at' resets'
    · exact timely valid

/-- A goroutine has found the player's save file because it had before, or because it
has just looked. -/
theorem Onward.found {c : Nat} {here : Option Thread} {next : Thread}
    (onward : Onward cfg s a t c here next) (found : next.found = some p) :
    (∃ before, here = some before ∧ before.found = some p) ∨ (s.disks p).save ≠ none := by
  cases onward with
  | calls => rw [Op.thread_found] at found; simp at found
  | passes pass =>
      cases pass with
      | @probed q via =>
          refine .inr fun none_ => ?_
          cases saved : (s.disks q).hasSaveFile with
          | true =>
              simp only [saved, Thread.found, Option.some.injEq] at found
              subst found
              simp [Disk.hasSaveFile, none_] at saved
          | false => simp [saved, Thread.found] at found
      | gone => rw [Thread.afterEnd_found] at found; simp at found
      | _ => simp [Thread.found] at found
  | closes => rw [Thread.afterEnd_found] at found; simp at found
  | leaves => rw [Thread.afterCall_found] at found; simp at found
  | lists =>
      unfold firstDeletion at found
      split at found <;> simp [Thread.found] at found
  | restores | started => exact .inl ⟨_, rfl, found⟩
  | @creates q via hasSave | @waits q via hasSave =>
      cases hasSave with
      | true => exact .inl ⟨_, rfl, found⟩
      | false => simp [Thread.found] at found
  | @advances q n for_ =>
      cases for_ with
      | restore via => exact .inl ⟨_, rfl, found⟩
      | reply | save => simp [Thread.found] at found
  | _ => simp [Thread.found] at found

/-- A goroutine that holds a started session held it before, or has just started
it or taken it out of the table. -/
theorem Onward.hosts {c m : Nat} {here : Option Thread} {next : Thread}
    (onward : Onward cfg s a t c here next) (hosts : next.hosts = some (p, m)) :
    (∃ before, here = some before ∧ before.hosts = some (p, m)) ∨
      (∃ e, s.entries.get p = some e ∧ e.manager = m) ∨
      ∃ q mgr i, t.managers[m]? = some (q, mgr) ∧ mgr.session = some i := by
  cases onward with
  | @calls op =>
      have nothing := op.thread_owns.1
      rw [Thread.owns_of_hosts hosts] at nothing
      simp at nothing
  | passes pass =>
      cases pass with
      | gone => rw [Thread.afterEnd_hosts] at hosts; simp at hosts
      | raced | crowded => exact .inl ⟨_, rfl, hosts⟩
      | _ => simp [Thread.hosts] at hosts
  | closes => rw [Thread.afterEnd_hosts] at hosts; simp at hosts
  | lists =>
      unfold firstDeletion at hosts
      split at hosts <;> simp [Thread.hosts] at hosts
  | deletes found | drops found =>
      simp only [Thread.hosts, Option.some.injEq, Prod.mk.injEq] at hosts
      obtain ⟨rfl, rfl⟩ := hosts
      exact .inr (.inl ⟨_, found, rfl⟩)
  | started now | startedNew now =>
      simp only [Thread.hosts, Option.some.injEq, Prod.mk.injEq] at hosts
      obtain ⟨rfl, rfl⟩ := hosts
      obtain ⟨q, mgr, there, current⟩ := now
      exact .inr (.inr ⟨q, mgr, _, there, current⟩)
  | @advances q n for_ =>
      cases for_ with
      | reply => simp [Thread.hosts] at hosts
      | restore | save => exact .inl ⟨_, rfl, hosts⟩
  | @leaves q n for_ call r =>
      rw [Thread.afterCall_hosts] at hosts
      cases for_ with
      | reply => simp at hosts
      | restore | save => exact .inl ⟨_, rfl, by simpa [Thread.hosts] using hosts⟩
  | restores | unrestored | saves | unsaved => exact .inl ⟨_, rfl, hosts⟩
  | _ => simp [Thread.hosts] at hosts

/-! ## Sessions that have been started -/

/-- A goroutine that closes a manager, and holds it, leaves it to nobody. -/
theorem not_live_of_closed {c m : Nat} {here : Thread} (next : Thread) (owned : Owned s)
    (at_ : s.threads.get c = some here) (owns : here.owns = some (p, m))
    (threads : t.threads = s.threads.set c next) (entries : t.entries = s.entries)
    (idle : next.hosts = none) : ¬ t.Live p m := by
  rintro (⟨e, listed, same⟩ | ⟨c', now, at', hosts⟩)
  · exact owned.apart c here p m e at_ owns (entries ▸ listed) same
  · rw [threads, Table.get_set] at at'
    split at at'
    · rw [Option.some.injEq] at at'
      rw [← at', idle] at hosts
      simp at hosts
    · next other =>
        exact other (owned.alone c c' here now p p m at_ at' owns (Thread.owns_of_hosts hosts)).symm

/-- A session that has been started was so before, or has just been. -/
theorem live_before {m : Nat} (step : Steps I cfg s a t) (live : t.Live p m) :
    s.Live p m ∨ ∃ q mgr i, t.managers[m]? = some (q, mgr) ∧ mgr.session = some i := by
  rcases live with ⟨e', listed, rfl⟩ | ⟨c, now, at_, hosts⟩
  · rcases entry_step step listed with old | ⟨c, via, -, enrols, -⟩
    · exact .inl (.inl old)
    · unfold Pool.enrols at enrols
      split at enrols
      · next q via' hasSave m at_ =>
          simp only [Option.ite_none_right_eq_some, Option.some.injEq, Prod.mk.injEq] at enrols
          obtain ⟨-, rfl, rfl⟩ := enrols
          exact .inl (.inr ⟨c, _, at_, rfl⟩)
      · simp at enrols
  · rcases thread_before step at_ with same | onward
    · exact .inl (.inr ⟨c, now, same, hosts⟩)
    · rcases onward.hosts hosts with ⟨before, at', hosts'⟩ | entry | started
      · exact .inl (.inr ⟨c, before, at', hosts'⟩)
      · exact .inl (.inl entry)
      · exact .inr started

/-- A changed manager has its own current session, and the others the old ones. -/
theorem session_setManager {m n : Nat} {q : PlayerId} {mgr mgr' new : Manager G}
    (there : s.managers[m]? = some (q, mgr)) (managers : t.managers = (s.setManager m mgr').managers)
    (now : t.managers[n]? = some (p, new)) :
    (n = m ∧ p = q ∧ new = mgr') ∨ n ≠ m ∧ s.managers[n]? = some (p, new) := by
  rw [managers, setManager_get] at now
  split at now
  · next same =>
      subst same
      rw [there, Option.map_some, Option.some.injEq, Prod.mk.injEq] at now
      exact .inl ⟨rfl, now.1.symm, now.2.symm⟩
  · next other => exact .inr ⟨fun same => other same.symm, now⟩

/-- A manager keeps its current session, or gets one, or is closed. -/
theorem live_step (owned : Owned s)
    (live : ∀ (m : Nat) (mgr : Manager G), s.managers[m]? = some (p, mgr) → s.Live p m →
      mgr.session ≠ none) (step : Steps I cfg s a t) (m : Nat) (new : Manager G)
    (now : t.managers[m]? = some (p, new)) (lives : t.Live p m) : new.session ≠ none := by
  rcases live_before step lives with before | ⟨q, mgr, i, there, current⟩
  · have untouched (managers : t.managers = s.managers) : new.session ≠ none :=
      live m new (managers ▸ now) before
    have at_ {n : Nat} {q : PlayerId} {mgr mgr' : Manager G}
        (there : s.managers[n]? = some (q, mgr))
        (managers : t.managers = (s.setManager n mgr').managers)
        (keeps : p = q → n = m → mgr'.session = mgr.session ∨ mgr'.session ≠ none) :
        new.session ≠ none := by
      rcases session_setManager there managers now with ⟨rfl, rfl, rfl⟩ | ⟨-, old⟩
      · rcases keeps rfl rfl with same | some_
        · exact same ▸ live m mgr there before
        · exact some_
      · exact live m new old before
    cases step with
    | calls | fires | passes | lists | refuses | wipes | keeps | empties => exact untouched rfl
    | inserts | touches | deletes => exact untouched (by simp)
    | enters at' about there entered =>
        refine at_ there rfl fun _ _ => .inl ?_
        obtain ⟨-, ⟨_, rfl, -⟩ | ⟨_, -, -, rfl, -⟩⟩ := Manager.enter_cases entered <;> rfl
    | @discards c q r via n err mgr mgr' at' there closed =>
        refine at_ there rfl fun same here => ?_
        obtain ⟨old, there'⟩ := owned.owner c _ q n at' rfl
        rw [there, Option.some.injEq, Prod.mk.injEq] at there'
        obtain rfl := same.trans there'.1
        subst here
        exact absurd lives (not_live_of_closed (.returned (.started p via err)) owned at' rfl rfl
          rfl rfl)
    | @closes c q r by_ n mgr mgr' at' there closed =>
        refine at_ there rfl fun same here => ?_
        obtain ⟨old, there'⟩ := owned.owner c _ q n at' rfl
        rw [there, Option.some.injEq, Prod.mk.injEq] at there'
        obtain rfl := same.trans there'.1
        subst here
        exact absurd lives (not_live_of_closed (Thread.afterEnd p none by_) owned at' rfl rfl rfl
          (Thread.afterEnd_hosts ..))
    | @creates c q via hasSave spawn mgr d i at' launched =>
        have exists_ : ∃ old, s.managers[m]? = some (p, old) := by
          rcases before with ⟨e, listed, rfl⟩ | ⟨c, here, at_, hosts⟩
          · exact owned.entry p e listed
          · exact owned.owner c here p m at_ (Thread.owns_of_hosts hosts)
        obtain ⟨old, there⟩ := exists_
        have whole : (s.managers ++ [(q, mgr)])[m]? = some (p, new) := now
        rw [List.getElem?_append_left (List.getElem?_eq_some_iff.mp there).1] at whole
        exact live m new whole before
    | boots at' there round =>
        refine at_ there rfl fun _ _ => ?_
        cases Manager.boots round with
        | started => exact .inr (by simp)
        | read | failed => exact .inl rfl
    | advances at' there advanced =>
        exact at_ there rfl fun _ _ => Manager.advance_session (Manager.advances advanced)
    | @leaves c q r n for_ call move mgr mgr' d res at' there advanced =>
        refine at_ there rfl fun _ _ => ?_
        rw [show (completed call.session for_ res mgr').session = mgr'.session from
          completed_session ..]
        exact Manager.advance_session (Manager.advances advanced)
    | @envs n q event mgr mgr' d there happened =>
        exact at_ there rfl fun _ _ => .inl (Manager.env_frame happened).1
  · rw [now, Option.some.injEq, Prod.mk.injEq] at there
    rw [there.2, current]
    simp

/-- The directory of a player with a manager is there. -/
theorem present_step (present : ∀ (m : Nat) (mgr : Manager G), s.managers[m]? = some (p, mgr) →
      (s.disks p).dir ≠ .absent)
    (unreset : ∀ (c : Nat) (here : Thread), s.threads.get c = some here → here.resets ≠ some p)
    (step : Steps I cfg s a t) (m : Nat) (new : Manager G)
    (now : t.managers[m]? = some (p, new)) : (t.disks p).dir ≠ .absent := by
  rcases manager_before step now with ⟨old, there⟩ | made
  · have before := present m old there
    cases disk_step step p with
    | kept save writes wipes stays => exact stays before
    | consumed action was read =>
        rcases Session.consume_play read with ⟨-, -, same⟩ | ⟨-, same⟩ | ⟨-, written⟩
        · exact same ▸ before
        · exact same ▸ before
        · exact Disk.write_present written
    | @wiped c action at_ gone => exact absurd rfl (unreset c _ at_)
    | @emptied c action at_ gone => exact absurd rfl (unreset c _ at_)
  · exact made

/-- The save file of a player who is not reset stays. -/
theorem found_step (found : ∀ (c : Nat) (here : Thread), s.threads.get c = some here →
      here.found = some p → (s.disks p).save ≠ none)
    (unreset : ∀ (c : Nat) (here : Thread), s.threads.get c = some here → here.resets ≠ some p)
    (step : Steps I cfg s a t) (c : Nat) (now : Thread) (at_ : t.threads.get c = some now)
    (mine : now.found = some p) : (t.disks p).save ≠ none := by
  have before : (s.disks p).save ≠ none := by
    rcases thread_before step at_ with same | onward
    · exact found c now same mine
    · rcases onward.found mine with ⟨before, at', same⟩ | there
      · exact found c before at' same
      · exact there
  cases disk_step step p with
  | kept save => rwa [save]
  | consumed action was read =>
      rcases Session.consume_play read with ⟨-, -, same⟩ | ⟨-, same⟩ | ⟨-, written⟩
      · exact same ▸ before
      · exact same ▸ before
      · simp [(Disk.write_eq_some written).2.1]
  | @wiped c action at_ gone => exact absurd rfl (unreset c _ at_)
  | @emptied c action at_ gone => exact absurd rfl (unreset c _ at_)

/-! ## The managers -/

theorem calling_of_callsOn {c m : Nat} {call : Call} (called : s.callsOn m c = some call) :
    ∃ q for_, s.threads.get c = some (.calling q m for_ call) := by
  unfold callsOn at called
  obtain ⟨here, at_, calls⟩ := Option.bind_eq_some_iff.mp called
  unfold Thread.calls at calls
  split at calls
  · next q n for_ call' =>
      simp only [Option.ite_none_right_eq_some, Option.some.injEq] at calls
      obtain ⟨rfl, rfl⟩ := calls
      exact ⟨q, for_, at_⟩
  · simp at calls

/-- Nobody is inside a manager that is being discarded. -/
theorem Owned.nobody_inside {c m : Nat} {q : PlayerId} {via : Via} {err : Option PoolErr}
    (owned : Owned s) (at_ : s.threads.get c = some (.discarding q via m err)) (c' : Nat) :
    s.callsOn m c' = none := by
  cases called : s.callsOn m c' with
  | none => rfl
  | some call =>
      obtain ⟨r, for_, at'⟩ := calling_of_callsOn called
      have other (owns : (Thread.calling r m for_ call).owns = some (r, m)) : False := by
        have same := owned.alone c c' _ _ q r m at_ at' rfl owns
        subst same
        rw [at_] at at'
        simp at at'
      cases for_ with
      | restore via' => exact (other rfl).elim
      | save by_ => exact (other rfl).elim
      | reply => exact absurd rfl (owned.fresh c c' _ _ q r m at_ at' rfl)

/-- The player in whose name a goroutine enters a manager is the manager's. -/
theorem Owned.enterer {c m : Nat} {q r : PlayerId} {here : Thread} {text : Text} {for_ : For}
    {mgr : Manager G} (owned : Owned s) (at_ : s.threads.get c = some here)
    (about : here.enters = some (r, m, text, for_)) (there : s.managers[m]? = some (q, mgr)) :
    q = r := by
  have mine : ∃ mgr, s.managers[m]? = some (r, mgr) := by
    cases here <;> simp only [Thread.enters, Option.some.injEq, Prod.mk.injEq,
      reduceCtorEq] at about <;> obtain ⟨rfl, rfl, rfl, rfl⟩ := about
    · exact owned.owner c _ _ _ at_ rfl
    · exact owned.user c _ _ _ at_ rfl
    · exact owned.owner c _ _ _ at_ rfl
  obtain ⟨mgr', there'⟩ := mine
  rw [there, Option.some.injEq, Prod.mk.injEq] at there'
  exact there'.1

/-- Whoever is about to enter a manager has one line to say. -/
theorem Owned.single {c m : Nat} {q : PlayerId} {here : Thread} {text : Text} {for_ : For}
    (owned : Owned s) (at_ : s.threads.get c = some here)
    (about : here.enters = some (q, m, text, for_)) : SingleLine (cfg.savePath q) text := by
  refine ⟨?_, fun _ _ => cfg.savePath_single q⟩
  have speaks := owned.speaks c here at_
  cases here <;> simp only [Thread.enters, Option.some.injEq, Prod.mk.injEq,
    reduceCtorEq] at about <;> obtain ⟨rfl, rfl, rfl, rfl⟩ := about
  · decide
  · exact Sanitize.Playable.single speaks
  · decide

/-- What the request of a command needs is there. -/
theorem InTime.has {c m : Nat} {mgr : Manager G} {call : Call} {request : Request}
    (inTime : InTime carried cfg p s) (owned : Owned s) (there : s.managers[m]? = some (p, mgr))
    (called : s.callsOn m c = some call) (requested : requestOf call.text = some request) :
    (s.disks p).Has request := by
  cases request with
  | save => exact inTime.present m mgr there
  | restore =>
      obtain ⟨q, for_, at_⟩ := calling_of_callsOn called
      obtain rfl := owned.caller at_ there
      have speaks := owned.speaks c _ at_
      have other : requestOf saveText ≠ some .restore := by decide
      cases for_ with
      | restore via => exact inTime.found c _ at_ rfl
      | reply =>
          rw [Sanitize.Playable.plain speaks] at requested
          simp at requested
      | save by_ =>
          rw [show call.text = saveText from speaks.2] at requested
          exact absurd requested other

theorem InTime.managers_step (inTime : InTime carried cfg p s) (owned : Owned s)
    (timely : Timely carried p s a) (whole : s.lags a ≠ some p)
    (shut : ∀ c by_ m, s.threads.get c = some (.closing p by_ m) → ∀ c', s.callsOn m c' = none)
    (step : Steps I cfg s a t) :
    Everywhere (fun q mgr calls boots =>
      q = p → mgr.Orderly carried (cfg.savePath p) calls boots) t := by
  refine everywhere_step owned inTime.orderly ⟨?_, ?_, ?_, ?_, ?_, ?_, ?_⟩ step
  · intro c q via hasSave spawn mgr d i at_ launched mine
    exact .launched launched c
  · intro c q r via hasSave m i buf poll mgr mgr' b action at_ there orderly round mine
    obtain ⟨old, there'⟩ := owned.owner c _ q m at_ rfl
    rw [there, Option.some.injEq, Prod.mk.injEq] at there'
    obtain rfl := there'.1
    subst mine action
    refine (orderly rfl).boot (bootsOn_booting at_) (fun started σ listed => ?_)
      (Manager.boots round)
    obtain ⟨stops, accepted⟩ := Manager.boot_started (started ▸ round)
    exact started_of_lags whole at_ there stops accepted listed
  · intro c here q r m text for_ mgr mgr' stage action at_ about there orderly entered mine
    obtain rfl := owned.enterer at_ about there
    subst mine
    have absent : s.callsOn m c = none := by
      rw [callsOn, at_]
      exact (idle_enters about m).1
    exact (orderly rfl).enter absent (owned.single at_ about) entered
  · intro c q r m for_ call move mgr mgr' d stage action at_ there orderly advanced mine
    obtain rfl := owned.caller at_ there
    subst mine
    subst action
    have timely' : move ≠ .poll .cancelled ∧ move ≠ .poll .deadline := by
      constructor <;> rintro rfl <;> exact timely m for_ call at_
    exact (orderly rfl).advance (callsOn_calling at_) (bootsOn_calling at_) timely'
      (fun drained σ listed => drained_of_lags (drained ▸ whole) at_ there listed)
      (Manager.advances advanced)
  · intro c q r m call move mgr mgr' d output at_ there orderly advanced after mine
    refine (after mine).unsave (fun c' => ?_) _
    by_cases same : c' = c
    · rw [same, update_self]
    · rw [update_of_ne same]
      cases called : s.callsOn m c' with
      | none => rfl
      | some other =>
          exact absurd ((orderly mine).alone c' c other call called (callsOn_calling at_)) same
  · intro c here q r m mgr mgr' at_ closes there orderly closed mine
    refine (orderly mine).close ?_ closed
    rcases closes with ⟨via, err, rfl⟩ | ⟨by_, rfl⟩
    · exact owned.nobody_inside at_
    · obtain ⟨old, there'⟩ := owned.owner c _ q m at_ rfl
      rw [there, Option.some.injEq, Prod.mk.injEq] at there'
      obtain rfl := there'.1.symm.trans mine
      exact shut c by_ m at_
  · intro m q event mgr mgr' d action there orderly happened mine
    subst mine action
    refine (orderly rfl).env happened ?_ ?_ ?_
    · exact fun c call request called requested _ => inTime.has owned there called requested
    · rintro i rfl
      exact timely _ there rfl
    · rintro i rfl σ listed
      exact timely σ ⟨mgr, there, listed⟩

theorem inTime_step (inTime : InTime carried cfg p s) (owned : Owned s)
    (timely : Timely carried p s a) (whole : s.lags a ≠ some p)
    (shut : ∀ c by_ m, s.threads.get c = some (.closing p by_ m) → ∀ c', s.callsOn m c' = none)
    (step : Steps I cfg s a t) : InTime carried cfg p t where
  orderly := inTime.managers_step owned timely whole shut step
  live := live_step owned inTime.live step
  unreset := unreset_step inTime.unreset timely step
  present := present_step inTime.present inTime.unreset step
  found := found_step inTime.found inTime.unreset step

/-- Whoever holds a session that is not busy is let into its manager. -/
theorem let_in {m : Nat} {text : Text} {mgr : Manager G} {err : Err}
    (inTime : InTime carried cfg p s) (hosted : Hosted s) (live : s.Live p m)
    (there : s.managers[m]? = some (p, mgr)) (idle : mgr.busy = false) :
    mgr.enter text ≠ some (mgr, .outside (.err err)) := by
  intro refused
  obtain ⟨-, ⟨err', -, -, cause⟩ | ⟨i, -, -, -, other⟩⟩ := Manager.enter_cases refused
  · rcases cause with busy | none_ | ⟨i, current, dead⟩
    · rw [idle] at busy; simp at busy
    · exact inTime.live m mgr there live none_
    · have inside := (hosted m p mgr there).current i current
      have listed := List.getElem?_eq_getElem inside
      rw [listed, Option.any_some, Session.alive,
        (hosted m p mgr there).unwaited _ (List.mem_of_getElem? listed)] at dead
      simp at dead
  · simp at other

/-! ## Scripts -/

/-- Nobody is reset, nobody gives up on an answer, no interpreter exits by itself,
and every file can be used. -/
def Act.timely : Act → Bool
  | .call _ (.reset _) | .env _ (.consume _ false) => false
  | a => a.inTime

theorem timely_of_script {script : List Act} (timely : ∀ a ∈ script, a.timely = true) :
    ∀ a ∈ script, ∀ (s : Pool G) p, Timely carried p s a := by
  intro a listed s p
  have timely := timely a listed
  unfold Timely
  split
  · simp [Act.timely] at timely
  · simp [Act.timely, Act.inTime] at timely
  · simp [Act.timely, Act.inTime] at timely
  · simp [Act.timely, Act.inTime] at timely
  · simp [Act.timely] at timely
  · trivial

end Pool

end Zorkbot.Pty
