/-
# The timers of the table

A timer carries the player and the number of the entry it was armed for. What an
entry refers to is its own or spent, so stopping one entry's timers never stops
another's, and a timer that fires for an entry still in the table goes on until
the entry has left it. An entry is therefore never forgotten.
-/

import Zorkbot.Pty.Numbers

namespace Zorkbot.Pty

open Go Transition

variable {G : Type}

namespace Pool

variable {I : Interpreter G} {cfg : PoolConfig} {s t : Pool G} {a : Act} {p : PlayerId}

/-! ## Arming and stopping -/

theorem stop_timers (o : Option Nat) (s : Pool G) (timer : Nat) :
    (s.stop o).timers.get timer = if o = some timer then none else s.timers.get timer := by
  cases o with
  | none => simp [stop]
  | some n =>
      change (s.timers.erase n).get timer = _
      rw [Table.get_erase]
      simp [eq_comm]

@[simp]
theorem stop_nextTimer (o : Option Nat) (s : Pool G) : (s.stop o).nextTimer = s.nextTimer := by
  cases o <;> rfl

/-- How a step can change the timers: some stop, and one may be armed. -/
structure Retimes (s t : Pool G) (gone : Nat → Prop) (row : Option (PlayerId × Nat)) : Prop where
  next : s.nextTimer ≤ t.nextTimer
  old : ∀ timer r, t.timers.get timer = some r → s.timers.get timer = some r ∨
    (timer = s.nextTimer ∧ row = some r ∧ s.nextTimer < t.nextTimer)
  stays : ∀ timer r, s.timers.get timer = some r → timer < s.nextTimer → ¬ gone timer →
    t.timers.get timer = some r

/-- Arming a timer, or not, after others were stopped. -/
theorem arm_retimes {timeout : Int} {num : Nat} {u : Pool G} {gone : Nat → Prop}
    (same : u.nextTimer = s.nextTimer)
    (timers : ∀ timer, u.timers.get timer = s.timers.get timer ∨
      gone timer ∧ u.timers.get timer = none) :
    Retimes s (u.arm timeout p num).1 gone (some (p, num)) := by
  have before {timer : Nat} {r : PlayerId × Nat} (found : u.timers.get timer = some r) :
      s.timers.get timer = some r := by
    rcases timers timer with kept | ⟨-, none_⟩
    · exact kept ▸ found
    · rw [none_] at found
      simp at found
  have after {timer : Nat} {r : PlayerId × Nat} (found : s.timers.get timer = some r)
      (stays : ¬ gone timer) : u.timers.get timer = some r := by
    rcases timers timer with kept | ⟨stopped, -⟩
    · exact kept.trans found
    · exact absurd stopped stays
  unfold arm
  split
  · refine ⟨by simp [same], fun timer r found => ?_, fun timer r found inside stays => ?_⟩
    · simp only [Table.get_set] at found
      split at found
      · next here =>
          rw [Option.some.injEq] at found
          exact .inr ⟨here.trans same, congrArg some found, by simp [same]⟩
      · exact .inl (before found)
    · have other : timer ≠ u.nextTimer := by omega
      simp only [Table.get_set, if_neg other]
      exact after found stays
  · exact ⟨same.ge, fun timer r found => .inl (before found),
      fun timer r found _ stays => after found stays⟩

/-- What was armed is armed under the next identity. -/
theorem arm_armed {timeout : Int} {num timer : Nat} {u : Pool G}
    (armed : (u.arm timeout p num).2 = some timer) :
    timer = u.nextTimer ∧ u.nextTimer < (u.arm timeout p num).1.nextTimer ∧
      (u.arm timeout p num).1.timers.get timer = some (p, num) := by
  by_cases enabled : 0 < timeout
  · simp only [arm, if_pos enabled, Option.some.injEq] at armed ⊢
    subst armed
    exact ⟨rfl, Nat.lt_succ_self _, Table.get_set_self _ _ _⟩
  · simp [arm, enabled] at armed

theorem arm_enabled {timeout : Int} (enabled : 0 < timeout) (p : PlayerId) (num : Nat)
    (u : Pool G) : (u.arm timeout p num).2 = some u.nextTimer := by
  rw [arm, if_pos enabled]

theorem insert_retimes (cfg : PoolConfig) (p : PlayerId) (c m : Nat) (s : Pool G) :
    Retimes s (s.insert cfg p c m) (fun _ => False) (some (p, s.nextNum)) := by
  have armed : Retimes s (s.arm cfg.idleStartTimeout p s.nextNum).1 (fun _ => False)
      (some (p, s.nextNum)) := arm_retimes rfl fun _ => .inl rfl
  exact ⟨armed.next, armed.old, armed.stays⟩

/-- A timer that is not mentioned is not stopped. -/
theorem stop_spares {o : Option Nat} {e : Entry} {u : Pool G} (own : ∀ n, o = some n → e.Mentions n)
    (timer : Nat) : (u.stop o).timers.get timer = u.timers.get timer ∨
      e.Mentions timer ∧ (u.stop o).timers.get timer = none := by
  rw [stop_timers]
  split
  · next here => exact .inr ⟨own timer here, rfl⟩
  · exact .inl rfl

/-- Stopping two timers of an entry stops no other. -/
theorem stops_spare {e : Entry} {u v : Pool G}
    (first : ∀ timer, u.timers.get timer = s.timers.get timer ∨
      e.Mentions timer ∧ u.timers.get timer = none)
    (second : ∀ timer, v.timers.get timer = u.timers.get timer ∨
      e.Mentions timer ∧ v.timers.get timer = none) (timer : Nat) :
    v.timers.get timer = s.timers.get timer ∨ e.Mentions timer ∧ v.timers.get timer = none := by
  rcases second timer with same | stopped
  · rcases first timer with same' | ⟨own, none_⟩
    · exact .inl (same.trans same')
    · exact .inr ⟨own, same.trans none_⟩
  · exact .inr stopped

/-- What `touch` and `delete` have stopped when they go on. -/
theorem stopped_spares (e : Entry) (idle : Bool) (s : Pool G) (timer : Nat) :
    (((if idle then s.stop e.idleTimer else s).stop e.inactiveTimer).timers.get timer =
        s.timers.get timer) ∨ e.Mentions timer ∧
      ((if idle then s.stop e.idleTimer else s).stop e.inactiveTimer).timers.get timer = none := by
  refine stops_spare (fun timer => ?_) (stop_spares fun n here => .inr here) timer
  cases idle with
  | true => exact stop_spares (fun n here => .inl here) timer
  | false => exact .inl rfl

theorem stopped_nextTimer (e : Entry) (idle : Bool) (s : Pool G) :
    ((if idle then s.stop e.idleTimer else s).stop e.inactiveTimer).nextTimer = s.nextTimer := by
  cases idle <;> simp

theorem touch_retimes (cfg : PoolConfig) (p : PlayerId) (e : Entry) (s : Pool G) :
    Retimes s (s.touch cfg p e) e.Mentions (some (p, e.num)) := by
  have armed : Retimes s (((if !e.commanded && e.idleTimer.isSome then s.stop e.idleTimer
      else s).stop e.inactiveTimer).arm cfg.inactivityTimeout p e.num).1 e.Mentions
      (some (p, e.num)) := arm_retimes (stopped_nextTimer e _ s) (stopped_spares e _ s)
  exact ⟨armed.next, armed.old, armed.stays⟩

theorem delete_retimes (p : PlayerId) (e : Entry) (save : Bool) (s : Pool G) :
    Retimes s (s.delete p e save) e.Mentions none := by
  have spared := stopped_spares e true s
  refine ⟨(stopped_nextTimer e true s).ge, fun timer r found => .inl ?_,
    fun timer r found _ stays => ?_⟩
  · rcases spared timer with same | ⟨-, none_⟩
    · exact same ▸ found
    · exact absurd (none_.symm.trans found) (by simp)
  · rcases spared timer with same | ⟨own, -⟩
    · exact same.trans found
    · exact absurd own stays

/-- What a touched entry refers to, and what it is left to. -/
theorem touch_entry (cfg : PoolConfig) (p : PlayerId) (e : Entry) (s : Pool G) :
    ∃ e', e'.num = e.num ∧
      (∀ timer, e'.Mentions timer → e.Mentions timer ∨
        (timer = s.nextTimer ∧ s.nextTimer < (s.touch cfg p e).nextTimer)) ∧
      (0 < cfg.inactivityTimeout → e'.Mentions s.nextTimer ∧
        (s.touch cfg p e).timers.get s.nextTimer = some (p, e.num)) ∧
      ∀ q, (s.touch cfg p e).entries.get q = if q = p then some e' else s.entries.get q := by
  have next := stopped_nextTimer e (!e.commanded && e.idleTimer.isSome) s
  refine ⟨_, ?_, ?_, ?_, fun q => Table.get_set s.entries p q _⟩
  · rfl
  · rintro timer (idle | inactive)
    · simp only [Option.ite_none_left_eq_some] at idle
      exact .inl (.inl idle.2)
    · simp only at inactive
      split at inactive
      · obtain ⟨here, more, -⟩ := arm_armed inactive
        exact .inr ⟨here.trans next, next ▸ more⟩
      · exact .inl (.inr inactive)
  · intro enabled
    have armed := arm_enabled enabled p e.num
      ((if !e.commanded && e.idleTimer.isSome then s.stop e.idleTimer else s).stop
        e.inactiveTimer)
    obtain ⟨here, -, found⟩ := arm_armed armed
    refine ⟨.inr ?_, ?_⟩
    · exact (if_pos enabled).trans (armed.trans (congrArg some next))
    · rw [← next]
      exact found

/-! ## Timers and entries -/

/-- Armed timers are known, and what an entry refers to is its own or spent. -/
structure Timed (s : Pool G) : Prop where
  armed : ∀ timer row, s.timers.get timer = some row → timer < s.nextTimer
  mentioned : ∀ p e timer, s.entries.get p = some e → e.Mentions timer → timer < s.nextTimer
  own : ∀ p e timer row, s.entries.get p = some e → e.Mentions timer →
    s.timers.get timer = some row → row = (p, e.num)

/-- Entries refer to what they referred to before, and one perhaps to a timer that
was armed for it. -/
def Refers (s t : Pool G) (row : Option (PlayerId × Nat)) : Prop :=
  ∀ q e' timer, t.entries.get q = some e' → e'.Mentions timer →
    (∃ e, s.entries.get q = some e ∧ e.num = e'.num ∧ e.Mentions timer) ∨
      (timer = s.nextTimer ∧ row = some (q, e'.num) ∧ s.nextTimer < t.nextTimer)

theorem Timed.retime {gone : Nat → Prop} {row : Option (PlayerId × Nat)} (timed : Timed s)
    (retimes : Retimes s t gone row) (refers : Refers s t row) : Timed t := by
  have next := retimes.next
  constructor
  · intro timer r found
    rcases retimes.old timer r found with old | ⟨rfl, -, more⟩
    · have := timed.armed timer r old
      omega
    · exact more
  · intro q e' timer listed mentions
    rcases refers q e' timer listed mentions with ⟨e, old, -, mentioned⟩ | ⟨rfl, -, more⟩
    · have := timed.mentioned q e timer old mentioned
      omega
    · exact more
  · intro q e' timer r listed mentions found
    rcases refers q e' timer listed mentions with ⟨e, old, same, mentioned⟩ | ⟨rfl, mine, -⟩
    · have before := timed.mentioned q e timer old mentioned
      rcases retimes.old timer r found with old' | ⟨here, -⟩
      · exact same ▸ timed.own q e timer r old mentioned old'
      · omega
    · rcases retimes.old _ r found with old' | ⟨-, new, -⟩
      · have := timed.armed _ r old'
        omega
      · exact Option.some.inj (new.symm.trans mine)

theorem timed_step (timed : Timed s) (step : Steps I cfg s a t) : Timed t := by
  -- An entry that is as it was refers to what it referred to.
  have unchanged {row : Option (PlayerId × Nat)}
      (entries : ∀ q e', t.entries.get q = some e' → s.entries.get q = some e') :
      Refers s t row := fun q e' timer listed mentions =>
    .inl ⟨e', entries q e' listed, rfl, mentions⟩
  cases table_step step with
  | kept entries nextNum timers nextTimer =>
      have retimes : Retimes s t (fun _ => False) none :=
        ⟨nextTimer.ge, fun timer r found => .inl (timers ▸ found),
          fun timer r found _ _ => timers ▸ found⟩
      exact timed.retime retimes (unchanged fun q e' listed => entries ▸ listed)
  | @fired timer c q num armed after =>
      subst after
      have retimes : Retimes s ({ s with timers := s.timers.erase timer }.goes c
          (.autoEnding q num)) (fun n => n = timer) none := by
        refine ⟨le_rfl, fun n r found => .inl ?_, fun n r found _ stays => ?_⟩
        · change (s.timers.erase timer).get n = some r at found
          rw [Table.get_erase] at found
          split at found
          · simp at found
          · exact found
        · change (s.timers.erase timer).get n = some r
          rw [Table.get_erase, if_neg stays, found]
      exact timed.retime retimes (unchanged fun q e' listed => listed)
  | @inserted c m q next vacant room after =>
      subst after
      have retimes := insert_retimes cfg q c m s
      refine timed.retime (t := (s.insert cfg q c m).goes c next)
        ⟨retimes.next, retimes.old, retimes.stays⟩ fun r e' timer listed mentions => ?_
      change (s.insert cfg q c m).entries.get r = some e' at listed
      rw [insert_entries] at listed
      split at listed
      · next here =>
          rw [Option.some.injEq] at listed
          subst here listed
          have idle : (s.arm cfg.idleStartTimeout r s.nextNum).2 = some timer := by
            rcases mentions with idle | inactive
            · exact idle
            · simp at inactive
          obtain ⟨same, more, -⟩ := arm_armed idle
          exact .inr ⟨same, rfl, more⟩
      · exact .inl ⟨e', listed, rfl, mentions⟩
  | @touched c q e next found after =>
      subst after
      have retimes := touch_retimes cfg q e s
      obtain ⟨e₀, num, mentioned, -, touched⟩ := touch_entry cfg q e s
      refine timed.retime (t := (s.touch cfg q e).goes c next)
        ⟨retimes.next, retimes.old, retimes.stays⟩ fun r e' timer listed mentions => ?_
      change (s.touch cfg q e).entries.get r = some e' at listed
      rw [touched] at listed
      split at listed
      · next here =>
          rw [Option.some.injEq] at listed
          subst here listed
          rcases mentioned timer mentions with old | ⟨new, more⟩
          · exact .inl ⟨e, found, num.symm, old⟩
          · exact .inr ⟨new, by rw [num], more⟩
      · exact .inl ⟨e', listed, rfl, mentions⟩
  | @deleted c q e save next found after =>
      subst after
      have retimes := delete_retimes q e save s
      refine timed.retime (t := (s.delete q e save).goes c next)
        ⟨retimes.next, retimes.old, retimes.stays⟩ (unchanged fun r e' listed => ?_)
      have entries : (s.entries.erase q).get r = some e' := by simpa using listed
      rw [Table.get_erase] at entries
      split at entries
      · simp at entries
      · exact entries

theorem timed {guard : Pool G → Act → Prop} (reached : (pool I cfg).Reachable guard s) :
    Timed s := by
  refine reached.invariant ?_ fun _ _ _ _ timed _ taken => timed_step timed (pool_steps taken)
  constructor <;> intros <;> simp_all [pool, init]

/-! ## Whom an entry is left to -/

/-- A timer of this number has fired, and its callback is not done. -/
def Fired (s : Pool G) (p : PlayerId) (num : Nat) : Prop :=
  ∃ c, s.threads.get c = some (.autoEnding p num) ∨
    s.threads.get c = some (.deleting p (.timer num))

/-- A pending timer carries the entry's number, or one that did has fired. -/
def Watched (s : Pool G) (p : PlayerId) (e : Entry) : Prop :=
  (∃ timer, e.Mentions timer ∧ s.timers.get timer = some (p, e.num)) ∨ s.Fired p e.num

/-- The callback of a timer goes on until the entry has left the table. -/
theorem fired_step {num : Nat} {e e' : Entry} (step : Steps I cfg s a t)
    (listed : s.entries.get p = some e) (same : e.num = num)
    (listed' : t.entries.get p = some e') (fired : s.Fired p num) : t.Fired p num := by
  obtain ⟨c, at_ | at_⟩ := fired
  · obtain ⟨next, at', rfl | onward⟩ := thread_after step at_
    · exact ⟨c, .inl at'⟩
    · cases onward with
      | passes pass =>
          cases pass with
          | current => exact ⟨c, .inr at'⟩
          | stale other => exact absurd same (other e listed)
  · obtain ⟨next, at', rfl | onward⟩ := thread_after step at_
    · exact ⟨c, .inr at'⟩
    · cases onward with
      | passes pass =>
          cases pass with
          | gone vacant =>
              rw [vacant] at listed
              simp at listed
      | deletes found saved action after =>
          rw [after] at listed'
          simp at listed'
      | drops found unsaved => simp [By.save] at unsaved

/-- An entry that is as it was is left to what it was left to, unless the step was a
command's. -/
theorem watched_kept {e : Entry} (timed : Timed s) (step : Steps I cfg s a t)
    (watched : s.Watched p e) (listed : s.entries.get p = some e)
    (listed' : t.entries.get p = some e) :
    t.Watched p e ∨ ∃ c next, t = (s.touch cfg p e).goes c next := by
  obtain ⟨timer, mentions, pending⟩ | fired := watched
  swap
  · exact .inl (.inr (fired_step step listed rfl listed' fired))
  have early := timed.armed timer _ pending
  -- A timer that was not stopped is still there.
  have spared {gone : Nat → Prop} {row : Option (PlayerId × Nat)} (retimes : Retimes s t gone row)
      (other : ¬ gone timer) : t.Watched p e :=
    .inl ⟨timer, mentions, retimes.stays timer _ pending early other⟩
  cases table_step step with
  | kept entries nextNum timers nextTimer => exact .inl (.inl ⟨timer, mentions, timers ▸ pending⟩)
  | @fired n c q num armed after =>
      subst after
      refine .inl ?_
      by_cases here : timer = n
      · subst here
        rw [armed, Option.some.injEq, Prod.mk.injEq] at pending
        obtain ⟨rfl, rfl⟩ := pending
        exact .inr ⟨c, .inl (Table.get_set_self ..)⟩
      · refine .inl ⟨timer, mentions, ?_⟩
        change (s.timers.erase n).get timer = _
        rw [Table.get_erase, if_neg here, pending]
  | @inserted c m q next vacant room after =>
      subst after
      have retimes := insert_retimes cfg q c m s
      exact .inl (spared ⟨retimes.next, retimes.old, retimes.stays⟩ not_false)
  | @touched c q e₀ next found after =>
      by_cases here : q = p
      · subst here
        rw [found, Option.some.injEq] at listed
        exact .inr ⟨c, next, listed ▸ after⟩
      · subst after
        have retimes := touch_retimes cfg q e₀ s
        refine .inl (spared ⟨retimes.next, retimes.old, retimes.stays⟩ fun stopped => here ?_)
        exact (congrArg Prod.fst (timed.own q e₀ timer _ found stopped pending)).symm
  | @deleted c q e₀ save next found after =>
      subst after
      have retimes := delete_retimes q e₀ save s
      refine .inl (spared ⟨retimes.next, retimes.old, retimes.stays⟩ fun stopped => ?_)
      have own := congrArg Prod.fst (timed.own q e₀ timer _ found stopped pending)
      have erased : (s.entries.erase q).get p = some e := by simpa using listed'
      simp only at own
      simp [own] at erased

/-- An entry that a command has touched is left to the timer that the command armed. -/
theorem watched_touch {c : Nat} {next : Thread} {e e' : Entry}
    (inactive : 0 < cfg.inactivityTimeout)
    (listed : ((s.touch cfg p e).goes c next).entries.get p = some e') :
    ((s.touch cfg p e).goes c next).Watched p e' := by
  obtain ⟨e₀, num, -, left, touched⟩ := touch_entry cfg p e s
  change (s.touch cfg p e).entries.get p = some e' at listed
  rw [touched, if_pos rfl, Option.some.injEq] at listed
  subst listed
  obtain ⟨mentions, armed⟩ := left inactive
  exact .inl ⟨s.nextTimer, mentions, num ▸ armed⟩

/-- A touched entry has had a command. -/
theorem commanded_touch {c : Nat} {next : Thread} {e e' : Entry}
    (listed : ((s.touch cfg p e).goes c next).entries.get p = some e') : e'.commanded = true := by
  have listed' := (Table.get_set_self s.entries p _).symm.trans listed
  rw [Option.some.injEq] at listed'
  rw [← listed']

/-- A new entry is left to its idle-start timer. -/
theorem armed_insert (idle : 0 < cfg.idleStartTimeout) (p : PlayerId) (c m : Nat) (s : Pool G)
    {e : Entry} (listed : (s.insert cfg p c m).entries.get p = some e) :
    e.inactiveTimer = none ∧ e.idleTimer = some s.nextTimer ∧
      (s.insert cfg p c m).timers.get s.nextTimer = some (p, e.num) := by
  rw [insert_entries, if_pos rfl, Option.some.injEq] at listed
  subst listed
  have armed := arm_enabled idle p s.nextNum s
  exact ⟨rfl, armed, (arm_armed armed).2.2⟩

/-- A listed entry was so before, or it is new, or a command has touched it. -/
theorem listed_before {e' : Entry} (step : Steps I cfg s a t)
    (listed' : t.entries.get p = some e') :
    s.entries.get p = some e' ∨
      (∃ c m next, t = (s.insert cfg p c m).goes c next) ∨
      ∃ c text e, a = .go c ∧ s.threads.get c = some (.lookup p text) ∧
        s.entries.get p = some e ∧ t = (s.touch cfg p e).goes c (.commanding p e.manager text) := by
  cases step with
  | @inserts c q via hasSave m at_ vacant room =>
      by_cases here : q = p
      · exact .inr (.inl ⟨c, m, _, by rw [here]⟩)
      · change (s.insert cfg q c m).entries.get p = some e' at listed'
        rw [insert_entries, if_neg (Ne.symm here)] at listed'
        exact .inl listed'
  | @touches c q text e at_ found =>
      by_cases here : q = p
      · subst here
        exact .inr (.inr ⟨c, text, e, rfl, at_, found, rfl⟩)
      · obtain ⟨e₀, -, -, touched⟩ := touch_entries cfg q e s
        change (s.touch cfg q e).entries.get p = some e' at listed'
        rw [touched, if_neg (Ne.symm here)] at listed'
        exact .inl listed'
  | @deletes c q by_ e at_ found =>
      have entries : (s.entries.erase q).get p = some e' := by simpa using listed'
      rw [Table.get_erase] at entries
      split at entries
      · simp at entries
      · exact .inl entries
  | _ => exact .inl listed'

theorem watched_step (timed : Timed s) (idle : 0 < cfg.idleStartTimeout)
    (inactive : 0 < cfg.inactivityTimeout)
    (watched : ∀ p e, s.entries.get p = some e → s.Watched p e) (step : Steps I cfg s a t)
    {e' : Entry} (listed' : t.entries.get p = some e') : t.Watched p e' := by
  rcases listed_before step listed' with listed | ⟨c, m, next, rfl⟩ | ⟨c, text, e, -, -, -, rfl⟩
  · rcases watched_kept timed step (watched p e' listed) listed listed' with kept | ⟨c, next, rfl⟩
    · exact kept
    · exact watched_touch inactive listed'
  · obtain ⟨-, armed, pending⟩ := armed_insert idle p c m s listed'
    exact .inl ⟨s.nextTimer, .inl armed, pending⟩
  · exact watched_touch inactive listed'

theorem watched {guard : Pool G → Act → Prop} (idle : 0 < cfg.withDefaults.idleStartTimeout)
    (inactive : 0 < cfg.withDefaults.inactivityTimeout)
    (reached : (pool I cfg).Reachable guard s) :
    ∀ p e, s.entries.get p = some e → s.Watched p e := by
  refine reached.invariant ?_ fun s a _ reached watched _ taken p e listed =>
    watched_step (timed reached) idle inactive watched (pool_steps taken) listed
  intro p e listed
  simp [pool, init] at listed

/-! ## Entries without a command -/

/-- The entry's idle-start timer is armed, or it has fired and its callback is not
done. -/
def Idling (s : Pool G) (p : PlayerId) (e : Entry) : Prop :=
  (∃ timer, e.idleTimer = some timer ∧ s.timers.get timer = some (p, e.num)) ∨ s.Fired p e.num

/-- An entry without a command has no other timer than that one. -/
def Unplayed (s : Pool G) : Prop :=
  ∀ p e, s.entries.get p = some e → e.commanded = false → e.inactiveTimer = none ∧ s.Watched p e

theorem unplayed_step (timed : Timed s) (idle : 0 < cfg.idleStartTimeout)
    (unplayed : s.Unplayed) (step : Steps I cfg s a t) : t.Unplayed := by
  intro p e' listed' fresh
  rcases listed_before step listed' with listed | ⟨c, m, next, rfl⟩ | ⟨c, text, e, -, -, -, rfl⟩
  · obtain ⟨alone, watched⟩ := unplayed p e' listed fresh
    refine ⟨alone, ?_⟩
    rcases watched_kept timed step watched listed listed' with kept | ⟨c, next, rfl⟩
    · exact kept
    · exact absurd fresh (by simp [commanded_touch listed'])
  · obtain ⟨alone, armed, pending⟩ := armed_insert idle p c m s listed'
    exact ⟨alone, .inl ⟨s.nextTimer, .inl armed, pending⟩⟩
  · exact absurd fresh (by simp [commanded_touch listed'])

/-- As long as no command has touched it, an entry is left to its idle-start timer. -/
theorem idling {guard : Pool G → Act → Prop} (idle : 0 < cfg.withDefaults.idleStartTimeout)
    (reached : (pool I cfg).Reachable guard s) {e : Entry} (listed : s.entries.get p = some e)
    (fresh : e.commanded = false) : s.Idling p e := by
  have unplayed : s.Unplayed := by
    refine reached.invariant ?_ fun s a _ reached unplayed _ taken =>
      unplayed_step (timed reached) idle unplayed (pool_steps taken)
    intro p e listed
    simp [pool, init] at listed
  obtain ⟨alone, ⟨timer, idle_ | inactive, pending⟩ | fired⟩ := unplayed p e listed fresh
  · exact .inl ⟨timer, idle_, pending⟩
  · simp [alone] at inactive
  · exact .inr fired

/-- What holds of the table in every state. -/
structure TableSound (cfg : PoolConfig) (s : Pool G) : Prop where
  few : (s.entries.size : Int) ≤ cfg.maxActiveSessions
  valid : ∀ p ∈ s.entries.keys, matchesPlayerID p.text = true
  below : ∀ p e, s.entries.get p = some e → e.num < s.nextNum
  distinct : ∀ p q e e', s.entries.get p = some e → s.entries.get q = some e' →
    e.num = e'.num → p = q
  losers : s.LosersClosed
  watched : 0 < cfg.idleStartTimeout → 0 < cfg.inactivityTimeout →
    ∀ p e, s.entries.get p = some e → s.Watched p e

end Pool

open Pool

/-- In every run the table is sound; entries inserted later have greater numbers than
all before them; and between two removals of a player's session the `Start`s of the
player insert at most one. -/
theorem table_invariant {I : Interpreter G} {cfg : PoolConfig} {guard : Pool G → Act → Prop}
    {s : Pool G} (reached : (pool I cfg).Reachable guard s) :
    s.TableSound cfg.withDefaults ∧
      (∀ t, (pool I cfg).Path guard s t → s.nextNum ≤ t.nextNum ∧ s.Numbers t) ∧
      ∀ p t, (pool I cfg).Path (fun u a => guard u a ∧ u.removes p a = false) s t →
        t.insertions p ≤ s.insertions p + 1 ∧
          ((s.entries.get p).isSome = true → t.insertions p ≤ s.insertions p) := by
  refine ⟨?_, fun t path => numbers path, fun p t path => insertions_le path⟩
  have table := tabled reached
  exact ⟨table.few, fun p _ => p.valid, table.below, table.distinct, losersClosed reached,
    fun idle inactive => watched idle inactive reached⟩

/-- A pool whose timers are armed. -/
def timedPool : PoolConfig := { smallPool with idleStartTimeout := 1, inactivityTimeout := 1 }

namespace Pool.Script

/-- One session has been played, and the other one's timer has fired. -/
def timing : List Act :=
  starts alice 0 0 ++ [Act.go 0] ++ starts bob 1 1 ++ [Act.go 1] ++ commands alice 2 look ++
    plays 2 0 0 ++ [Act.fire 1 3]

end Pool.Script

theorem table_invariant_alice :
    ∃ s : Pool (List Text), s.Fired bob 2 ∧ s.entries.size = 2 ∧
      s.TableSound timedPool.withDefaults := by
  obtain ⟨s, reached, fired, two⟩ := System.reaches (pool terse timedPool) (fun _ _ => True)
    (fun s => s.threads.get 3 = some (.autoEnding bob 2) ∧ s.entries.size = 2) Script.timing
    (fun _ _ _ => trivial) (by decide)
  exact ⟨s, ⟨3, .inl fired⟩, two, (table_invariant reached).1⟩

end Zorkbot.Pty
