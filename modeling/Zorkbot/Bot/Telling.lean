/-
# Telling the watchers

Whoever removes a session owes its watchers a notice. A reconciliation queues it on
the spot; the handler of `!end` has it in hand while it waits for the game service
and for its own reply, and loses it when one of these waits raises. `!reset` and a
game command that finds its session gone never owe one. In a run without these, each
removal of a watched session is followed by one notice to the watchers it had.
-/

import Zorkbot.Bot.Filing
import Zorkbot.Bot.Reconciliation

namespace Zorkbot.Bot

open Transition

namespace SessionState

variable {s : SessionState}

/-- The record is that of an active session. -/
def Active (s : SessionState) (r : Nat) : Prop := r ∈ s.allSessions

theorem Plays.active {p : Str} {r : Nat} (plays : s.Plays p r) : s.Active r :=
  mem_allSessions.mpr ⟨p, plays⟩

/-- The player has a session with watchers. -/
def watched (s : SessionState) (p : Str) : Bool :=
  (s.sessions.get p).any fun r => decide ((s.record r).watchers ≠ ∅)

theorem active_removeSession {p : Str} {reason : EndReason} {r : Nat}
    (active : (s.removeSession p reason).2.Active r) : s.Active r := by
  obtain ⟨q, plays⟩ := mem_allSessions.mp active
  exact (plays_removeSession.mp plays).2.active

/-- What is not active any more after a removal is the session that was removed. -/
theorem plays_of_removed {p : Str} {reason : EndReason} {r : Nat} (active : s.Active r)
    (gone : ¬ (s.removeSession p reason).2.Active r) : s.Plays p r := by
  obtain ⟨q, plays⟩ := mem_allSessions.mp active
  by_cases same : q = p
  · exact same ▸ plays
  · exact absurd (plays_removeSession.mpr ⟨same, plays⟩).active gone

/-- A session has one player, so it is gone when it was removed. -/
theorem Consistent.removed {maxWatchers : Int} (consistent : s.Consistent maxWatchers) {p : Str}
    {r : Nat} (plays : s.Plays p r) (reason : EndReason) :
    ¬ (s.removeSession p reason).2.Active r := by
  intro active
  obtain ⟨q, after⟩ := mem_allSessions.mp active
  obtain ⟨other, plays'⟩ := plays_removeSession.mp after
  exact other ((consistent.owner plays').symm.trans (consistent.owner plays))

/-- Watchers come and go at active sessions only. -/
theorem record_setWatchers_of_other {r r' : Nat} {watchers : Finset Str} (other : r' ≠ r) :
    (s.setWatchers r watchers).record r' = s.record r' := by
  rw [record_setWatchers, if_neg fun both => other both.1]

theorem ended_emit {e : SinkEvent} (other : ∀ record reason, e ≠ .sessionEnded record reason)
    {record : SessionRecord} {reason : EndReason}
    (told : .sessionEnded record reason ∈ (s.emit e).sink) :
    .sessionEnded record reason ∈ s.sink := by
  rcases List.mem_append.mp told with before | now
  · exact before
  · exact absurd (List.mem_singleton.mp now).symm (other record reason)

theorem ended_addWatcher {maxWatchers n : Int} {w : Str} {record : SessionRecord}
    {reason : EndReason}
    (told : .sessionEnded record reason ∈ (s.addWatcher maxWatchers w n).2.sink) :
    .sessionEnded record reason ∈ s.sink := by
  unfold addWatcher at told
  split at told
  · exact told
  · split at told
    · exact told
    · exact ended_emit (by simp) told

theorem ended_removeWatcher {w : Str} {record : SessionRecord} {reason : EndReason}
    (told : .sessionEnded record reason ∈ (s.removeWatcher w).2.sink) :
    .sessionEnded record reason ∈ s.sink := by
  unfold removeWatcher at told
  split at told
  · exact told
  · split at told
    · exact told
    · exact ended_emit (by simp) told

theorem Consistent.known {maxWatchers : Int} (consistent : s.Consistent maxWatchers) {r : Nat}
    (active : s.Active r) : r < s.records.length := by
  obtain ⟨p, plays⟩ := mem_allSessions.mp active
  exact consistent.there plays

theorem active_of_byNum {n : Int} {r : Nat} (found : s.getSessionByNum n = some r) :
    s.Active r := by
  obtain ⟨p, -, plays⟩ := Option.bind_eq_some_iff.mp found
  exact Plays.active plays

theorem frozen_addWatcher {maxWatchers n : Int} {w : Str} {r : Nat} (gone : ¬ s.Active r) :
    (s.addWatcher maxWatchers w n).2.record r = s.record r := by
  unfold addWatcher
  split
  · rfl
  · next r' found =>
      have other : r ≠ r' := fun same => gone (same ▸ active_of_byNum found)
      split
      · rfl
      · exact record_setWatchers_of_other (s := { s with watching := s.watching.set w n }) other

theorem frozen_removeWatcher {w : Str} {r : Nat} (gone : ¬ s.Active r) :
    (s.removeWatcher w).2.record r = s.record r := by
  unfold removeWatcher
  split
  · rfl
  · split
    · rfl
    · next r' found =>
        have other : r ≠ r' := fun same => gone (same ▸ active_of_byNum found)
        exact record_setWatchers_of_other (s := { s with watching := s.watching.erase w }) other

end SessionState

section

variable {setup : Setup} {i : Item} {s : SessionState} {a : Point} {resume : Resume} {turn : Turn}

theorem Blocks.active_old (blocks : Blocks setup i s a resume turn) {r : Nat}
    (active : turn.state.Active r) (old : r < s.records.length) : s.Active r := by
  obtain ⟨p, plays⟩ := SessionState.mem_allSessions.mp active
  exact (blocks.plays_old plays old).active

/-- The record of a session that has ended stays as it is. -/
theorem Blocks.frozen (blocks : Blocks setup i s a resume turn) {r : Nat}
    (old : r < s.records.length) (gone : ¬ turn.state.Active r) :
    turn.state.record r = s.record r := by
  cases blocks with
  | watches =>
      apply SessionState.frozen_addWatcher
      simpa [SessionState.Active, SessionState.allSessions] using gone
  | unwatches =>
      apply SessionState.frozen_removeWatcher
      simpa [SessionState.Active, SessionState.allSessions] using gone
  | adds =>
      change (s.addSession _ _).2.record r = _
      rw [SessionState.record_addSession, if_neg (Nat.ne_of_lt old)]
  | ends | forces | resets | vanishes => exact SessionState.record_removeSession ..
  | _ => rfl

/-- A new record is that of an active session. -/
theorem Blocks.known (blocks : Blocks setup i s a resume turn) {r : Nat}
    (bound : r < turn.state.records.length) (gone : ¬ turn.state.Active r) :
    r < s.records.length := by
  cases blocks with
  | @adds _ _ _ name =>
      have longer : r < s.records.length + 1 := by
        simpa [SessionState.addSession, SessionState.emit] using bound
      rcases Nat.lt_succ_iff_lt_or_eq.mp longer with old | rfl
      · exact old
      · have plays : (s.addSession i.player name).2.Plays i.player s.records.length :=
          SessionState.plays_addSession.mpr (.inl ⟨rfl, rfl⟩)
        exact absurd plays.active gone
  | watches | unwatches | ends | forces | resets | vanishes => simpa using bound
  | _ => exact bound

end

namespace ZorkBot

variable {setup : Setup} {b c : ZorkBot} {r : Nat}

/-! ## What is owed -/

/-- A handler has the notice of a session in hand. -/
def Pending (b : ZorkBot) (t r : Nat) : Prop :=
  (b.handling t).isSome = true ∧ (b.point t).rest.bind Ending.record = some r

/-- How many notices of a session were queued. -/
def notices (b : ZorkBot) (r : Nat) : Nat :=
  b.fanout.accepted.countP fun j => j.coro = .notice r

/-- No notice was queued and none is in hand. -/
structure Untold (b : ZorkBot) (r : Nat) : Prop where
  none : b.notices r = 0
  free : ∀ t, ¬ b.Pending t r

/-- One handler has the notice in hand. -/
structure Owed (b : ZorkBot) (r : Nat) : Prop where
  none : b.notices r = 0
  held : ∃ t, b.Pending t r ∧ ∀ t', b.Pending t' r → t' = t

/-- One notice was queued. -/
structure Told (b : ZorkBot) (r : Nat) : Prop where
  one : b.notices r = 1
  free : ∀ t, ¬ b.Pending t r

/-- A step that does nothing about the notice of a session. -/
structure Leaves (b c : ZorkBot) (r : Nat) : Prop where
  notices : c.notices r = b.notices r
  pending : ∀ t, c.Pending t r ↔ b.Pending t r

theorem Leaves.untold (leaves : Leaves b c r) (untold : b.Untold r) : c.Untold r :=
  ⟨leaves.notices.trans untold.none, fun t now => untold.free t ((leaves.pending t).mp now)⟩

theorem Leaves.settled (leaves : Leaves b c r) (settled : b.Owed r ∨ b.Told r) :
    c.Owed r ∨ c.Told r := by
  rcases settled with owed | told
  · left
    obtain ⟨t, now, sole⟩ := owed.held
    exact ⟨leaves.notices.trans owed.none, t, (leaves.pending t).mpr now,
      fun t' now => sole t' ((leaves.pending t').mp now)⟩
  · right
    exact ⟨leaves.notices.trans told.one, fun t now => told.free t ((leaves.pending t).mp now)⟩

theorem Leaves.of_eq (gate : c.gate = b.gate) (points : c.points = b.points)
    (accepted : c.fanout.accepted = b.fanout.accepted) : Leaves b c r := by
  constructor
  · rw [ZorkBot.notices, ZorkBot.notices, accepted]
  · intro t
    simp only [Pending, handling, point, gate, points]

theorem leaves_asleep : Leaves b { b with poll := .sleeping } r := .of_eq rfl rfl rfl

theorem leaves_turnTo {t : Nat} {g : Gate} {a : Gate.Act}
    (own : a = .begin t ∨ ∃ outcome, a = .finish t outcome) (stepped : b.gate.step a = some g)
    (idle : ¬ b.Pending t r) : Leaves b (b.turnTo t g) r := by
  constructor
  · rfl
  · intro t'
    by_cases same : t' = t
    · subst same
      apply iff_of_false _ idle
      simp [Pending, point, turnTo, Point.rest]
    · simp only [Pending, handling, point, turnTo, Gate.task_of_step own stepped same,
        Table.get_set_of_ne same]

theorem pending_leave {t t' : Nat} {p : Str} {turn : Turn} :
    (b.leave t p turn).Pending t' r ↔
      if t' = t then (b.handling t).isSome = true ∧ turn.point.rest.bind Ending.record = some r
      else b.Pending t' r := by
  have same : (b.leave t p turn).handling t' = b.handling t' := rfl
  rw [Pending, point_leave, same]
  split
  · next here => rw [here]
  · rfl

/-- How many notices of a session are among the calls of `_fanout`. -/
def tells (calls : List (Int × Fan)) (r : Nat) : Nat :=
  calls.countP fun call => call.2 = .notice r

theorem notices_leave (t : Nat) (p : Str) (turn : Turn) (b : ZorkBot) (r : Nat) :
    (b.leave t p turn).notices r = b.notices r + tells turn.fanout r := by
  rw [notices, notices, accepted_leave, tells]
  generalize b.fanout.accepted = line
  generalize turn.fanout = calls
  induction calls generalizing line with
  | nil => rfl
  | cons call rest ih =>
      rw [List.foldl_cons, ih, List.countP_cons, queued, List.countP_append, List.countP_singleton]
      exact (Nat.add_right_comm _ _ _).trans (Nat.add_assoc _ _ _)

end ZorkBot

/-! ## What a block does about a notice -/

/-- A block is about to lose the notice of a watched session, or to remove one without
owing a notice. -/
def silences (s : SessionState) (i : Item) (point : Point) (resume : Resume) : Bool :=
  (resume.raises && (point.rest.bind Ending.record).any fun r =>
    decide ((s.record r).watchers ≠ ∅)) ||
  match point, resume with
  | .entered, .called _ => i.is "reset" && i.ctx.isDm && i.ctx.player.any s.watched
  | .playing _ _, .answered (.failed .notFound _) => s.watched i.player
  | _, _ => false

/-- What a block does about the notice of one session. -/
inductive Handles (s : SessionState) (a : Point) (resume : Resume) (turn : Turn) (r : Nat) : Prop
  /-- It removes the session and takes the notice in hand. -/
  | owes (active : s.Active r) (gone : ¬ turn.state.Active r)
      (held : turn.point.rest.bind Ending.record = some r)
      (silent : ZorkBot.tells turn.fanout r = 0)
  | keeps (same : turn.point.rest.bind Ending.record = some r ↔
      a.rest.bind Ending.record = some r) (silent : ZorkBot.tells turn.fanout r = 0)
  | tells (held : a.rest.bind Ending.record = some r) (free : turn.point.rest = none)
      (told : ZorkBot.tells turn.fanout r = 1)
  | loses (held : a.rest.bind Ending.record = some r) (raises : resume.raises = true)

section

variable {setup : Setup} {i : Item} {s : SessionState} {a : Point} {resume : Resume} {turn : Turn}

theorem Point.rest_idle {a : Point} (idle : a.idle = true) : a.rest = none := by
  cases a <;> first | rfl | cases idle

theorem Handles.free {b : Point} (before : a.rest = none) (after : b.rest = none) (t : SessionState)
    (r : Nat) : Handles s a resume ⟨t, b, []⟩ r :=
  .keeps (by rw [before, after]) rfl

/-- A session is removed and its notice is taken in hand. -/
theorem Handles.ends {rest : Ending} {r₀ : Nat} {t : SessionState}
    (record : rest.record = some r₀) (active : s.Active r₀) (gone : ¬ t.Active r₀) (r : Nat) :
    Handles s .entered resume ⟨t, .ending rest, []⟩ r := by
  by_cases same : r = r₀
  · subst same
    exact .owes active gone record rfl
  · refine .keeps (iff_of_false ?_ nofun) rfl
    simp only [Point.rest, Option.bind_some, record, Option.some.injEq]
    exact fun one => same one.symm

theorem Blocks.handles (blocks : Blocks setup i s a resume turn)
    (consistent : s.Consistent setup.maxWatchers) (r : Nat) : Handles s a resume turn r := by
  cases blocks with
  | quiet none idle => exact .free none (Point.rest_idle idle) _ r
  | watches _ _ idle | unwatches idle | vanishes idle | records idle =>
      exact .free rfl (Point.rest_idle idle) _ r
  | adds asked idle =>
      apply Handles.free _ (Point.rest_idle idle)
      rcases asked with rfl | rfl <;> rfl
  | advertises | starts | resets | plays | answers | continues => exact .free rfl rfl _ r
  | ends _ plays record => exact .ends record plays.active (consistent.removed plays _) r
  | forces _ _ _ found record =>
      have plays := (consistent.byNum found).1
      exact .ends record plays.active (consistent.removed plays _) r
  | handsOver last =>
      refine .keeps (iff_of_false (Option.some_ne_none r ∘ Eq.symm) ?_) rfl
      unfold Point.answered at last
      split at last
      · rintro ⟨⟩
      · cases last
  | closes => exact .keeps Iff.rfl rfl
  | @notifies rest =>
      cases held : rest.record with
      | none =>
          apply Handles.keeps
          · simp [Point.rest, held]
          · simp [Ending.notices, held, ZorkBot.tells]
      | some r' =>
          by_cases same : r' = r
          · subst same
            apply Handles.tells (a := .confirming rest) held rfl
            simp [Ending.notices, held, ZorkBot.tells]
          · apply Handles.keeps
            · simp [Point.rest, held, same]
            · simp [Ending.notices, held, ZorkBot.tells, same]
  | @escapes _ rest _ held raises =>
      by_cases same : rest.record = some r
      · exact .loses (by rw [held]; exact same) raises
      · refine .keeps (iff_of_false (Option.some_ne_none r ∘ Eq.symm) ?_) rfl
        rw [held]
        exact same

/-- A removal owes a notice, or nobody watched. -/
theorem Blocks.removal (blocks : Blocks setup i s a resume turn)
    (consistent : s.Consistent setup.maxWatchers)
    (vacant : a.adding = true → s.sessions.get i.player = none) {r : Nat} (active : s.Active r)
    (gone : ¬ turn.state.Active r) :
    turn.point.rest.bind Ending.record = some r ∨ (s.record r).watchers = ∅ ∨
      silences s i a resume = true := by
  have watched : ∀ {p}, s.Plays p r → (s.record r).watchers = ∅ ∨ s.watched p = true := by
    intro p plays
    by_cases none : (s.record r).watchers = ∅
    · exact .inl none
    · right
      rw [SessionState.watched, show s.sessions.get p = some r from plays]
      simpa using none
  cases blocks with
  | @ends p r₀ rest _ _ plays record =>
      have one := plays.unique (SessionState.plays_of_removed active gone)
      exact .inl (one ▸ record)
  | @forces r₀ rest _ _ _ _ found record =>
      have plays := (consistent.byNum found).1
      have one := plays.unique (SessionState.plays_of_removed active gone)
      exact .inl (one ▸ record)
  | resets named direct own =>
      rcases watched (SessionState.plays_of_removed active gone) with none | some
      · exact .inr (.inl none)
      · right
        right
        simp [silences, named, direct, own, some]
  | vanishes =>
      rcases watched (SessionState.plays_of_removed active gone) with none | some
      · exact .inr (.inl none)
      · right
        right
        simp [silences, some]
  | @adds _ _ _ name asked =>
      have free : s.sessions.get i.player = none := by
        apply vacant
        rcases asked with rfl | rfl <;> rfl
      obtain ⟨p, plays⟩ := SessionState.mem_allSessions.mp active
      have other : p ≠ i.player := by
        rintro rfl
        rw [SessionState.Plays, free] at plays
        cases plays
      have stays : (s.addSession i.player name).2.Plays p r :=
        SessionState.plays_addSession.mpr (.inr ⟨other, plays⟩)
      exact absurd stays.active gone
  | watches | unwatches =>
      exact absurd active (by simpa [SessionState.Active, SessionState.allSessions] using gone)
  | _ => exact absurd active gone

end

namespace ZorkBot

variable {setup : Setup} {b c : ZorkBot} {r : Nat}

/-- The next step loses a notice that is due, or will be. -/
def silent (b : ZorkBot) : Act → Bool
  | .run t resume => (b.handling t).any fun i => silences b.state i (b.point t) resume
  | _ => false

/-! ## The steps -/

section Run

variable {t : Nat} {i : Item} {resume : Resume} {turn : Turn}

theorem leaves_leave (same : turn.point.rest.bind Ending.record = some r ↔
    (b.point t).rest.bind Ending.record = some r) (none : tells turn.fanout r = 0) :
    Leaves b (b.leave t i.player turn) r := by
  constructor
  · rw [notices_leave, none]
    rfl
  · intro t'
    rw [pending_leave]
    split
    · next here => rw [here, same, Pending]
    · rfl

theorem untold_leave (sound : b.Sound setup) (there : b.handling t = some i)
    (blocks : Blocks setup i b.state (b.point t) resume turn) (untold : b.Untold r) :
    (b.leave t i.player turn).Untold r ∨
      b.state.Active r ∧ ¬ turn.state.Active r ∧ (b.leave t i.player turn).Owed r := by
  have idle : (b.point t).rest.bind Ending.record ≠ some r := by
    intro held
    exact untold.free t ⟨by simp [there], held⟩
  cases blocks.handles sound.registry r with
  | owes active gone held silent =>
      refine .inr ⟨active, gone, ?_, t, ?_, ?_⟩
      · rw [notices_leave, silent, untold.none]
      · simp [pending_leave, held, there]
      · intro t' now
        rw [pending_leave] at now
        split at now
        · assumption
        · exact absurd now (untold.free t')
  | keeps same silent => exact .inl ((leaves_leave same silent).untold untold)
  | tells held => exact absurd held idle
  | loses held => exact absurd held idle

theorem settled_leave (sound : b.Sound setup) (there : b.handling t = some i)
    (blocks : Blocks setup i b.state (b.point t) resume turn) (gone : ¬ b.state.Active r)
    (watched : (b.state.record r).watchers ≠ ∅) (spoken : b.silent (.run t resume) = false)
    (settled : b.Owed r ∨ b.Told r) :
    (b.leave t i.player turn).Owed r ∨ (b.leave t i.player turn).Told r := by
  have sole : (b.point t).rest.bind Ending.record = some r → b.Owed r ∧ b.Pending t r := by
    intro held
    have now : b.Pending t r := ⟨by simp [there], held⟩
    rcases settled with owed | told
    · exact ⟨owed, now⟩
    · exact absurd now (told.free t)
  cases blocks.handles sound.registry r with
  | owes active => exact absurd active gone
  | keeps same silent => exact (leaves_leave same silent).settled settled
  | tells held free told =>
      obtain ⟨owed, now⟩ := sole held
      obtain ⟨t₀, -, one⟩ := owed.held
      refine .inr ⟨?_, ?_⟩
      · rw [notices_leave, told, owed.none]
      · intro t' now'
        rw [pending_leave] at now'
        split at now'
        · rw [free] at now'
          cases now'.2
        · next other => exact other ((one t' now').trans (one t now).symm)
  | loses held raises =>
      simp [silent, silences, there, held, raises, watched] at spoken

end Run

/-- The notice of a session is queued, and it is not in anybody's hand. -/
theorem told_dropOne (untold : b.Untold r) : (b.dropOne r).Told r := by
  constructor
  · rw [notices, dropOne, Fanout.accepted_fanout, List.countP_append, ← notices, untold.none]
    simp
  · exact untold.free

theorem leaves_dropOne {r₀ : Nat} (other : r ≠ r₀) : Leaves b (b.dropOne r₀) r := by
  constructor
  · rw [notices, notices, dropOne, Fanout.accepted_fanout, List.countP_append]
    simp [Ne.symm other]
  · exact fun _ => Iff.rfl

/-- The steps that are none of a handler and no reconciliation. -/
theorem leaves_step {a : Act} (run : ∀ t resume, a ≠ .run t resume) (poll : a ≠ .reconcile)
    (taken : b.step setup a = some c) : c.state = b.state ∧ Leaves b c r := by
  cases zorkbot_steps taken with
  | runs => exact absurd rfl (run _ _)
  | reconciles => exact absurd rfl poll
  | arrives =>
      refine ⟨rfl, rfl, fun t => ?_⟩
      simp only [Pending, Option.isSome_iff_exists, handling_iff, Gate.task_enqueue]
      exact Iff.rfl
  | begins stepped =>
      refine ⟨rfl, leaves_turnTo (.inl rfl) stepped ?_⟩
      rintro ⟨busy, -⟩
      obtain ⟨i, there⟩ := Option.isSome_iff_exists.mp busy
      obtain ⟨p, handling⟩ := handling_iff.mp there
      obtain ⟨q, created⟩ := Gate.created_of_begin stepped
      rw [created] at handling
      cases handling
  | finishes past stepped =>
      refine ⟨rfl, leaves_turnTo (.inr ⟨_, rfl⟩) stepped ?_⟩
      rintro ⟨-, held⟩
      rw [past] at held
      cases held
  | opens stepped onto | closes _ stepped onto =>
      obtain ⟨letters, rfl⟩ := fanTo_eq onto
      exact ⟨rfl, .of_eq rfl rfl (Fanout.accepted_of_step (by simp) stepped)⟩
  | settles stepped => exact ⟨rfl, .of_eq rfl rfl (Fanout.accepted_of_step (by simp) stepped)⟩
  | _ => exact ⟨rfl, .of_eq rfl rfl rfl⟩

/-! ## The invariant -/

/-- A record that is not there yet is nobody's concern. -/
theorem untold_fresh {guard : ZorkBot → Act → Prop} (reached : (zorkbot setup).Reachable guard b)
    (fresh : b.state.records.length ≤ r) : b.Untold r := by
  constructor
  · rw [notices, List.countP_eq_zero]
    intro j listed is
    rw [decide_eq_true_eq] at is
    have known := (accepted_is reached j listed).1
    rw [is] at known
    exact absurd known (Nat.not_lt_of_le fresh)
  · rintro t ⟨busy, held⟩
    obtain ⟨i, there⟩ := Option.isSome_iff_exists.mp busy
    exact absurd (filed_rest (filed reached t i there) held) (Nat.not_lt_of_le fresh)

/-- Nobody has told of the end of an active session. -/
def Discreet (b : ZorkBot) : Prop := ∀ r, b.state.Active r → b.Untold r

/-- The end of every watched session has been told, or somebody is about to. -/
def Telling (b : ZorkBot) : Prop :=
  ∀ r, r < b.state.records.length → ¬ b.state.Active r → (b.state.record r).watchers ≠ ∅ →
    b.Owed r ∨ b.Told r

theorem Discreet.dropOne (discreet : b.Discreet) (consistent : b.state.Consistent setup.maxWatchers)
    {r₀ : Nat} (plays : b.state.Plays (b.state.record r₀).playerId r₀) :
    (b.dropOne r₀).Discreet := by
  intro r active
  have other : r ≠ r₀ := fun same => consistent.removed plays _ (same ▸ active)
  exact (leaves_dropOne other).untold (discreet r (SessionState.active_removeSession active))

theorem Telling.dropOne (telling : b.Telling) (discreet : b.Discreet)
    {r₀ : Nat} (plays : b.state.Plays (b.state.record r₀).playerId r₀) :
    (b.dropOne r₀).Telling := by
  intro r bound gone watched
  have frozen : (b.dropOne r₀).state.record r = b.state.record r :=
    SessionState.record_removeSession ..
  have known : r < b.state.records.length := by
    simpa [ZorkBot.dropOne] using bound
  by_cases same : r = r₀
  · subst same
    exact .inr (told_dropOne (discreet r plays.active))
  · apply (leaves_dropOne same).settled
    apply telling r known _ (frozen ▸ watched)
    intro active
    have before := SessionState.plays_of_removed active gone
    exact same (before.unique plays)

theorem discreet_step (reached : (zorkbot setup).Reachable (fun _ _ => True) b)
    (discreet : b.Discreet) {a : Act} (taken : b.step setup a = some c) : c.Discreet := by
  have sound := sound reached
  cases a with
  | run t resume =>
      cases zorkbot_steps taken with
      | runs there blocks =>
          intro r active
          have before : b.Untold r := by
            by_cases known : r < b.state.records.length
            · exact discreet r (blocks.active_old active known)
            · exact untold_fresh reached (Nat.le_of_not_lt known)
          rcases untold_leave sound there blocks before with untold | ⟨-, gone, -⟩
          · exact untold
          · exact absurd active gone
  | reconcile =>
      cases zorkbot_steps taken with
      | reconciles =>
          apply reconcile_rule (motive := Discreet) _ sound.registry
          · exact fun r active => leaves_asleep.untold (discreet r active)
          · exact fun b r consistent discreet plays => discreet.dropOne consistent plays
  | _ =>
      intro r active
      obtain ⟨state, leaves⟩ := leaves_step (r := r) (by simp) (by simp) taken
      exact leaves.untold (discreet r (state ▸ active))

theorem discreet {guard : ZorkBot → Act → Prop} (reached : (zorkbot setup).Reachable guard b) :
    b.Discreet := by
  have anyhow : (zorkbot setup).Reachable (fun _ _ => True) b := reached.mono fun _ _ _ => trivial
  apply anyhow.invariant (motive := Discreet)
  · rintro r active
    cases active
  · intro b a c prior discreet _ taken
    exact discreet_step prior discreet taken

theorem telling_step (reached : (zorkbot setup).Reachable (fun _ _ => True) b)
    (telling : b.Telling) {a : Act} (spoken : b.silent a = false)
    (taken : b.step setup a = some c) : c.Telling := by
  have sound := sound reached
  have discreet := discreet reached
  cases a with
  | run t resume =>
      cases zorkbot_steps taken with
      | @runs _ i _ turn there blocks =>
          intro r bound gone watched
          have known : r < b.state.records.length := blocks.known bound gone
          have frozen : turn.state.record r = b.state.record r := blocks.frozen known gone
          change (turn.state.record r).watchers ≠ ∅ at watched
          rw [frozen] at watched
          by_cases active : b.state.Active r
          · -- the block removes the session
            rcases untold_leave sound there blocks (discreet r active) with untold | ⟨-, -, owed⟩
            · exfalso
              rcases blocks.removal sound.registry (sound.vacant t i there) active gone with
                held | none | silences
              · refine untold.free t (pending_leave.mpr ?_)
                simp [there, held]
              · exact watched none
              · simp [silent, there, silences] at spoken
            · exact .inl owed
          · exact settled_leave sound there blocks active watched spoken (telling r known active watched)
  | reconcile =>
      cases zorkbot_steps taken with
      | reconciles =>
          refine (reconcile_rule (motive := fun b => b.Discreet ∧ b.Telling) ?_ sound.registry ?_).2
          · rintro b r consistent ⟨discreet, telling⟩ plays
            exact ⟨discreet.dropOne consistent plays, telling.dropOne discreet plays⟩
          · refine ⟨fun r active => leaves_asleep.untold (discreet r active), ?_⟩
            intro r known gone watched
            exact leaves_asleep.settled (telling r known gone watched)
  | _ =>
      intro r bound gone watched
      obtain ⟨state, leaves⟩ := leaves_step (r := r) (by simp) (by simp) taken
      rw [state] at bound gone watched
      exact leaves.settled (telling r bound gone watched)

theorem telling (reached : (zorkbot setup).Reachable (fun b a => b.silent a = false) b) :
    b.Telling := by
  apply reached.invariant (motive := Telling)
  · rintro r bound
    exact absurd bound (Nat.not_lt_zero r)
  · intro b a c prior telling spoken taken
    exact telling_step (prior.mono fun _ _ _ => trivial) telling spoken taken

/-! ## What the sink was told -/

/-- The sink got the records of ended sessions as they stay. -/
def Archived (s : SessionState) : Prop :=
  ∀ record reason, SinkEvent.sessionEnded record reason ∈ s.sink →
    ∃ r, r < s.records.length ∧ ¬ s.Active r ∧ s.record r = record

/-- An operation after which the sink has heard of ends that it had heard of, or of the
end of a session that was active. -/
theorem Archived.carry {s t : SessionState} (archived : Archived s)
    (length : s.records.length ≤ t.records.length)
    (old : ∀ {r}, t.Active r → r < s.records.length → s.Active r)
    (frozen : ∀ {r}, r < s.records.length → ¬ t.Active r → t.record r = s.record r)
    (ended : ∀ {record reason}, SinkEvent.sessionEnded record reason ∈ t.sink →
      SinkEvent.sessionEnded record reason ∈ s.sink ∨
        ∃ r, r < s.records.length ∧ ¬ t.Active r ∧ s.record r = record) : Archived t := by
  intro record reason told
  have one : ∃ r, r < s.records.length ∧ ¬ t.Active r ∧ s.record r = record := by
    rcases ended told with before | now
    · obtain ⟨r, known, gone, same⟩ := archived record reason before
      exact ⟨r, known, fun active => gone (old active known), same⟩
    · exact now
  obtain ⟨r, known, gone, rfl⟩ := one
  exact ⟨r, Nat.lt_of_lt_of_le known length, gone, frozen known gone⟩

theorem ended_removeSession {s : SessionState} (consistent : s.Consistent setup.maxWatchers)
    {p : Str} {by_ : EndReason} {record : SessionRecord} {reason : EndReason}
    (told : SinkEvent.sessionEnded record reason ∈ (s.removeSession p by_).2.sink) :
    SinkEvent.sessionEnded record reason ∈ s.sink ∨
      ∃ r, r < s.records.length ∧ ¬ (s.removeSession p by_).2.Active r ∧ s.record r = record := by
  cases has : s.sessions.get p with
  | none =>
      simp only [SessionState.removeSession, has] at told
      exact .inl told
  | some r =>
      have plays : s.Plays p r := has
      simp only [SessionState.removeSession, has] at told
      rcases List.mem_append.mp told with before | now
      · exact .inl before
      · right
        simp only [List.mem_singleton, SinkEvent.sessionEnded.injEq] at now
        exact ⟨r, consistent.there plays, consistent.removed plays _, now.1.symm⟩

theorem Archived.removeSession {s : SessionState} (archived : Archived s)
    (consistent : s.Consistent setup.maxWatchers) (p : Str) (reason : EndReason) :
    Archived (s.removeSession p reason).2 := by
  apply archived.carry
  · simp
  · exact fun active _ => SessionState.active_removeSession active
  · exact fun _ _ => SessionState.record_removeSession ..
  · exact ended_removeSession consistent

theorem Archived.own {i : Item} {s : SessionState} {a : Point} {resume : Resume} {turn : Turn}
    (archived : Archived s) (consistent : s.Consistent setup.maxWatchers)
    (blocks : Blocks setup i s a resume turn) : Archived turn.state := by
  apply archived.carry blocks.records_grow blocks.active_old blocks.frozen
  intro record reason told
  cases blocks with
  | ends | forces | resets | vanishes => exact ended_removeSession consistent told
  | watches => exact .inl (SessionState.ended_addWatcher told)
  | unwatches => exact .inl (SessionState.ended_removeWatcher told)
  | adds | records | answers => exact .inl (SessionState.ended_emit (by simp) told)
  | _ => exact .inl told

theorem archived {guard : ZorkBot → Act → Prop} (reached : (zorkbot setup).Reachable guard b) :
    Archived b.state := by
  apply reached.invariant (motive := fun b => Archived b.state)
  · intro record reason told
    cases told
  · intro b a c prior archived _ taken
    have sound := sound prior
    apply queue_step (motive := fun s _ => Archived s) sound archived _ _ taken
    · rintro t i resume turn - there blocks
      exact archived.own sound.registry blocks
    · intro s line r consistent archived _
      exact archived.removeSession consistent _ _

/-! ## Watchers are told -/

/-- In a run without a silent removal every session that was ended while it had watchers
has one notice for just these watchers: it is in the session's queue, or one handler has
it in hand. -/
theorem watchers_told (reached : (zorkbot setup).Reachable (fun b a => b.silent a = false) b)
    {record : SessionRecord} {reason : EndReason}
    (removed : .sessionEnded record reason ∈ b.state.sink) (watched : record.watchers ≠ ∅) :
    ∃ r, b.state.record r = record ∧ (b.Owed r ∨ b.Told r) ∧
      ∀ j ∈ b.fanout.accepted, j.coro = .notice r → j.session = record.num := by
  obtain ⟨r, known, gone, rfl⟩ := archived reached record reason removed
  refine ⟨r, rfl, telling reached r known gone watched, ?_⟩
  intro j listed is
  have filed := accepted_is reached j listed
  rw [is] at filed
  exact filed.2.symm

/-- Bob watches Alice's session, and she ends it. -/
def aliceEnds : List Act :=
  bobWatches ++ sends alice "end" "" 2 ++ [Act.run 2 granted, .run 2 (.sent .delivered)]

theorem watchers_told_ended :
    ∃ b : ZorkBot, ∃ record reason, .sessionEnded record reason ∈ b.state.sink ∧
      record.watchers = {bob} ∧ ∃ r, b.state.record r = record ∧ (b.Owed r ∨ b.Told r) ∧
        ∀ j ∈ b.fanout.accepted, j.coro = .notice r → j.session = record.num := by
  obtain ⟨b, reached, removed, watched⟩ := System.reaches (zorkbot (small 2))
    (fun b a => b.silent a = false)
    (fun b => .sessionEnded (b.state.record 0) .playerEnd ∈ b.state.sink ∧
      (b.state.record 0).watchers = {bob}) aliceEnds (fun _ _ _ => trivial) (by decide)
  refine ⟨b, b.state.record 0, .playerEnd, removed, watched, ?_⟩
  apply watchers_told (reached.mono fun _ _ both => both.1) removed
  rw [watched]
  decide

/-! ## A session that nobody is told about -/

/-- The session has ended, and nobody has its notice in hand. -/
structure Forgotten (b : ZorkBot) (r : Nat) : Prop where
  known : r < b.state.records.length
  gone : ¬ b.state.Active r
  untold : b.Untold r

theorem forgotten_step (reached : (zorkbot setup).Reachable (fun _ _ => True) b)
    (forgotten : b.Forgotten r) {a : Act} (taken : b.step setup a = some c) :
    c.Forgotten r ∧ c.state.record r = b.state.record r := by
  have sound := sound reached
  cases a with
  | run t resume =>
      cases zorkbot_steps taken with
      | @runs _ i _ turn there blocks =>
          have gone : ¬ turn.state.Active r :=
            fun active => forgotten.gone (blocks.active_old active forgotten.known)
          refine ⟨⟨Nat.lt_of_lt_of_le forgotten.known blocks.records_grow, gone, ?_⟩,
            blocks.frozen forgotten.known gone⟩
          rcases untold_leave sound there blocks forgotten.untold with untold | ⟨active, -, -⟩
          · exact untold
          · exact absurd active forgotten.gone
  | reconcile =>
      cases zorkbot_steps taken with
      | reconciles =>
          apply reconcile_rule
            (motive := fun c => c.Forgotten r ∧ c.state.record r = b.state.record r) _ sound.registry
          · exact ⟨⟨forgotten.known, forgotten.gone, leaves_asleep.untold forgotten.untold⟩, rfl⟩
          · rintro d r' consistent ⟨forgotten, same⟩ plays
            have other : r ≠ r' := by
              rintro rfl
              exact forgotten.gone plays.active
            refine ⟨⟨?_, fun active => forgotten.gone (SessionState.active_removeSession active),
              (leaves_dropOne other).untold forgotten.untold⟩, ?_⟩
            · simpa [dropOne] using forgotten.known
            · rw [← same]
              exact SessionState.record_removeSession ..
  | _ =>
      obtain ⟨state, leaves⟩ := leaves_step (r := r) (by simp) (by simp) taken
      refine ⟨⟨?_, ?_, leaves.untold forgotten.untold⟩, ?_⟩
      · rw [state]
        exact forgotten.known
      · rw [state]
        exact forgotten.gone
      · rw [state]

/-- Nobody is ever told. -/
theorem Forgotten.forever (reached : (zorkbot setup).Reachable (fun _ _ => True) b)
    (forgotten : b.Forgotten r) (path : (zorkbot setup).Path (fun _ _ => True) b c) :
    c.notices r = 0 ∧ c.state.record r = b.state.record r := by
  have both : (zorkbot setup).Reachable (fun _ _ => True) c ∧ c.Forgotten r ∧
      c.state.record r = b.state.record r := by
    apply path.stable (motive := fun c => (zorkbot setup).Reachable (fun _ _ => True) c ∧
      c.Forgotten r ∧ c.state.record r = b.state.record r)
    · rintro c a d ⟨reached, forgotten, same⟩ - taken
      obtain ⟨after, still⟩ := forgotten_step reached forgotten taken
      exact ⟨reached.step trivial taken, after, still.trans same⟩
    · exact ⟨reached, forgotten, rfl⟩
  exact ⟨both.2.1.untold.none, both.2.2⟩

/-- Bob watches Alice's session when she asks for a new one: he is never told. -/
theorem watcher_not_told_of_reset :
    ∃ b, (zorkbot (small 2)).Reachable (fun _ _ => True) b ∧
      .sessionEnded (b.state.record 0) .reset ∈ b.state.sink ∧
      (b.state.record 0).watchers = {bob} ∧
      ∀ c, (zorkbot (small 2)).Path (fun _ _ => True) b c → c.notices 0 = 0 := by
  obtain ⟨b, reached, removed, watched, known, gone, none, held⟩ := System.reaches
    (zorkbot (small 2)) (fun _ _ => True)
    (fun b => .sessionEnded (b.state.record 0) .reset ∈ b.state.sink ∧
      (b.state.record 0).watchers = {bob} ∧ 0 < b.state.records.length ∧
      0 ∉ b.state.allSessions ∧ b.notices 0 = 0 ∧
      ∀ row ∈ b.points.rows, (row.2.rest.bind Ending.record) = Option.none)
    (bobWatches ++ sends alice "reset" "" 2) (fun _ _ _ => trivial) (by decide)
  have started := reached.mono fun _ _ _ => trivial
  refine ⟨b, started, removed, watched, fun c path => ?_⟩
  have untold : b.Untold 0 := by
    refine ⟨none, ?_⟩
    rintro t ⟨-, pending⟩
    cases there : b.points.get t with
    | none =>
        simp [point, there, Point.rest] at pending
    | some v =>
        have listed := held ⟨t, v⟩ (Table.mem_rows_iff.mpr there)
        simp [point, there, listed] at pending
  exact (Forgotten.forever started ⟨known, gone, untold⟩ path).1

end ZorkBot

end Zorkbot.Bot
