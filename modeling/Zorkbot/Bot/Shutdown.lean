/-
# Shutdown

`stop` closes every session before it cancels the tasks, so that nothing reads as still active
afterwards. It runs up to the cancellations without waiting, and a cancelled handler does not touch
the registry any more. The coroutines that nobody has begun to await are closed in the end.
-/

import Zorkbot.Bot.Draining
import Zorkbot.Bot.Journal

namespace Zorkbot.Bot

open Transition

namespace SessionState

variable {s : SessionState} {maxWatchers : Int}

/-- The first loop of `stop`. -/
def closeAll (s : SessionState) : SessionState :=
  s.allSessions.foldl (fun t r => (t.removeSession (t.record r).playerId .shutdown).2) s

/-- What every move of a consistent registry keeps, `stop` keeps. -/
theorem closeAll_rule {motive : SessionState → Prop} (consistent : s.Consistent maxWatchers)
    (moved : ∀ s t : SessionState, s.Consistent maxWatchers → t.Consistent maxWatchers →
      s.Moves t → motive s → motive t) (holds : motive s) : motive s.closeAll := by
  unfold closeAll
  generalize s.allSessions = line
  induction line generalizing s with
  | nil => exact holds
  | cons r rest ih =>
      have after := consistent.removeSession (s.record r).playerId .shutdown
      exact ih after (moved _ _ consistent after (moves_removeSession _ _ s) holds)

@[simp]
theorem nextNum_removeSession (p : Str) (reason : EndReason) (s : SessionState) :
    (s.removeSession p reason).2.nextNum = s.nextNum := by
  unfold removeSession
  split <;> rfl

theorem nextNum_closeAll (s : SessionState) : s.closeAll.nextNum = s.nextNum := by
  unfold closeAll
  generalize s.allSessions = line
  induction line generalizing s with
  | nil => rfl
  | cons r rest ih => rw [List.foldl_cons, ih, nextNum_removeSession]

theorem closed_foldl (line : List Nat) (distinct : line.Nodup) (s : SessionState)
    (consistent : s.Consistent maxWatchers) (active : ∀ r ∈ line, s.Plays (s.record r).playerId r)
    {t : SessionState}
    (closed : line.foldl (fun t r => (t.removeSession (t.record r).playerId .shutdown).2) s = t) :
    t.Consistent maxWatchers ∧ (∀ p r, t.Plays p r ↔ s.Plays p r ∧ r ∉ line) ∧
      t.sink = s.sink ++ line.map fun r => .sessionEnded (s.record r) .shutdown := by
  induction line generalizing s with
  | nil =>
      subst closed
      simp [consistent]
  | cons r rest ih =>
      obtain ⟨fresh, distinct⟩ := List.nodup_cons.mp distinct
      obtain ⟨first, others⟩ := List.forall_mem_cons.mp active
      rw [List.foldl_cons] at closed
      generalize after : (s.removeSession (s.record r).playerId .shutdown).2 = u at closed
      have record : ∀ r', u.record r' = s.record r' := by
        intro r'
        rw [← after, record_removeSession]
      have plays : ∀ q r', u.Plays q r' ↔ q ≠ (s.record r).playerId ∧ s.Plays q r' := by
        intro q r'
        rw [← after, plays_removeSession]
      have still : ∀ r' ∈ rest, u.Plays (u.record r').playerId r' := by
        intro r' among
        rw [record, plays]
        refine ⟨?_, others r' among⟩
        intro same
        exact fresh ((same ▸ others r' among).unique first ▸ among)
      have consistent' : u.Consistent maxWatchers := after ▸ consistent.removeSession _ _
      have sink : u.sink = s.sink ++ [.sessionEnded (s.record r) .shutdown] := by
        rw [← after, removeSession, show s.sessions.get (s.record r).playerId = some r from first]
        rfl
      obtain ⟨kept, left, told⟩ := ih distinct u consistent' still closed
      refine ⟨kept, ?_, ?_⟩
      · intro q r'
        rw [left, plays, List.mem_cons]
        constructor
        · rintro ⟨⟨other, plays'⟩, out⟩
          refine ⟨plays', ?_⟩
          rintro (rfl | listed)
          · exact other (consistent.owner plays').symm
          · exact out listed
        · rintro ⟨plays', out⟩
          refine ⟨⟨?_, plays'⟩, fun listed => out (.inr listed)⟩
          rintro rfl
          exact out (.inl (plays'.unique first))
      · simp only [told, sink, record, List.map_cons, List.append_assoc, List.singleton_append]

/-- A closed registry: nobody plays, nobody watches, and the sink was told of each session that was
active that it ended. -/
structure Closed (s t : SessionState) : Prop where
  idle : ∀ p, t.activeState p = .none
  told : t.sink = s.sink ++ s.allSessions.map fun r => .sessionEnded (s.record r) .shutdown
  vacated : ∀ n, t.getSessionByNum n = none

theorem Consistent.closed (consistent : s.Consistent maxWatchers)
    (distinct : s.allSessions.Nodup) : s.Closed s.closeAll ∧ s.closeAll.Consistent maxWatchers := by
  have active : ∀ r ∈ s.allSessions, s.Plays (s.record r).playerId r := by
    intro r listed
    obtain ⟨p, plays⟩ := mem_allSessions.mp listed
    exact (consistent.owner plays).symm ▸ plays
  obtain ⟨kept, left, told⟩ := closed_foldl s.allSessions distinct s consistent active rfl
  change s.closeAll.Consistent maxWatchers at kept
  have nobody : ∀ p r, ¬ s.closeAll.Plays p r := by
    intro p r plays
    obtain ⟨before, unlisted⟩ := (left p r).mp plays
    exact unlisted (mem_allSessions.mpr ⟨p, before⟩)
  have numbers : ∀ n, s.closeAll.numToPlayer.get n = none := by
    intro n
    rw [Option.eq_none_iff_forall_ne_some]
    intro p known
    obtain ⟨r, plays, -⟩ := kept.back known
    exact nobody p r plays
  refine ⟨⟨?_, told, ?_⟩, kept⟩
  · intro p
    have vacant : s.closeAll.sessions.get p = none := by
      rw [Option.eq_none_iff_forall_ne_some]
      exact nobody p
    have unoccupied : s.closeAll.watching.get p = none := by
      rw [Option.eq_none_iff_forall_ne_some]
      intro n watches
      obtain ⟨q, known⟩ := kept.valid watches
      rw [numbers] at known
      cases known
    rw [activeState, vacant, unoccupied]
    rfl
  · intro n
    rw [getSessionByNum, numbers]
    rfl

end SessionState

namespace ZorkBot

variable {setup : Setup} {b : ZorkBot}

/-- What `stop` does with what it finds. -/
structure Stopped where
  state : SessionState
  /-- The commands whose handlers are cancelled, by player. -/
  interrupted : Str → Option Item
  /-- The commands that stay in the queues. -/
  unhandled : Str → List Item
  /-- The coroutines that are cancelled while they are awaited, by session, -/
  cancelled : Int → Option (Job Fan)
  /-- and those that are closed. -/
  closed : Int → List (Job Fan)

/-- `stop`, when no more messages come in. -/
def stop (b : ZorkBot) : Stopped where
  state := b.state.closeAll
  interrupted := fun p => (b.gate.worker p).bind Worker.item
  unhandled := b.gate.queue
  cancelled := fun k => (b.fanout.worker k).bind Consumer.job
  closed := fun k => ((b.fanout.queues.get k).map b.fanout.contents).getD []

/-- Nothing is left at work. Each command was handled, interrupted or left in its queue, and each
coroutine was awaited to its end, cancelled or closed, all in the order in which they came. -/
structure Settles (b : ZorkBot) (after : Stopped) : Prop where
  registry : b.state.Closed after.state
  journal : ∃ journal, Journal.read after.state.sink = some journal ∧
    ∀ n, journal n = if 1 ≤ n ∧ n < b.state.nextNum then .ended else .unheard
  handlers : ∀ t i, b.handling t = some i → after.interrupted i.player = some i
  awaited : ∀ n k q j, b.fanout.workers.task n = some (k, .running q j) →
    after.cancelled k = some j
  commands : ∀ p, b.gate.acceptedOf p =
    b.gate.handledOf p ++ (after.interrupted p).toList ++ after.unhandled p
  fanout : ∀ k, b.fanout.acceptedOf k =
    b.fanout.finishedOf k ++ (after.cancelled k).toList ++ after.closed k

/-- What `stop` leaves of the registry. -/
theorem stop_registry {guard : ZorkBot → Act → Prop} (reached : (zorkbot setup).Reachable guard b) :
    b.state.Closed b.stop.state ∧ b.stop.state.Consistent setup.maxWatchers ∧
      b.stop.state.Numbered ∧ Journal.read b.stop.state.sink = some b.stop.state.known := by
  have consistent := (sound reached).registry
  obtain ⟨closed, kept⟩ := consistent.closed (nodup_allSessions consistent)
  refine ⟨closed, kept, ?_, ?_⟩
  · apply SessionState.closeAll_rule (motive := SessionState.Numbered) consistent
    · exact fun _ _ _ _ moves numbered => numbered.move moves
    · exact numbered reached
  · apply SessionState.closeAll_rule (motive := fun s => Journal.read s.sink = some s.known)
      consistent read_moves
    exact read_sink reached

/-- However the bot is stopped, no session reads as active afterwards, and nobody is at work on
anything that `stop` does not know of. -/
theorem stop_settles (reached : (zorkbot setup).Reachable (fun _ _ => True) b) :
    b.Settles b.stop := by
  have sound := sound reached
  obtain ⟨closed, -, numbered, read⟩ := stop_registry reached
  constructor
  · exact closed
  · refine ⟨_, read, fun n => ?_⟩
    have used := numbered.used n
    have next : b.stop.state.nextNum = b.state.nextNum := b.state.nextNum_closeAll
    rw [next] at used
    rw [SessionState.known_idle (closed.vacated n)]
    exact if_congr used rfl rfl
  · intro t i there
    obtain ⟨p, at_⟩ := handling_iff.mp there
    have now : b.gate.worker p = some (.handling i) := sound.gate.staffed.current at_ (by simp)
    change (b.gate.worker i.player).bind Worker.item = some i
    rw [sound.gate.own at_, now]
    rfl
  · intro n k q j there
    exact (Fanout.sound (fanReached reached)).inHand there rfl
  · exact Gate.acceptedOf_eq (gateReached reached)
  · intro k
    rw [Fanout.acceptedOf_eq (fanReached reached) k]
    congr 1
    change _ = ((b.fanout.queues.get k).map b.fanout.contents).getD []
    unfold Fanout.waiting
    cases b.fanout.queues.get k <;> rfl

/-- Alice is playing and the answer to her command waits for Bob. -/
theorem stop_settles_hurried :
    ∃ b : ZorkBot, b.state.allSessions.length = 1 ∧ (b.fanout.waiting 1).length = 1 ∧
      b.Settles b.stop := by
  obtain ⟨b, reached, playing, waits⟩ := System.reaches (zorkbot (small 2)) (fun _ _ => True)
    (fun b => b.state.allSessions.length = 1 ∧ (b.fanout.waiting 1).length = 1) aliceHurries
    (fun _ _ _ => trivial) (by decide)
  exact ⟨b, playing, waits, stop_settles (reached.mono fun _ _ _ => trivial)⟩

end ZorkBot

end Zorkbot.Bot
