/-
# The bot comes to rest

`drain` waits for the queues of commands and of coroutines. When no more messages come in and the
poller sleeps it returns, and here is what it finds then.
-/

import Zorkbot.Bot.Acceptance
import Zorkbot.Bot.Filing
import Zorkbot.Bot.Work
import Zorkbot.Transition.Inevitable

namespace Zorkbot.Bot

open Transition

namespace ZorkBot

variable {setup : Setup} {b c : ZorkBot}

theorem ready_step {a : Act} (sound : b.gate.Sound) (ready : b.Holds fun _ point _ => point.Ready)
    (taken : b.step setup a = some c) : c.Holds fun _ point _ => point.Ready := by
  cases a with
  | run t resume =>
      simp only [step] at taken
      split at taken
      · next i there =>
          obtain ⟨turn, blocked, rfl⟩ := Option.map_eq_some_iff.mp taken
          exact holds_leave sound ready there (onward_of_block blocked).ready fun _ _ _ => id
      · cases taken
  | _ =>
      apply holds_step sound ready (fun _ _ => trivial) _ (fun _ _ _ _ _ _ _ _ => id)
        (fun _ _ _ _ => id) taken
      intro t i resume turn is
      cases is

theorem ready {guard : ZorkBot → Act → Prop} (reached : (zorkbot setup).Reachable guard b) :
    b.Holds fun _ point _ => point.Ready := by
  apply reached.invariant (motive := fun b => b.Holds fun _ point _ => point.Ready)
  · exact holds_init
  · intro b a c reached ready _ taken
    exact ready_step (sound reached).gate ready taken

/-- Nobody has anything to do. -/
structure Resting (b : ZorkBot) : Prop where
  queues : ∀ p, b.gate.queue p = []
  workers : ∀ t p w, b.gate.workers.task t = some (p, w) → w = .done
  waiting : ∀ k, b.fanout.waiting k = []
  consumers : ∀ n k w, b.fanout.workers.task n = some (k, w) → w = .settled

/-- A coroutine that is awaited finds whom it has to send to. -/
theorem exists_fanTo (n : Nat) (f : Fanout Fan) (b : ZorkBot) :
    ∃ order c, b.fanTo n order f = some c := by
  unfold fanTo unpack
  split
  · next k q j there =>
      refine ⟨(b.state.record j.coro.record).watchers.toList, _, if_pos ⟨?_, ?_⟩⟩
      · exact Finset.nodup_toList _
      · exact Finset.toList_toFinset _
  · exact ⟨[], _, rfl⟩

theorem worker_moves (ready : b.Holds fun _ point _ => point.Ready) {t : Nat} {p : Str} {w : Worker}
    (there : b.gate.workers.task t = some (p, w)) (live : w ≠ .done) :
    ∃ a c, Act.working a = true ∧ b.step setup a = some c := by
  cases w with
  | created => exact ⟨.begin t, b.turnTo t (b.gate.turn t p), rfl, by simp [step, Gate.step, there]⟩
  | handling i =>
      have handles : b.handling t = some i := handling_iff.mpr ⟨p, there⟩
      have goesOn : (∃ outcome, b.point t = .past outcome) ∨
          ∃ resume turn, block setup i b.state (b.point t) resume = some turn :=
        exists_block (ready t i handles)
      rcases goesOn with ⟨outcome, past⟩ | ⟨resume, turn, blocked⟩
      · exact ⟨.finish t, b.turnTo t ((b.gate.ended i).turn t p), rfl,
          by simp [step, past, Gate.step, there]⟩
      · exact ⟨.run t resume, b.leave t i.player turn, rfl, by simp [step, handles, blocked]⟩
  | done => exact absurd rfl live

theorem consumer_moves {n : Nat} {k : Int} {w : Consumer Fan}
    (there : b.fanout.workers.task n = some (k, w)) (unsettled : w ≠ .settled) :
    ∃ a c, Act.working a = true ∧ b.step setup a = some c := by
  cases w with
  | created =>
      obtain ⟨f, stepped⟩ : ∃ f, b.fanout.step (.begin n) = some f := by
        simp only [Fanout.step, there]
        split <;> exact ⟨_, rfl⟩
      obtain ⟨order, c, onto⟩ := exists_fanTo n f b
      exact ⟨.open_ n order, c, rfl, by simp [step, stepped, onto]⟩
  | running q j =>
      cases left : b.unsent n with
      | nil =>
          have stepped : b.fanout.step (.finish n .returned) = some ((b.fanout.ended j).turn n q) := by
            simp only [Fanout.step, there]
          obtain ⟨order, c, onto⟩ := exists_fanTo n ((b.fanout.ended j).turn n q) b
          exact ⟨.close n .returned order, c, rfl, by simp [step, left, stepped, onto]⟩
      | cons letter rest => exact ⟨.deliver n false, by simp [step, there, left, Act.working]⟩
  | done => exact ⟨.settle n, by simp [step, Fanout.step, there, Act.working]⟩
  | settled => exact absurd rfl unsettled

/-- As long as there is something to do somebody can do something. -/
theorem resting_or_moves (gate : b.gate.Sound) (fanout : b.fanout.Sound)
    (ready : b.Holds fun _ point _ => point.Ready) :
    b.Resting ∨ ∃ a c, Act.working a = true ∧ b.step setup a = some c := by
  by_cases moves : ∃ a c, Act.working a = true ∧ b.step setup a = some c
  · exact .inr moves
  · have workers : ∀ t p w, b.gate.workers.task t = some (p, w) → w = .done := by
      intro t p w there
      by_contra live
      exact moves (worker_moves ready there live)
    have consumers : ∀ n k w, b.fanout.workers.task n = some (k, w) → w = .settled := by
      intro n k w there
      by_contra unsettled
      exact moves (consumer_moves there unsettled)
    refine .inl ⟨?_, workers, ?_, consumers⟩
    · intro p
      apply gate.queue_eq_nil
      rw [Gate.busy, Option.any_eq_false]
      intro w now
      obtain ⟨t, -, there⟩ := gate.staffed.of_current now
      simp [workers t p w there]
    · intro k
      have desk := fanout.desk k
      cases now : b.fanout.worker k with
      | none =>
          rw [now] at desk
          generalize b.fanout.queues.get k = queue at desk
          generalize b.fanout.waiting k = line at desk ⊢
          cases desk
          rfl
      | some w =>
          obtain ⟨n, -, there⟩ := fanout.staffed.of_current now
          rw [now, consumers n k w there] at desk
          generalize b.fanout.queues.get k = queue at desk
          generalize b.fanout.waiting k = line at desk
          cases desk

/-- A bot at rest has handled every command that it accepted and has awaited every coroutine that
was queued, all in the order in which they came. -/
structure Finished (b : ZorkBot) : Prop extends Resting b where
  handled : ∀ p, b.gate.handledOf p = b.gate.acceptedOf p
  awaited : ∀ k, b.fanout.finishedOf k = b.fanout.acceptedOf k

theorem Resting.finished {guard : ZorkBot → Act → Prop}
    (reached : (zorkbot setup).Reachable guard b) (resting : b.Resting) : b.Finished := by
  refine ⟨resting, ?_, ?_⟩
  · intro p
    have idle : b.gate.inHand p = none := by
      rw [Gate.inHand]
      cases now : b.gate.worker p with
      | none => rfl
      | some w =>
          obtain ⟨t, -, there⟩ := (sound reached).gate.staffed.of_current now
          rw [resting.workers t p w there]
          rfl
    have order := Gate.acceptedOf_eq (gateReached reached) p
    rw [order, idle, resting.queues p]
    simp
  · intro k
    have idle : b.fanout.inHand k = none := by
      rw [Fanout.inHand]
      cases now : b.fanout.worker k with
      | none => rfl
      | some w =>
          obtain ⟨n, -, there⟩ := (Fanout.sound (fanReached reached)).staffed.of_current now
          rw [resting.consumers n k w there]
          rfl
    have order := Fanout.acceptedOf_eq (fanReached reached) k
    rw [order, idle, resting.waiting k]
    simp

/-- From whatever state the bot is in, its workers and fan-out workers come to rest, in whichever
order they go on and however what they wait for turns out, as long as `stop` does not cancel them.
So the joins of `drain` return; the replies that it gathers after them are apart. -/
theorem drain_returns (reached : (zorkbot setup).Reachable (fun _ _ => True) b) :
    (zorkbot setup).Inevitable (fun _ a => a.working = true) Finished b := by
  have kept : ∀ b a c, (zorkbot setup).Reachable (fun _ _ => True) b → Act.working a = true →
      b.step setup a = some c → (zorkbot setup).Reachable (fun _ _ => True) c :=
    fun b a c reached _ taken => reached.step trivial taken
  apply System.inevitable_of_rank Workload.founded work kept _ _ reached
  · intro b a c working taken
    exact lighter_step working taken
  · intro b reached
    rcases resting_or_moves (sound reached).gate (Fanout.sound (fanReached reached))
      (ready reached) with resting | moves
    · exact .inl (resting.finished reached)
    · exact .inr moves

/-- Bob is going to get the answer to Alice's command, and she has sent `!end` meanwhile. -/
def aliceHurries : List Act :=
  bobWatches ++ sends alice "_game" "look" 2 ++
    [Act.run 2 granted, .run 2 (.sent .delivered), .dispatch (dm alice "!end") "end".toList []]

theorem drain_returns_hurried :
    ∃ b : ZorkBot, (b.gate.queue alice).length = 1 ∧ (b.fanout.waiting 1).length = 1 ∧
      (zorkbot (small 2)).Inevitable (fun _ a => a.working = true) Finished b := by
  obtain ⟨b, reached, queued, waits⟩ := System.reaches (zorkbot (small 2)) (fun _ _ => True)
    (fun b => (b.gate.queue alice).length = 1 ∧ (b.fanout.waiting 1).length = 1) aliceHurries
    (fun _ _ _ => trivial) (by decide)
  exact ⟨b, queued, waits, drain_returns (reached.mono fun _ _ _ => trivial)⟩

end ZorkBot

end Zorkbot.Bot
