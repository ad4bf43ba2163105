/-
# The end notice comes last

A session's fan-out goes through one queue, so its watchers are sent what was queued
in the order in which it was queued. A game command queues its output when the
player's reply has been sent, and by then somebody else may have ended the session
and queued the end notice. In a run without such a late output no watcher is sent
output of a session after its end notice.
-/

import Zorkbot.Bot.Filing

namespace Zorkbot.Bot

open Transition

/-- The coroutine tells the watchers that the session has ended. -/
def Fan.ends : Fan → Bool
  | .notice _ => true
  | .output .. => false

namespace ZorkBot

variable {setup : Setup} {b c : ZorkBot}

/-! ## Sends follow the queue -/

structure Delivered (b : ZorkBot) : Prop where
  begun : ∀ x ∈ b.sent, b.fanout.Begun x.job
  order : b.sent.Pairwise fun x y => x.job.session = y.job.session → x.job.call ≤ y.job.call

/-- What is sent now was queued after all that was sent for the session before. -/
theorem Delivered.call_le (delivered : b.Delivered)
    (reached : (fanouts Fan).Reachable (fun _ _ => True) b.fanout) {n q : Nat} {k : Int}
    {j : Job Fan} (there : b.fanout.workers.task n = some (k, .running q j)) {x : Sent}
    (earlier : x ∈ b.sent) (same : x.job.session = j.session) : x.job.call ≤ j.call := by
  rcases delivered.begun x earlier with ended | ⟨n', k', q', there'⟩
  · exact Nat.le_of_lt (Fanout.finished_before reached there ended same)
  · have one := (Fanout.fanout_in_order reached).single _ _ _ _ _ _ _ _ there' there same
    rw [one, there, Option.some.injEq, Prod.mk.injEq, Consumer.running.injEq] at there'
    exact Nat.le_of_eq (congrArg Job.call there'.2.2.symm)

theorem delivered_step (delivered : b.Delivered)
    (reached : (fanouts Fan).Reachable (fun _ _ => True) b.fanout) {a : Act}
    (taken : b.step setup a = some c) : c.Delivered := by
  have begun := fun j => begun_of_step (j := j) reached taken
  have quiet : c.sent = b.sent → c.Delivered := by
    intro same
    constructor
    · rw [same]
      exact fun x listed => begun x.job (delivered.begun x listed)
    · rw [same]
      exact delivered.order
  cases zorkbot_steps taken with
  | @delivers n q raises k j letter rest there =>
      constructor
      · intro x listed
        rcases List.mem_append.mp listed with earlier | new
        · exact delivered.begun x earlier
        · rw [List.mem_singleton.mp new]
          exact .inr ⟨n, k, q, there⟩
      · apply List.pairwise_append.mpr
        refine ⟨delivered.order, List.pairwise_singleton _ _, ?_⟩
        intro x earlier y new same
        rw [List.mem_singleton.mp new] at same ⊢
        exact delivered.call_le reached there earlier same
  | @reconciles players =>
      apply quiet
      apply reconcile_induction (motive := fun c => c.sent = b.sent)
      · rfl
      · intro d r same
        unfold reconcileOne
        split <;> exact same
  | opens _ onto | closes _ _ onto =>
      obtain ⟨letters, rfl⟩ := fanTo_eq onto
      exact quiet rfl
  | _ => exact quiet rfl

theorem delivered {guard : ZorkBot → Act → Prop} (reached : (zorkbot setup).Reachable guard b) :
    b.Delivered := by
  apply reached.invariant (motive := Delivered)
  · constructor
    · intro x listed
      cases listed
    · exact List.Pairwise.nil
  · intro b a c prior delivered _ taken
    exact delivered_step delivered (fanReached prior) taken

/-! ## What is queued behind a notice -/

/-- A game command is about to queue output for watchers whose end notice was queued
already. -/
def lateOutput (setup : Setup) (b : ZorkBot) : Act → Bool
  | .run t (.sent d) =>
      match (b.point t).answered setup d with
      | some (r, command, output) =>
          (b.handling t).isSome && decide ((b.state.record r).watchers ≠ ∅) &&
            (watcherPackets setup b.state r command output).isSome &&
              b.fanout.accepted.any fun j => j.coro = .notice r
      | none => false
  | _ => false

/-- Behind a session's notice there is none of its output. -/
def Closed (line : List (Job Fan)) : Prop :=
  line.Pairwise fun x y => x.session = y.session → x.coro.ends = true → y.coro.ends = true

theorem Closed.append {line : List (Job Fan)} (closed : Closed line) {j : Job Fan}
    (last : ∀ x ∈ line, x.session = j.session → x.coro.ends = true → j.coro.ends = true) :
    Closed (line ++ [j]) := by
  apply List.pairwise_append.mpr
  refine ⟨closed, List.pairwise_singleton _ _, ?_⟩
  intro x earlier y new
  rw [List.mem_singleton.mp new]
  exact last x earlier

theorem closed_step (sound : b.Sound setup) (filed : b.Holds Filed)
    (known : ∀ j ∈ b.fanout.accepted, b.state.Is j.coro.record j.session)
    (closed : Closed b.fanout.accepted) {a : Act} (timely : b.lateOutput setup a = false)
    (taken : b.step setup a = some c) : Closed c.fanout.accepted := by
  apply queue_step (motive := fun _ line => Closed line) sound closed _ _ taken
  · rintro t i resume turn rfl there blocks
    have filed := filed t i there
    generalize at_ : b.point t = a at blocks filed
    cases blocks with
    | @handsOver _ r command output fan d last watched copied =>
        apply closed.append
        intro x earlier same ends
        -- a notice for this session is one for this record, and there is none
        have here : b.state.Is r (b.state.record r).num := ⟨filed_answered filed last, rfl⟩
        have one := sound.registry.is_unique (same ▸ known x earlier) here
        have none : ∀ j ∈ b.fanout.accepted, j.coro ≠ .notice r := by
          simpa [lateOutput, at_, last, there, watched, copied] using timely
        cases coro : x.coro with
        | notice r' =>
            rw [coro] at one
            change r' = r at one
            exact absurd (one ▸ coro) (none x earlier)
        | output =>
            rw [coro] at ends
            cases ends
    | @notifies rest =>
        cases held : rest.record with
        | none =>
            rw [Ending.notices, held]
            exact closed
        | some r =>
            rw [Ending.notices, held]
            exact closed.append fun _ _ _ _ => rfl
    | _ => exact closed
  · intro s line r _ closed _
    exact closed.append fun _ _ _ _ => rfl

theorem closed
    (reached : (zorkbot setup).Reachable (fun b a => b.lateOutput setup a = false) b) :
    Closed b.fanout.accepted := by
  apply reached.invariant (motive := fun b => Closed b.fanout.accepted)
  · exact .nil
  · intro b a c prior closed timely taken
    exact closed_step (sound prior) (filed prior) (accepted_is prior) closed timely taken

/-! ## The order of sends -/

/-- In a list that is ordered by calls, an earlier call stands earlier. -/
theorem rel_of_call_lt {line : List (Job Fan)} {rel : Job Fan → Job Fan → Prop}
    (calls : line.Pairwise fun x y => x.call < y.call) (ordered : line.Pairwise rel) {x y : Job Fan}
    (first : x ∈ line) (second : y ∈ line) (earlier : x.call < y.call) : rel x y := by
  obtain ⟨i, bound, rfl⟩ := List.mem_iff_getElem.mp first
  obtain ⟨j, bound', rfl⟩ := List.mem_iff_getElem.mp second
  rw [List.pairwise_iff_getElem] at calls ordered
  rcases Nat.lt_trichotomy i j with before | same | after
  · exact ordered i j bound bound' before
  · subst same
    exact absurd earlier (Nat.lt_irrefl _)
  · exact absurd earlier (Nat.lt_asymm (calls j i bound' bound after))

theorem eq_of_call_eq {line : List (Job Fan)}
    (calls : line.Pairwise fun x y => x.call < y.call) {x y : Job Fan} (first : x ∈ line)
    (second : y ∈ line) (same : x.call = y.call) : x = y := by
  obtain ⟨i, bound, rfl⟩ := List.mem_iff_getElem.mp first
  obtain ⟨j, bound', rfl⟩ := List.mem_iff_getElem.mp second
  rw [List.pairwise_iff_getElem] at calls
  rcases Nat.lt_trichotomy i j with before | one | after
  · exact absurd same (Nat.ne_of_lt (calls i j bound bound' before))
  · simp only [one]
  · exact absurd same.symm (Nat.ne_of_lt (calls j i bound' bound after))

/-- In a run without a late output, nobody is sent output of a session after an end
notice of it. -/
theorem notice_last
    (reached : (zorkbot setup).Reachable (fun b a => b.lateOutput setup a = false) b) :
    b.sent.Pairwise fun x y => x.job.session = y.job.session →
      x.job.coro.ends = true → y.job.coro.ends = true := by
  have fan := fanReached reached
  have delivered := delivered reached
  have calls := Fanout.call_lt fan
  apply delivered.order.imp_of_mem
  intro x y first second ordered same ends
  have queued := (delivered.begun x first).accepted fan
  have queued' := (delivered.begun y second).accepted fan
  rcases Nat.lt_or_eq_of_le (ordered same) with earlier | one
  · exact rel_of_call_lt calls (closed reached) queued queued' earlier same ends
  · exact eq_of_call_eq calls queued queued' one ▸ ends

/-- Bob watches Alice's session, and she has sent a command that the game service has
answered. -/
def aliceLooksAround : List Act :=
  bobWatches ++ sends alice "_game" "look" 2 ++ [Act.run 2 granted]

/-- An administrator ends Alice's session and is told so. -/
def adminEnds : List Act :=
  sends admin "end" "1" 3 ++ [Act.run 3 granted, .run 3 (.sent .delivered)]

/-- The fan-out of two coroutines to Bob. -/
def bobHears : List Act :=
  [.open_ 0 [bob], .deliver 0 false, .close 0 .returned [bob], .deliver 0 false]

/-- To whom something was sent, of which session, and whether it is an end notice. -/
def heard (b : ZorkBot) : List (Str × Int × Bool) :=
  b.sent.map fun x => (x.watcher, x.job.session, x.job.coro.ends)

theorem notice_last_ended :
    ∃ b : ZorkBot, b.heard = [(bob, 1, false), (bob, 1, true)] ∧
      b.sent.Pairwise fun x y => x.job.session = y.job.session →
        x.job.coro.ends = true → y.job.coro.ends = true := by
  obtain ⟨b, reached, heard⟩ := System.reaches (zorkbot (small 2))
    (fun b a => b.lateOutput (small 2) a = false)
    (fun b => b.heard = [(bob, 1, false), (bob, 1, true)])
    (aliceLooksAround ++ [Act.run 2 (.sent .delivered)] ++ adminEnds ++ bobHears)
    (fun _ _ _ => trivial) (by decide)
  exact ⟨b, heard, notice_last (reached.mono fun _ _ both => both.1)⟩

/-- The session is ended while Alice's reply is on the air. -/
theorem output_after_notice :
    ∃ b, (zorkbot (small 2)).Reachable (fun _ _ => True) b ∧
      b.heard = [(bob, 1, true), (bob, 1, false)] := by
  obtain ⟨b, reached, heard⟩ := System.reaches (zorkbot (small 2)) (fun _ _ => True)
    (fun b => b.heard = [(bob, 1, true), (bob, 1, false)])
    (aliceLooksAround ++ adminEnds ++ [Act.run 2 (.sent .delivered)] ++ bobHears)
    (fun _ _ _ => trivial) (by decide)
  exact ⟨b, reached.mono fun _ _ _ => trivial, heard⟩

end ZorkBot

end Zorkbot.Bot
