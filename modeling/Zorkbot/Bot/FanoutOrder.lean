/-
# The order of fan-out

A session's queue and worker together are a server: its coroutines are awaited
one at a time, each once, in the order in which they were queued, whatever some
of them raise.
-/

import Zorkbot.Bot.FanoutQueues

namespace Zorkbot.Bot

open Transition

universe u

namespace Fanout

variable {γ : Type u} {s t : Fanout γ}

/-! ## A session is a server -/

def acceptedOf (s : Fanout γ) (k : Int) : List (Job γ) := s.accepted.filter (·.session = k)

def finishedOf (s : Fanout γ) (k : Int) : List (Job γ) := s.finished.filter (·.session = k)

/-- The coroutine of a session that is awaited. -/
def inHand (s : Fanout γ) (k : Int) : Option (Job γ) := (s.worker k).bind Consumer.job

def server (s : Fanout γ) (k : Int) : Server (Job γ) where
  waiting := s.waiting k
  inHand := s.inHand k
  served := s.finishedOf k
  accepted := s.acceptedOf k

theorem acceptedOf_put (q : Nat) (j : Job γ) (s : Fanout γ) (k : Int) :
    (s.put q j).acceptedOf k =
      if j.session = k then s.acceptedOf k ++ [j] else s.acceptedOf k := by
  simp only [acceptedOf, put, List.filter_append]
  split <;> simp_all

theorem finishedOf_ended (j : Job γ) (s : Fanout γ) (k : Int) :
    (s.ended j).finishedOf k =
      if j.session = k then s.finishedOf k ++ [j] else s.finishedOf k := by
  simp only [finishedOf, ended, List.filter_append]
  split <;> simp_all

/-- A coroutine is queued, and the server of its session accepts it. -/
theorem server_put (housed : s.Housed) {q : Nat} {j : Job γ}
    (known : s.queues.get j.session = some q) (k : Int) :
    (s.put q j).server k =
      if k = j.session then
        { s.server k with waiting := s.waiting k ++ [j], accepted := s.acceptedOf k ++ [j] }
      else s.server k := by
  have finished : (s.put q j).finishedOf k = s.finishedOf k := rfl
  have inHand : (s.put q j).inHand k = s.inHand k := rfl
  unfold server
  rw [waiting_refill housed (refills_put housed known j), acceptedOf_put, finished, inHand]
  split
  · next same => simp [same, waiting_of_get known]
  · next other => simp [Ne.symm other]

/-- A worker that was just created has nothing in hand. -/
theorem server_employ (staffed : s.workers.Staffed fun w => w.live = true) {k : Int}
    (idle : s.inHand k = none) (k' : Int) : (s.employ k).server k' = s.server k' := by
  have same : (s.employ k).inHand k' = s.inHand k' := by
    have worker : (s.employ k).worker k' = if k' = k then some .created else s.worker k' :=
      Roster.current_hire staffed k k' _
    unfold inHand
    rw [worker]
    split
    · next same =>
        subst same
        exact idle.symm
    · rfl
  unfold server
  rw [same]
  rfl

theorem server_take (sound : s.Sound) {k : Int} {n q : Nat} {w : Consumer γ} {j : Job γ}
    {rest : List (Job γ)} (there : s.workers.task n = some (k, w)) (live : w.live = true)
    (known : s.queues.get k = some q) (k' : Int) :
    (s.take n q j rest).server k' =
      if k' = k then { s.server k' with waiting := rest, inHand := some j }
      else s.server k' := by
  have accepted : (s.take n q j rest).acceptedOf k' = s.acceptedOf k' := rfl
  have finished : (s.take n q j rest).finishedOf k' = s.finishedOf k' := rfl
  have worker : (s.take n q j rest).worker k' =
      if k' = k then some (.running q j) else s.worker k' :=
    Roster.current_move sound.staffed _ there live k'
  unfold server inHand
  rw [worker, accepted, finished, waiting_refill sound.housed (refills_take sound.housed known ..)]
  split <;> rfl

theorem server_rest (sound : s.Sound) {k : Int} {n : Nat} {w : Consumer γ}
    (there : s.workers.task n = some (k, w)) (live : w.live = true) (k' : Int) :
    (s.setTask n .done).server k' =
      if k' = k then { s.server k' with inHand := none } else s.server k' := by
  have worker : (s.setTask n .done).worker k' = if k' = k then some .done else s.worker k' :=
    Roster.current_move sound.staffed _ there live k'
  unfold server inHand
  rw [worker]
  split <;> rfl

theorem server_ended (j : Job γ) (s : Fanout γ) (k : Int) :
    (s.ended j).server k =
      if k = j.session then { s.server k with served := s.finishedOf k ++ [j] }
      else s.server k := by
  have rest : (s.ended j).server k = { s.server k with served := (s.ended j).finishedOf k } := rfl
  rw [rest, finishedOf_ended]
  split
  · next same => rw [if_pos same.symm]
  · next other =>
      rw [if_neg (Ne.symm other)]
      rfl

theorem server_open {k : Int} (missing : s.queues.get k = none) (k' : Int) :
    (s.open_ k).server k' = s.server k' := by
  have waiting := waiting_open missing k'
  unfold server
  rw [waiting]
  rfl

/-- A worker that is done, in the map or not, has nothing in hand. -/
theorem server_settle (sound : s.Sound) {k : Int} {n : Nat}
    (there : s.workers.task n = some (k, .done)) (k' : Int) :
    (s.setTask n .settled).server k' = s.server k' := by
  have same : (s.setTask n .settled).inHand k' = s.inHand k' := by
    unfold inHand
    by_cases current : s.workers.registered.get k' = some n
    · obtain ⟨w, again⟩ := sound.staffed.registered current
      have one : k' = k := by
        rw [there] at again
        simp only [Option.some.injEq, Prod.mk.injEq] at again
        exact again.1.symm
      subst one
      have before : s.worker k' = some .done := by simp [worker, Roster.current, current, there]
      have after : (s.setTask n .settled).worker k' = some .settled := by
        change (s.workers.registered.get k').bind
          (fun m => ((s.workers.move n .settled).task m).map (·.2)) = _
        simp [current, Roster.task_move, there]
      rw [before, after]
      rfl
    · have worker : (s.setTask n .settled).worker k' = s.worker k' := by
        rcases eq_or_ne k' k with same | other
        · exact Roster.current_move_replaced sound.staffed _ there (same ▸ current) k'
        · exact Roster.current_move_of_ne sound.staffed _ there other
      rw [worker]
  unfold server
  rw [same]
  rfl

theorem server_forget {k : Int} (empty : s.waiting k = []) (idle : s.inHand k = none) (k' : Int) :
    (s.forget k).server k' = s.server k' := by
  have waiting := waiting_forget empty k'
  have same : (s.forget k).inHand k' = s.inHand k' := by
    have worker : (s.forget k).worker k' = if k' = k then none else s.worker k' :=
      Roster.current_dismiss _ k k'
    unfold inHand
    rw [worker]
    split
    · next same =>
        subst same
        exact idle.symm
    · rfl
  unfold server
  rw [waiting, same]
  rfl

/-- What a live worker of a session has in hand. -/
theorem Sound.inHand (sound : s.Sound) {n : Nat} {k : Int} {w : Consumer γ}
    (there : s.workers.task n = some (k, w)) (live : w.live = true) : s.inHand k = w.job := by
  unfold Fanout.inHand worker
  rw [sound.staffed.current there live]
  rfl

/-- A coroutine is queued for a session. -/
theorem path_put (housed : s.Housed) {j : Job γ} {q : Nat}
    (known : s.queues.get j.session = some q) (k : Int) :
    (s.server k).Path ((s.put q j).server k) := by
  rw [server_put housed known]
  split
  · exact Server.path_accept _ _
  · exact .refl _

/-- A session is a server: each step of the fan-out is a run of it. -/
theorem server_simulation (k : Int) :
    (fanouts γ).Simulation (fun _ _ => True) (Server.machine (Job γ))
      fun s v => s.server k = v := by
  constructor
  · rfl
  · rintro s a t _ reached rfl _ taken
    refine ⟨t.server k, ?_, rfl⟩
    have sound := Fanout.sound reached
    cases fanout_steps sound taken with
    | @opens k' coro missing unknown =>
        have housed := sound.housed.open_ missing
        have staffed : ((s.open_ k').put s.objects.length (s.arriving k' coro)).workers.Staffed
            fun w => w.live = true := sound.staffed
        have idle : ((s.open_ k').put s.objects.length (s.arriving k' coro)).inHand k' = none := by
          change (s.worker k').bind _ = none
          rw [unknown]
          rfl
        rw [server_employ staffed idle, ← server_open missing]
        have known : (s.open_ k').queues.get (s.arriving k' coro).session =
            some s.objects.length := Table.get_set_self _ _ _
        exact path_put housed known k
    | queues known busy => exact path_put sound.housed known k
    | @restarts k' coro q known past =>
        have staffed : (s.put q (s.arriving k' coro)).workers.Staffed
            fun w => w.live = true := sound.staffed
        have idle : (s.put q (s.arriving k' coro)).inHand k' = none := by
          change (s.worker k').bind _ = none
          rw [past]
          rfl
        rw [server_employ staffed idle]
        exact path_put sound.housed known k
    | begins there known line =>
        rw [server_take sound there rfl known]
        split
        · next same =>
            subst same
            exact Server.path_take (sound.inHand there rfl) ((waiting_of_get known).trans line)
        · exact .refl _
    | @rests k' n q j _ there known line =>
        have mine : j.session = k' := sound.own k' j (.inr (sound.inHand there rfl))
        rw [server_rest (sound_ended sound j) there rfl, server_ended, mine]
        split
        · next same =>
            subst same
            exact Server.path_finish (sound.inHand there rfl)
        · exact .refl _
    | @continues k' n q i j rest _ there known line =>
        have mine : i.session = k' := sound.own k' i (.inr (sound.inHand there rfl))
        rw [server_take (sound_ended sound i) there rfl known, server_ended, mine]
        split
        · next same =>
            subst same
            apply System.Path.trans (Server.path_finish (sound.inHand there rfl))
            exact Server.path_take rfl ((waiting_of_get known).trans line)
        · exact .refl _
    | @closes k' n there current =>
        have past : s.worker k' = some .done := by
          simp [worker, Roster.current, current, there]
        have desk := sound.desk k'
        rw [past] at desk
        have empty : (s.setTask n .settled).waiting k' = [] := desk.empty_of_done
        have idle : (s.setTask n .settled).inHand k' = none := by
          have settled := congrArg Server.inHand (server_settle sound there k')
          have before : s.inHand k' = none := by
            unfold Fanout.inHand
            rw [past]
            rfl
          exact settled.trans before
        rw [server_forget empty idle, server_settle sound there]
        exact .refl _
    | ignores there replaced =>
        rw [server_settle sound there]
        exact .refl _

/-- A session's coroutines are awaited in the order in which they were queued. -/
theorem acceptedOf_eq (reached : (fanouts γ).Reachable (fun _ _ => True) s) (k : Int) :
    s.acceptedOf k = s.finishedOf k ++ (s.inHand k).toList ++ s.waiting k :=
  Server.accepted_of_simulation (server_simulation k) reached

/-! ## Every call queues its coroutine -/

theorem accepted_calls (reached : (fanouts γ).Reachable (fun _ _ => True) s) :
    s.accepted.map Job.call = List.range s.accepted.length := by
  apply reached.invariant (motive := fun s => s.accepted.map Job.call = List.range s.accepted.length)
  · rfl
  · intro s a t reached numbered _ taken
    have put : ∀ k coro, (s.accepted ++ [s.arriving k coro]).map Job.call =
        List.range (s.accepted ++ [s.arriving k coro]).length := by
      intro k coro
      simp [arriving, numbered, List.range_succ]
    cases fanout_steps (Fanout.sound reached) taken with
    | opens | queues | restarts => exact put _ _
    | begins | rests | continues | closes | ignores => exact numbered

/-! ## The fan-out -/

/-- The task runs or will run `_run_fanout` for the session. -/
def Live (s : Fanout γ) (k : Int) (n : Nat) : Prop :=
  ∃ w, s.workers.task n = some (k, w) ∧ w.live = true

/-- What the fan-out promises in every state. -/
structure Ordered (s : Fanout γ) : Prop where
  /-- A session has at most one live worker, -/
  one : ∀ k n n', s.Live k n → s.Live k n' → n = n'
  /-- and at most one of its coroutines is awaited. -/
  single : ∀ n n' q q' j j' k k', s.workers.task n = some (k, .running q j) →
    s.workers.task n' = some (k', .running q' j') → j.session = j'.session → n = n'
  /-- Each call of `_fanout` queued its coroutine, once; -/
  calls : s.accepted.map Job.call = List.range s.accepted.length
  /-- a session's coroutines have ended, in the order of the calls, except for the
  one that is awaited and those that wait. -/
  order : ∀ k, s.acceptedOf k = s.finishedOf k ++ (s.inHand k).toList ++ s.waiting k
  /-- Whatever is in a queue is in the one that the map has for its session, and
  the session has a live worker; -/
  kept : ∀ q j, j ∈ s.contents q →
    s.queues.get j.session = some q ∧ ∃ n, s.Live j.session n
  /-- a live worker can take its next step, however its coroutine ends. -/
  moves : ∀ k n, s.Live k n → (∃ t, s.step (.begin n) = some t) ∨
    ∀ outcome, ∃ t, s.step (.finish n outcome) = some t
  /-- So a session without a live worker has had all its coroutines awaited. -/
  past : ∀ k, (∀ n, ¬ s.Live k n) → s.acceptedOf k = s.finishedOf k

theorem Sound.live_of_busy (sound : s.Sound) {k : Int}
    (busy : (s.worker k).any Consumer.live = true) : ∃ n, s.Live k n := by
  obtain ⟨w, now, live⟩ := (Option.any_eq_true _ _).mp busy
  obtain ⟨n, -, there⟩ := sound.staffed.of_current now
  exact ⟨n, w, there, live⟩

theorem fanout_in_order (reached : (fanouts γ).Reachable (fun _ _ => True) s) : s.Ordered := by
  have sound := Fanout.sound reached
  have order := acceptedOf_eq reached
  constructor
  · rintro k n n' ⟨w, there, live⟩ ⟨w', there', live'⟩
    exact sound.staffed.unique there live there' live'
  · intro n n' q q' j j' k k' there there' same
    have mine := sound.own k j (.inr (sound.inHand there rfl))
    have other := sound.own k' j' (.inr (sound.inHand there' rfl))
    have one : k = k' := by rw [← mine, ← other, same]
    subst one
    exact sound.staffed.unique there rfl there' rfl
  · exact accepted_calls reached
  · exact order
  · intro q j held
    obtain ⟨k, known⟩ := sound.housed.kept (List.ne_nil_of_mem held)
    have waits : j ∈ s.waiting k := by
      rw [waiting_of_get known]
      exact held
    have mine := sound.own k j (.inl waits)
    subst mine
    exact ⟨known, sound.live_of_busy ((sound.desk _).served (List.ne_nil_of_mem waits))⟩
  · rintro k n ⟨w, there, live⟩
    cases w with
    | created =>
        obtain ⟨q, known, -⟩ : ∃ q, s.queues.get k = some q ∧ s.waiting k ≠ [] := by
          have desk := sound.desk k
          rw [worker, sound.staffed.current there rfl] at desk
          exact desk.filled
        exact .inl ⟨s.turn n q, by simp only [step, there, known]⟩
    | running q j => exact .inr fun outcome => ⟨(s.ended j).turn n q, by simp only [step, there]⟩
    | done | settled => cases live
  · intro k none
    have idle : (s.worker k).any Consumer.live = false := by
      rw [← Bool.not_eq_true]
      intro busy
      obtain ⟨n, live⟩ := sound.live_of_busy busy
      exact none n live
    have empty : s.waiting k = [] := by
      by_contra filled
      simp [(sound.desk k).served filled] at idle
    have held : s.inHand k = Option.none := by
      unfold Fanout.inHand
      cases now : s.worker k with
      | none => rfl
      | some w =>
          rw [now] at idle
          cases w <;> simp_all [Consumer.live, Consumer.job]
    rw [order k, held, empty]
    simp

/-- Two coroutines are queued for a session, the first raises, a third arrives
when the worker is done and before its callback has run. -/
def overlapping : List (Act Nat) :=
  [.fanout 7 10, .begin 0, .fanout 7 11, .finish 0 .raised, .finish 0 .returned, .fanout 7 12,
    .callback 0, .begin 1]

theorem fanout_in_order_overlapping :
    ∃ s : Fanout Nat, ((s.finishedOf 7).map Job.coro = [10, 11] ∧
      (s.inHand 7).map Job.coro = some 12) ∧ s.Ordered := by
  obtain ⟨s, reached, ended⟩ := System.reaches (fanouts Nat) (fun _ _ => True)
    (fun s => (s.finishedOf 7).map Job.coro = [10, 11] ∧ (s.inHand 7).map Job.coro = some 12)
    overlapping (fun _ _ _ => trivial) (by decide)
  exact ⟨s, ended, fanout_in_order (reached.mono fun _ _ _ => trivial)⟩

end Fanout

end Zorkbot.Bot
