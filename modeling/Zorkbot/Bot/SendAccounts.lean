/-
# What becomes of a send

The depth counts the calls that were admitted and are not over, on every run. A
coroutine is closed when its call is refused and awaited when its turn comes; a
task that is cancelled before that does neither.
-/

import Zorkbot.Bot.SendOrder

namespace Zorkbot.Bot

open Transition

namespace SendGate

variable {cfg : SendConfig} {s t : SendGate}

/-! ## Counting -/

/-- How one element's change moves a count. -/
theorem countP_modify {α : Type} (p : α → Bool) (f : α → α) {l : List α} {i : Nat} {a : α}
    (found : l[i]? = some a) :
    (l.modify i f).countP p + (if p a then 1 else 0) = l.countP p + (if p (f a) then 1 else 0) := by
  induction l generalizing i with
  | nil => simp at found
  | cons b rest ih =>
      cases i with
      | zero =>
          simp only [List.getElem?_cons_zero, Option.some.injEq] at found
          subst found
          simp only [List.modify_zero_cons, List.countP_cons]
          omega
      | succ i =>
          have tail := ih (by simpa using found)
          simp only [List.modify_succ_cons, List.countP_cons]
          omega

/-- The calls that were admitted and are not over. -/
def unfinished (s : SendGate) : Nat := s.calls.countP (·.stage ≠ .ended)

theorem unfinished_modify {i : Nat} {here next : Stage} (at_ : s.stageOf i = some here)
    {f : Sending → Sending} (calls : t.calls = s.calls.modify i f)
    (sets : ∀ c, (f c).stage = next) :
    t.unfinished + (if here ≠ .ended then 1 else 0) =
      s.unfinished + (if next ≠ .ended then 1 else 0) := by
  obtain ⟨c, found, stage⟩ := Option.map_eq_some_iff.mp at_
  have moved := countP_modify (fun c => decide (c.stage ≠ .ended)) f found
  unfold unfinished
  rw [calls]
  simpa only [decide_eq_true_eq, sets, stage] using moved

/-- A call leaves the gate. -/
theorem unfinished_ended {i : Nat} {here : Stage} (at_ : s.stageOf i = some here)
    (live : here ≠ .ended) {f : Sending → Sending} (calls : t.calls = s.calls.modify i f)
    (sets : ∀ c, (f c).stage = .ended) : t.unfinished + 1 = s.unfinished := by
  simpa [live] using unfinished_modify at_ calls sets

/-- A call goes on inside the gate. -/
theorem unfinished_moved {i : Nat} {here next : Stage} (at_ : s.stageOf i = some here)
    (live : here ≠ .ended) {f : Sending → Sending} (calls : t.calls = s.calls.modify i f)
    (sets : ∀ c, (f c).stage = next) (stays : next ≠ .ended) : t.unfinished = s.unfinished := by
  simpa [live, stays] using unfinished_modify at_ calls sets

theorem unfinished_start {i : Nat} {here : Stage} (at_ : s.stageOf i = some here)
    (live : here ≠ .ended) : (s.start i).unfinished = s.unfinished :=
  unfinished_moved at_ live (t := s.start i) rfl (fun _ => (rfl : _ = Stage.sending)) (by simp)

theorem unfinished_look {i : Nat} (at_ : s.stageOf i = some .quiet) (looks : Looks cfg s i t) :
    t.unfinished = s.unfinished ∧ t.depth = s.depth := by
  cases looks with
  | starts quiet => exact ⟨unfinished_start at_ (by simp), rfl⟩
  | sleeps => exact ⟨rfl, rfl⟩

/-! ## The depth -/

/-- The depth is the number of unfinished calls, and within its bounds. -/
structure Counted (cfg : SendConfig) (s : SendGate) : Prop where
  depth : s.depth = s.unfinished
  bound : s.depth ≤ max 0 cfg.maxSendQueueDepth

theorem counted_step (locked : s.Locked) (counted : s.Counted cfg) {a : Act}
    (steps : Steps cfg s a t) : t.Counted cfg := by
  have depth := counted.depth
  have bound := counted.bound
  have leaves : ∀ {u : SendGate}, u.unfinished + 1 = s.unfinished → u.depth = s.depth - 1 →
      u.Counted cfg := by
    intro u fewer lower
    constructor <;> omega
  cases steps with
  | refuses full =>
      constructor
      · simpa [unfinished, refuse] using depth
      · exact bound
  | admits room =>
      constructor
      · simp [unfinished, accept] at depth ⊢
        omega
      · change s.depth + 1 ≤ _
        omega
  | @acquires i _ free waits looks =>
      have waiting := locked.queued.mp waits
      have grabbed : (s.grab i).unfinished = s.unfinished :=
        unfinished_moved waiting (by simp) (t := s.grab i) rfl (fun _ => (rfl : _ = Stage.quiet))
          (by simp)
      obtain ⟨same, sameDepth⟩ := unfinished_look (locked_grab locked free waits).2 looks
      have unchanged : (s.grab i).depth = s.depth := rfl
      constructor <;> omega
  | wakes at_ looks =>
      obtain ⟨same, sameDepth⟩ := unfinished_look at_ looks
      constructor <;> omega
  | @finishes i _ u at_ _ told =>
      apply leaves
      · exact unfinished_ended at_ (by simp) (t := (u.stamp i).release i)
          (congrArg (List.modify · i _) told.calls) fun _ => rfl
      · change u.depth - 1 = _
        rw [told.depth]
  | @abandons i at_ =>
      apply leaves
      · exact unfinished_ended at_ (by simp) (t := s.abandon i) rfl fun _ => rfl
      · rfl
  | @withdraws i at_ =>
      apply leaves
      · exact unfinished_ended at_ (by simp) (t := s.release i) rfl fun _ => rfl
      · rfl
  | hears | ticks => exact ⟨depth, bound⟩

/-- On every run, whatever is cancelled. -/
theorem counted (reached : (sendGate cfg).Reachable (fun _ _ => True) s) : s.Counted cfg := by
  apply reached.invariant (motive := Counted cfg)
  · exact ⟨rfl, le_max_left _ _⟩
  · intro s a t reached counted _ taken
    exact counted_step (SendGate.locked reached) counted (send_steps taken)

/-! ## The coroutines -/

/-- How often a call's coroutine should have been awaited and closed so far. -/
def Sending.Settled (c : Sending) : Prop :=
  match c.stage with
  | .waiting | .quiet => c.awaits = 0 ∧ c.closes = 0
  | .sending => c.awaits = 1 ∧ c.closes = 0
  | .ended => c.awaits + c.closes = 1

/-- Only a task whose coroutine is awaited is cancelled. -/
def CancelsOnAir (s : SendGate) : Act → Prop
  | .cancel i => s.stageOf i = some .sending
  | _ => True

instance (s : SendGate) : (a : Act) → Decidable (s.CancelsOnAir a)
  | .cancel _ => inferInstanceAs (Decidable (_ = _))
  | .send _ | .acquire _ | .wake _ | .finish .. | .receive | .tick _ =>
      inferInstanceAs (Decidable True)

/-- One call changes, and is settled if it was. -/
theorem settled_modify {i : Nat} {f : Sending → Sending} {here : Stage}
    (settled : ∀ c ∈ s.calls, Sending.Settled c) (at_ : s.stageOf i = some here)
    (calls : t.calls = s.calls.modify i f)
    (keeps : ∀ c, c.stage = here → Sending.Settled c → Sending.Settled (f c)) :
    ∀ c ∈ t.calls, Sending.Settled c := by
  intro c present
  rw [calls] at present
  obtain ⟨j, bound, found⟩ := List.mem_iff_getElem.mp present
  rw [List.getElem_modify] at found
  have known := settled _ (List.getElem_mem (by simpa using bound : j < s.calls.length))
  split at found
  · next same =>
      subst same
      rw [← found]
      apply keeps _ _ known
      obtain ⟨d, there, stage⟩ := Option.map_eq_some_iff.mp at_
      rw [List.getElem?_eq_getElem (by simpa using bound)] at there
      exact (congrArg Sending.stage (Option.some.inj there)).trans stage
  · exact found ▸ known

theorem settled_look {i : Nat} (settled : ∀ c ∈ s.calls, Sending.Settled c)
    (at_ : s.stageOf i = some .quiet) (looks : Looks cfg s i t) :
    ∀ c ∈ t.calls, Sending.Settled c := by
  cases looks with
  | starts quiet =>
      apply settled_modify settled at_ rfl
      intro c stage fresh
      simp only [Sending.Settled, stage] at fresh ⊢
      exact ⟨by omega, fresh.2⟩
  | sleeps => exact settled

theorem settled_step (locked : s.Locked) (settled : ∀ c ∈ s.calls, Sending.Settled c) {a : Act}
    (steps : Steps cfg s a t) (allowed : s.CancelsOnAir a) : ∀ c ∈ t.calls, Sending.Settled c := by
  cases steps with
  | refuses full | admits room =>
      intro c present
      rcases List.mem_append.mp present with old | new
      · exact settled c old
      · rw [List.mem_singleton.mp new]
        simp [Sending.Settled]
  | @acquires i _ free waits looks =>
      apply settled_look _ (locked_grab locked free waits).2 looks
      apply settled_modify settled (locked.queued.mp waits) rfl
      intro c stage fresh
      simpa only [Sending.Settled, stage] using fresh
  | wakes at_ looks => exact settled_look settled at_ looks
  | @finishes i _ u at_ _ told =>
      apply settled_modify (t := (u.stamp i).release i) settled at_
        (congrArg (List.modify · i _) told.calls)
      intro c stage awaited
      simp only [Sending.Settled, stage] at awaited ⊢
      omega
  | abandons at_ | withdraws at_ =>
      rw [CancelsOnAir, at_] at allowed
      cases allowed
  | hears | ticks => exact settled

/-! ## Both together -/

/-- What the send queue's accounting promises in every state. -/
structure Balanced (cfg : SendConfig) (s : SendGate) : Prop where
  /-- The depth counts the accepted sends that are not finished, -/
  depth : s.depth = s.unfinished
  /-- it stays within its bounds, -/
  bounds : 0 ≤ s.depth ∧ s.depth ≤ cfg.maxSendQueueDepth
  /-- and is zero when none is left. -/
  idle : (∀ c ∈ s.calls, c.stage = .ended) → s.depth = 0
  /-- A send that is over has had its coroutine awaited or closed, once; before
  that it was neither closed nor awaited twice. -/
  coroutines : ∀ c ∈ s.calls, Sending.Settled c

/-- In every run in which only sends inside the radio are cancelled. -/
theorem sends_are_balanced (limit : 0 ≤ cfg.maxSendQueueDepth)
    (reached : (sendGate cfg).Reachable CancelsOnAir s) : s.Balanced cfg := by
  have anyRun : (sendGate cfg).Reachable (fun _ _ => True) s := reached.mono fun _ _ _ => trivial
  have counted := counted anyRun
  constructor
  · exact counted.depth
  · have depth := counted.depth
    have bound := counted.bound
    constructor <;> omega
  · intro past
    have none : s.unfinished = 0 := by
      apply List.countP_eq_zero.mpr
      intro c present
      simp [past c present]
    rw [counted.depth, none]
    rfl
  · apply reached.invariant (motive := fun s => ∀ c ∈ s.calls, Sending.Settled c)
    · intro c present
      cases present
    · intro s a t reached settled allowed taken
      have locked := SendGate.locked (reached.mono fun _ _ _ => trivial)
      exact settled_step locked settled (send_steps taken) allowed

theorem sends_are_balanced_crowded :
    ∃ s : SendGate, s.served = [0] ∧ s.Balanced twoSeconds := by
  obtain ⟨s, reached, served⟩ := System.reaches (sendGate twoSeconds) CancelsOnAir
    (fun s => s.served = [0]) [.send dmPacket, .acquire 0, .send dmPacket, .cancel 0]
    (fun _ _ _ => trivial) (by decide +kernel)
  exact ⟨s, served, sends_are_balanced (by decide) (reached.mono fun _ _ guard => guard.1)⟩

/-- The bot stops while one send is inside the radio and another waits for the
lock: the second one's coroutine is neither awaited nor closed. -/
theorem cancelled_waiter_leaks_coroutine :
    ∃ s, (sendGate twoSeconds).Reachable (fun _ _ => True) s ∧ s.depth = 0 ∧
      ⟨dmPacket, .ended, 0, 0⟩ ∈ s.calls ∧ ¬ s.Balanced twoSeconds := by
  obtain ⟨s, reached, depth, leaked⟩ := System.reaches (sendGate twoSeconds) (fun _ _ => True)
    (fun s => s.depth = 0 ∧ ⟨dmPacket, .ended, 0, 0⟩ ∈ s.calls)
    [.send dmPacket, .acquire 0, .send dmPacket, .cancel 0, .cancel 1] (fun _ _ _ => trivial)
    (by decide +kernel)
  refine ⟨s, reached.mono fun _ _ _ => trivial, depth, leaked, ?_⟩
  intro balanced
  have settled := balanced.coroutines _ leaked
  simp [Sending.Settled] at settled

end SendGate

end Zorkbot.Bot
