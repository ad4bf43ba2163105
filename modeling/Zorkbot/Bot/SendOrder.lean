/-
# Spacing on the air

Whoever holds the lock has looked at the clock after the last transmission ended
and after the last channel message was heard, because both push a deadline that
the loop looks at last. Every run keeps that; that sends start in the order of
their arrival needs the lock to be fair.
-/

import Mathlib.Tactic.Linarith
import Zorkbot.Bot.SendGate

namespace Zorkbot.Bot

open Transition

namespace SendGate

variable {cfg : SendConfig} {s t : SendGate}

/-! ## What one step can do -/

/-- A round of the loop either starts the transmission or sleeps on. -/
inductive Looks (cfg : SendConfig) (s : SendGate) (i : Nat) : SendGate → Prop
  | starts (quiet : s.remaining cfg ≤ 0) : Looks cfg s i (s.start i)
  | sleeps : Looks cfg s i s

theorem look_cases (cfg : SendConfig) (i : Nat) (s : SendGate) : Looks cfg s i (s.look cfg i) := by
  unfold look
  split
  · next quiet => exact .starts quiet
  · exact .sleeps

/-- A state that differs from another in what was recorded only. -/
structure Told (s t : SendGate) : Prop where
  now : t.now = s.now
  lastSendAt : t.lastSendAt = s.lastSendAt
  lastChannelRxAt : t.lastChannelRxAt = s.lastChannelRxAt
  depth : t.depth = s.depth
  holder : t.holder = s.holder
  waiters : t.waiters = s.waiters
  calls : t.calls = s.calls
  accepted : t.accepted = s.accepted
  served : t.served = s.served
  log : t.log = s.log

theorem told_tell (p : Packet) (delivered : Bool) (s : SendGate) : Told s (s.tell p delivered) := by
  unfold tell
  split <;> exact ⟨rfl, rfl, rfl, rfl, rfl, rfl, rfl, rfl, rfl, rfl⟩

/-- What one step of the send gate can do. -/
inductive Steps (cfg : SendConfig) (s : SendGate) : Act → SendGate → Prop
  | refuses {p : Packet} (full : cfg.maxSendQueueDepth ≤ s.depth) :
      Steps cfg s (.send p) (s.refuse p)
  | admits {p : Packet} (room : s.depth < cfg.maxSendQueueDepth) :
      Steps cfg s (.send p) (s.accept p)
  | acquires {i : Nat} {t : SendGate} (free : s.holder = none) (waits : i ∈ s.waiters)
      (looks : Looks cfg (s.grab i) i t) : Steps cfg s (.acquire i) t
  | wakes {i : Nat} {t : SendGate} (at_ : s.stageOf i = some .quiet)
      (looks : Looks cfg s i t) : Steps cfg s (.wake i) t
  | finishes {i : Nat} {a : Act} {u : SendGate} (at_ : s.stageOf i = some .sending)
      (ending : a = .cancel i ∨ ∃ outcome, a = .finish i outcome) (told : Told s u) :
      Steps cfg s a ((u.stamp i).release i)
  | abandons {i : Nat} (at_ : s.stageOf i = some .waiting) :
      Steps cfg s (.cancel i) (s.abandon i)
  | withdraws {i : Nat} (at_ : s.stageOf i = some .quiet) : Steps cfg s (.cancel i) (s.release i)
  | hears : Steps cfg s .receive
      { s with lastChannelRxAt := some s.now, log := .heard s.now :: s.log }
  | ticks {now : ℚ} (later : s.now ≤ now) : Steps cfg s (.tick now) { s with now := now }

theorem told_self (s : SendGate) : Told s s := ⟨rfl, rfl, rfl, rfl, rfl, rfl, rfl, rfl, rfl, rfl⟩

theorem send_steps {a : Act} (taken : s.step cfg a = some t) : Steps cfg s a t := by
  cases a with
  | send p =>
      simp only [step, Option.some.injEq, send] at taken
      subst taken
      split
      · next full => exact .refuses full
      · next room => exact .admits (not_le.mp room)
  | acquire i =>
      simp only [step] at taken
      split at taken
      · next ready =>
          simp only [Option.some.injEq] at taken
          exact taken ▸ .acquires ready.1 ready.2 (look_cases _ _ _)
      · simp at taken
  | wake i =>
      simp only [step] at taken
      split at taken
      · next at_ =>
          simp only [Option.some.injEq] at taken
          exact taken ▸ .wakes at_ (look_cases _ _ _)
      · simp at taken
  | finish i outcome =>
      simp only [step] at taken
      split at taken
      · next p at_ found =>
          have ending : Act.finish i outcome = .cancel i ∨
              ∃ o, Act.finish i outcome = .finish i o := .inr ⟨outcome, rfl⟩
          cases outcome with
          | returned delivered =>
              simp only [Option.some.injEq] at taken
              exact taken ▸ .finishes at_ ending (told_tell p delivered s)
          | raised =>
              simp only [Option.some.injEq] at taken
              exact taken ▸ .finishes at_ ending (told_self s)
      · simp at taken
  | cancel i =>
      simp only [step] at taken
      split at taken
      · next at_ =>
          simp only [Option.some.injEq] at taken
          exact taken ▸ .abandons at_
      · next at_ =>
          simp only [Option.some.injEq] at taken
          exact taken ▸ .withdraws at_
      · next at_ =>
          simp only [Option.some.injEq] at taken
          exact taken ▸ .finishes at_ (.inl rfl) (told_self s)
      · simp at taken
  | receive =>
      simp only [step, Option.some.injEq] at taken
      exact taken ▸ .hears
  | tick now =>
      simp only [step] at taken
      split at taken
      · next later =>
          simp only [Option.some.injEq] at taken
          exact taken ▸ .ticks later
      · simp at taken

/-! ## The lock -/

/-- The holder of the lock is past it and every waiter is before it. -/
structure Locked (s : SendGate) : Prop where
  held : ∀ {i}, s.stageOf i = some .quiet ∨ s.stageOf i = some .sending → s.holder = some i
  holds : ∀ {i}, s.holder = some i → s.stageOf i = some .quiet ∨ s.stageOf i = some .sending
  queued : ∀ {i}, i ∈ s.waiters ↔ s.stageOf i = some .waiting
  nodup : s.waiters.Nodup

/-- What the stages are after one call went on to another. -/
theorem stageOf_modify {i : Nat} {here next : Stage} (at_ : s.stageOf i = some here)
    {f : Sending → Sending} (calls : t.calls = s.calls.modify i f)
    (sets : ∀ c, (f c).stage = next) (j : Nat) :
    t.stageOf j = if i = j then some next else s.stageOf j := by
  simp only [stageOf, calls, List.getElem?_modify]
  split
  · next same =>
      subst same
      obtain ⟨c, found, -⟩ := Option.map_eq_some_iff.mp at_
      simp [found, sets]
  · simp

theorem stageOf_start {i : Nat} {here : Stage} (at_ : s.stageOf i = some here) (j : Nat) :
    (s.start i).stageOf j = if i = j then some .sending else s.stageOf j :=
  stageOf_modify at_ (t := s.start i) rfl (fun _ => rfl) j

theorem stageOf_release {i : Nat} {here : Stage} (at_ : s.stageOf i = some here) (j : Nat) :
    (s.release i).stageOf j = if i = j then some .ended else s.stageOf j :=
  stageOf_modify at_ (t := s.release i) rfl (fun _ => rfl) j

theorem stageOf_abandon {i : Nat} {here : Stage} (at_ : s.stageOf i = some here) (j : Nat) :
    (s.abandon i).stageOf j = if i = j then some .ended else s.stageOf j :=
  stageOf_modify at_ (t := s.abandon i) rfl (fun _ => rfl) j

/-- What the stages are after a call was made. -/
theorem stageOf_append {c : Sending} (calls : t.calls = s.calls ++ [c]) (j : Nat) :
    t.stageOf j = if j = s.calls.length then some c.stage else s.stageOf j := by
  simp only [stageOf, calls, List.getElem?_append]
  rcases Nat.lt_trichotomy j s.calls.length with early | same | late
  · rw [if_pos early, if_neg (by omega)]
  · subst same
    simp
  · rw [if_neg (by omega), if_neg (by omega)]
    have beyond : [c].length ≤ j - s.calls.length := by simp; omega
    rw [List.getElem?_eq_none beyond, List.getElem?_eq_none (by omega)]

theorem stageOf_lt {i : Nat} {stage : Stage} (at_ : s.stageOf i = some stage) :
    i < s.calls.length := by
  obtain ⟨c, found, -⟩ := Option.map_eq_some_iff.mp at_
  exact (List.getElem?_eq_some_iff.mp found).1

theorem Locked.same (locked : s.Locked) (stages : ∀ i, t.stageOf i = s.stageOf i)
    (holder : t.holder = s.holder) (waiters : t.waiters = s.waiters) : t.Locked := by
  constructor
  · intro i at_
    rw [holder]
    exact locked.held (stages i ▸ at_)
  · intro i held
    rw [stages]
    exact locked.holds (holder ▸ held)
  · intro i
    rw [waiters, stages]
    exact locked.queued
  · rw [waiters]
    exact locked.nodup

theorem locked_refuse (locked : s.Locked) (p : Packet) : (s.refuse p).Locked := by
  have stages : ∀ i, (s.refuse p).stageOf i =
      if i = s.calls.length then some .ended else s.stageOf i :=
    stageOf_append (c := ⟨p, .ended, 0, 1⟩) rfl
  constructor
  · intro i at_
    rw [stages] at at_
    split at at_
    · simp at at_
    · exact locked.held at_
  · intro i held
    have at_ := locked.holds held
    have early : i ≠ s.calls.length := by
      rcases at_ with at_ | at_ <;> exact Nat.ne_of_lt (stageOf_lt at_)
    rw [stages, if_neg early]
    exact at_
  · intro i
    rw [stages]
    split
    · next new =>
        constructor
        · intro waits
          have early := stageOf_lt (locked.queued.mp waits)
          omega
        · simp
    · exact locked.queued
  · exact locked.nodup

theorem locked_accept (locked : s.Locked) (p : Packet) : (s.accept p).Locked := by
  have stages : ∀ i, (s.accept p).stageOf i =
      if i = s.calls.length then some .waiting else s.stageOf i :=
    stageOf_append (c := ⟨p, .waiting, 0, 0⟩) rfl
  have fresh : s.calls.length ∉ s.waiters := by
    intro waits
    have early := stageOf_lt (locked.queued.mp waits)
    omega
  constructor
  · intro i at_
    rw [stages] at at_
    split at at_
    · simp at at_
    · exact locked.held at_
  · intro i held
    have at_ := locked.holds held
    have early : i ≠ s.calls.length := by
      rcases at_ with at_ | at_ <;> exact Nat.ne_of_lt (stageOf_lt at_)
    rw [stages, if_neg early]
    exact at_
  · intro i
    rw [stages]
    simp only [accept, List.mem_append, List.mem_singleton]
    split
    · next new => simp [new]
    · next old => simpa [old] using locked.queued
  · simp only [accept]
    exact List.nodup_append.mpr ⟨locked.nodup, by simp, by
      intro i waits j new
      rw [List.mem_singleton.mp new]
      rintro rfl
      exact fresh waits⟩

theorem locked_grab (locked : s.Locked) {i : Nat} (free : s.holder = none)
    (waits : i ∈ s.waiters) : (s.grab i).Locked ∧ (s.grab i).stageOf i = some .quiet := by
  have waiting := locked.queued.mp waits
  have stages : ∀ j, (s.grab i).stageOf j =
      if i = j then some .quiet else s.stageOf j :=
    stageOf_modify waiting rfl fun _ => rfl
  have nobody : ∀ j, ¬ (s.stageOf j = some .quiet ∨ s.stageOf j = some .sending) := by
    intro j at_
    have held := locked.held at_
    rw [free] at held
    cases held
  refine ⟨⟨?_, ?_, ?_, ?_⟩, by rw [stages, if_pos rfl]⟩
  · intro j at_
    rw [stages] at at_
    split at at_
    · next same => exact congrArg some same
    · exact absurd at_ (nobody j)
  · intro j held
    have same : i = j := Option.some.inj held
    rw [stages, if_pos same]
    exact .inl rfl
  · intro j
    rw [stages]
    change j ∈ s.waiters.erase i ↔ _
    rw [locked.nodup.mem_erase_iff]
    split
    · next same => simp [same]
    · next other => simpa [Ne.symm other] using locked.queued
  · exact locked.nodup.erase i

theorem locked_start (locked : s.Locked) {i : Nat} (at_ : s.stageOf i = some .quiet) :
    (s.start i).Locked := by
  have stages := stageOf_start at_
  have mine := locked.held (.inl at_)
  constructor
  · intro j at_'
    rw [stages] at at_'
    split at at_'
    · next same => exact same ▸ mine
    · exact locked.held at_'
  · intro j held
    have same : i = j := Option.some.inj (mine.symm.trans held)
    rw [stages, if_pos same]
    exact .inr rfl
  · intro j
    rw [stages]
    change j ∈ s.waiters ↔ _
    rw [locked.queued]
    split
    · next same => simp [← same, at_]
    · exact Iff.rfl
  · exact locked.nodup

theorem locked_look (locked : s.Locked) {i : Nat} (at_ : s.stageOf i = some .quiet)
    (looks : Looks cfg s i t) : t.Locked := by
  cases looks with
  | starts quiet => exact locked_start locked at_
  | sleeps => exact locked

theorem locked_release (locked : s.Locked) {i : Nat}
    (at_ : s.stageOf i = some .quiet ∨ s.stageOf i = some .sending) : (s.release i).Locked := by
  have mine := locked.held at_
  have stages : ∀ j, (s.release i).stageOf j =
      if i = j then some .ended else s.stageOf j := by
    rcases at_ with at_ | at_ <;> exact stageOf_release at_
  constructor
  · intro j at_'
    rw [stages] at at_'
    split at at_'
    · simp at at_'
    · next other => exact absurd (Option.some.inj (mine.symm.trans (locked.held at_'))) other
  · intro j held
    cases held
  · intro j
    rw [stages]
    change j ∈ s.waiters ↔ _
    rw [locked.queued]
    split
    · next same => rcases at_ with at_ | at_ <;> simp [← same, at_]
    · exact Iff.rfl
  · exact locked.nodup

theorem locked_abandon (locked : s.Locked) {i : Nat} (at_ : s.stageOf i = some .waiting) :
    (s.abandon i).Locked := by
  have stages := stageOf_abandon at_
  constructor
  · intro j at_'
    rw [stages] at at_'
    split at at_'
    · simp at at_'
    · exact locked.held at_'
  · intro j held
    have at_' := locked.holds held
    have other : i ≠ j := by
      rintro rfl
      rcases at_' with at_' | at_' <;> rw [at_] at at_' <;> cases at_'
    rw [stages, if_neg other]
    exact at_'
  · intro j
    rw [stages]
    change j ∈ s.waiters.erase i ↔ _
    rw [locked.nodup.mem_erase_iff]
    split
    · next same => simp [same]
    · next other => simpa [Ne.symm other] using locked.queued
  · exact locked.nodup.erase i

theorem locked_step (locked : s.Locked) {a : Act} (steps : Steps cfg s a t) : t.Locked := by
  cases steps with
  | refuses => exact locked_refuse locked _
  | admits => exact locked_accept locked _
  | acquires free waits looks =>
      obtain ⟨grabbed, at_⟩ := locked_grab locked free waits
      exact locked_look grabbed at_ looks
  | wakes at_ looks => exact locked_look locked at_ looks
  | @finishes i _ u at_ _ told =>
      have same : ∀ j, (u.stamp i).stageOf j = s.stageOf j := by
        intro j
        unfold stageOf
        rw [← told.calls]
        rfl
      apply locked_release (locked.same same told.holder told.waiters)
      exact .inr ((same i).trans at_)
  | abandons at_ => exact locked_abandon locked at_
  | withdraws at_ => exact locked_release locked (.inl at_)
  | hears | ticks => exact locked.same (fun _ => rfl) rfl rfl

theorem locked (reached : (sendGate cfg).Reachable (fun _ _ => True) s) : s.Locked := by
  apply reached.invariant (motive := Locked)
  · constructor
    · intro i at_
      simp [stageOf, sendGate, init] at at_
    · intro i held
      cases held
    · intro i
      simp [stageOf, sendGate, init]
    · exact List.nodup_nil
  · intro s a t _ locked _ taken
    exact locked_step locked (send_steps taken)

/-! ## The two deadlines -/

/-- What the gate keeps between a start and an earlier event at the radio, for a reading of the
exact sums. -/
def Apart (cfg : SendConfig) (reading : ℚ → ℚ) : Radio → Radio → Prop
  | .started _ t, .finished _ u => reading (u + cfg.sendSpacingSeconds) ≤ t
  | .started _ t, .heard u => reading (u + cfg.channelRxGuardSeconds) ≤ t
  | _, _ => True

theorem Apart.imp {reading reading' : ℚ → ℚ} (earlier : ∀ q, reading' q ≤ reading q)
    {e e' : Radio} (apart : Apart cfg reading e e') : Apart cfg reading' e e' := by
  cases e with
  | started i t =>
      cases e' with
      | finished j u => exact (earlier _).trans apart
      | heard u => exact (earlier _).trans apart
      | started => trivial
  | finished | heard => trivial

/-- The two timestamps are the latest of their kind, and past. -/
structure Clocked (cfg : SendConfig) (s : SendGate) : Prop where
  sent : ∀ {j u}, .finished j u ∈ s.log → ∃ last, s.lastSendAt = some last ∧ u ≤ last
  sentPast : ∀ {last}, s.lastSendAt = some last → last ≤ s.now
  heard : ∀ {u}, .heard u ∈ s.log → ∃ last, s.lastChannelRxAt = some last ∧ u ≤ last
  heardPast : ∀ {last}, s.lastChannelRxAt = some last → last ≤ s.now
  apart : s.log.Pairwise (Apart cfg Binary64.nearest)

/-- When the loop returns, both deadlines have passed. -/
theorem deadlines_passed (quiet : s.remaining cfg ≤ 0) :
    (∀ last, s.lastSendAt = some last →
      Binary64.nearest (last + cfg.sendSpacingSeconds) ≤ s.now) ∧
    ∀ last, s.lastChannelRxAt = some last →
      Binary64.nearest (last + cfg.channelRxGuardSeconds) ≤ s.now := by
  unfold remaining deadlines at quiet
  constructor
  · intro last sent
    cases heard : s.lastChannelRxAt <;>
      simp [sent, heard, List.max?, Binary64.nearest_nonpos_iff] at quiet
    · exact quiet
    · exact quiet.1
  · intro last heard
    cases sent : s.lastSendAt <;>
      simp [sent, heard, List.max?, Binary64.nearest_nonpos_iff] at quiet
    · exact quiet
    · exact quiet.2

theorem clocked_start (clocked : s.Clocked cfg) {i : Nat} (quiet : s.remaining cfg ≤ 0) :
    (s.start i).Clocked cfg := by
  obtain ⟨spaced, guarded⟩ := deadlines_passed quiet
  constructor
  · intro j u logged
    simp only [start, List.mem_cons, reduceCtorEq, false_or] at logged
    exact clocked.sent logged
  · exact clocked.sentPast
  · intro u logged
    simp only [start, List.mem_cons, reduceCtorEq, false_or] at logged
    exact clocked.heard logged
  · exact clocked.heardPast
  · apply List.Pairwise.cons
    · intro earlier logged
      cases earlier with
      | started => trivial
      | finished j u =>
          obtain ⟨last, sent, le⟩ := clocked.sent logged
          have sooner : u + cfg.sendSpacingSeconds ≤ last + cfg.sendSpacingSeconds := by linarith
          exact (Binary64.nearest_mono sooner).trans (spaced last sent)
      | heard u =>
          obtain ⟨last, heard, le⟩ := clocked.heard logged
          have sooner : u + cfg.channelRxGuardSeconds ≤ last + cfg.channelRxGuardSeconds := by
            linarith
          exact (Binary64.nearest_mono sooner).trans (guarded last heard)
    · exact clocked.apart

theorem clocked_look (clocked : s.Clocked cfg) {i : Nat} (looks : Looks cfg s i t) :
    t.Clocked cfg := by
  cases looks with
  | starts quiet => exact clocked_start clocked quiet
  | sleeps => exact clocked

/-- The deadlines are about the clock, the two timestamps and the log. -/
theorem Clocked.same (clocked : s.Clocked cfg) (now : t.now = s.now)
    (sent : t.lastSendAt = s.lastSendAt) (heard : t.lastChannelRxAt = s.lastChannelRxAt)
    (log : t.log = s.log) : t.Clocked cfg := by
  constructor
  · rw [log, sent]
    exact clocked.sent
  · rw [sent, now]
    exact clocked.sentPast
  · rw [log, heard]
    exact clocked.heard
  · rw [heard, now]
    exact clocked.heardPast
  · rw [log]
    exact clocked.apart

theorem clocked_stamp (clocked : s.Clocked cfg) (i : Nat) : (s.stamp i).Clocked cfg := by
  constructor
  · intro j u logged
    refine ⟨s.now, rfl, ?_⟩
    rcases List.mem_cons.mp logged with new | old
    · cases new
      exact le_refl _
    · obtain ⟨last, sent, le⟩ := clocked.sent old
      exact le.trans (clocked.sentPast sent)
  · intro last sent
    cases sent
    exact le_refl _
  · intro u logged
    simp only [stamp, List.mem_cons, reduceCtorEq, false_or] at logged
    exact clocked.heard logged
  · exact clocked.heardPast
  · exact .cons (fun _ _ => trivial) clocked.apart

theorem clocked_hear (clocked : s.Clocked cfg) :
    ({ s with lastChannelRxAt := some s.now, log := .heard s.now :: s.log } : SendGate).Clocked
      cfg := by
  constructor
  · intro j u logged
    simp only [List.mem_cons, reduceCtorEq, false_or] at logged
    exact clocked.sent logged
  · exact clocked.sentPast
  · intro u logged
    refine ⟨s.now, rfl, ?_⟩
    rcases List.mem_cons.mp logged with new | old
    · cases new
      exact le_refl _
    · obtain ⟨last, heard, le⟩ := clocked.heard old
      exact le.trans (clocked.heardPast heard)
  · intro last heard
    cases heard
    exact le_refl _
  · exact .cons (fun _ _ => trivial) clocked.apart

theorem clocked_step (clocked : s.Clocked cfg) {a : Act} (steps : Steps cfg s a t) :
    t.Clocked cfg := by
  cases steps with
  | refuses | admits => exact clocked.same rfl rfl rfl rfl
  | @acquires i _ free waits looks =>
      have grabbed : (s.grab i).Clocked cfg := clocked.same rfl rfl rfl rfl
      exact clocked_look grabbed looks
  | wakes at_ looks => exact clocked_look clocked looks
  | @finishes i _ u at_ _ told =>
      have before : u.Clocked cfg :=
        clocked.same told.now told.lastSendAt told.lastChannelRxAt told.log
      exact (clocked_stamp before i).same rfl rfl rfl rfl
  | abandons at_ => exact clocked.same rfl rfl rfl rfl
  | withdraws at_ => exact clocked.same rfl rfl rfl rfl
  | hears => exact clocked_hear clocked
  | ticks later =>
      constructor
      · exact clocked.sent
      · intro last sent
        exact (clocked.sentPast sent).trans later
      · exact clocked.heard
      · intro last heard
        exact (clocked.heardPast heard).trans later
      · exact clocked.apart

theorem clocked (reached : (sendGate cfg).Reachable (fun _ _ => True) s) : s.Clocked cfg := by
  apply reached.invariant (motive := Clocked cfg)
  · constructor
    · intro j u logged
      cases logged
    · intro last sent
      cases sent
    · intro u logged
      cases logged
    · intro last heard
      cases heard
    · exact .nil
  · intro s a t _ clocked _ taken
    exact clocked_step clocked (send_steps taken)

/-! ## The order of arrival -/

/-- The lock is given to the call that has waited longest, and nothing is
cancelled. -/
def Fifo (s : SendGate) : Act → Prop
  | .acquire i => s.waiters.head? = some i
  | .cancel _ => False
  | _ => True

instance (s : SendGate) : (a : Act) → Decidable (s.Fifo a)
  | .acquire _ => inferInstanceAs (Decidable (_ = _))
  | .cancel _ => inferInstanceAs (Decidable False)
  | .send _ | .wake _ | .finish .. | .receive | .tick _ => inferInstanceAs (Decidable True)

def server (s : SendGate) : Server Nat where
  waiting := s.waiters
  inHand := s.holder
  served := s.served
  accepted := s.accepted

theorem server_look {i : Nat} (looks : Looks cfg s i t) : t.server = s.server := by
  cases looks <;> rfl

/-- With a fair lock the gate is a server: each step is a run of it. -/
theorem server_simulation (cfg : SendConfig) :
    (sendGate cfg).Simulation Fifo (Server.machine Nat) fun s v => s.server = v := by
  constructor
  · rfl
  · rintro s a t _ reached rfl fair taken
    refine ⟨t.server, ?_, rfl⟩
    have locked := SendGate.locked (reached.mono fun _ _ _ => trivial)
    cases send_steps taken with
    | refuses | hears | ticks => exact .refl _
    | admits => exact Server.path_accept _ _
    | @acquires i _ free waits looks =>
        obtain ⟨rest, line⟩ := List.head?_eq_some_iff.mp fair
        have grabbed : (s.grab i).server = { s.server with waiting := rest, inHand := some i } := by
          simp [server, grab, setStage, line]
        rw [server_look looks, grabbed]
        exact Server.path_take free line
    | wakes at_ looks =>
        rw [server_look looks]
        exact .refl _
    | @finishes i _ u at_ _ told =>
        have released : ((u.stamp i).release i).server =
            { s.server with inHand := none, served := s.served ++ [i] } := by
          simp [server, release, setStage, stamp, told.waiters, told.accepted, told.served]
        rw [released]
        exact Server.path_finish (locked.held (.inr at_))
    | abandons | withdraws => exact fair.elim

/-- The calls whose coroutine was started, in that order. -/
def started (log : List Radio) : List Nat :=
  log.reverse.filterMap fun
    | .started i _ => some i
    | _ => none

/-- The call whose coroutine is awaited. -/
def onAir (s : SendGate) : Option Nat :=
  s.holder.filter fun i => s.stageOf i = some .sending

theorem onAir_of_quiet (locked : s.Locked) {i : Nat} (at_ : s.stageOf i = some .quiet) :
    s.onAir = none := by
  simp [onAir, locked.held (.inl at_), at_]

theorem onAir_of_sending (locked : s.Locked) {i : Nat} (at_ : s.stageOf i = some .sending) :
    s.onAir = some i := by
  simp [onAir, locked.held (.inr at_), at_]

theorem onAir_append {c : Sending} (locked : s.Locked) (calls : t.calls = s.calls ++ [c])
    (holder : t.holder = s.holder) : t.onAir = s.onAir := by
  unfold onAir
  rw [holder]
  cases held : s.holder with
  | none => rfl
  | some i =>
      have early : i ≠ s.calls.length := by
        rcases locked.holds held with at_ | at_ <;> exact Nat.ne_of_lt (stageOf_lt at_)
      simp only [Option.filter_some, stageOf_append calls, if_neg early]

theorem started_look (locked : s.Locked) {i : Nat} (at_ : s.stageOf i = some .quiet)
    (inOrder : started s.log = s.served) (looks : Looks cfg s i t) :
    started t.log = t.served ++ t.onAir.toList := by
  cases looks with
  | starts quiet =>
      have sending : (s.start i).stageOf i = some .sending := by
        rw [stageOf_start at_, if_pos rfl]
      rw [onAir_of_sending (locked_start locked at_) sending]
      change started (.started i s.now :: s.log) = s.served ++ [i]
      simp [started, ← inOrder]
  | sleeps =>
      rw [onAir_of_quiet locked at_, inOrder]
      simp

theorem started_eq (reached : (sendGate cfg).Reachable Fifo s) :
    started s.log = s.served ++ s.onAir.toList := by
  apply reached.invariant (motive := fun s => started s.log = s.served ++ s.onAir.toList)
  · rfl
  · intro s a t reached inOrder fair taken
    have locked := SendGate.locked (reached.mono fun _ _ _ => trivial)
    cases send_steps taken with
    | @refuses p full =>
        have same : (s.refuse p).onAir = s.onAir :=
          onAir_append (c := ⟨p, .ended, 0, 1⟩) locked rfl rfl
        rw [same]
        exact inOrder
    | @admits p room =>
        have same : (s.accept p).onAir = s.onAir :=
          onAir_append (c := ⟨p, .waiting, 0, 0⟩) locked rfl rfl
        rw [same]
        exact inOrder
    | @acquires i _ free waits looks =>
        have idle : s.onAir = none := by simp [onAir, free]
        rw [idle, Option.toList_none, List.append_nil] at inOrder
        obtain ⟨grabbed, at_⟩ := locked_grab locked free waits
        exact started_look grabbed at_ inOrder looks
    | wakes at_ looks =>
        rw [onAir_of_quiet locked at_, Option.toList_none, List.append_nil] at inOrder
        exact started_look locked at_ inOrder looks
    | @finishes i _ u at_ _ told =>
        rw [onAir_of_sending locked at_] at inOrder
        have idle : ((u.stamp i).release i).onAir = none := rfl
        rw [idle]
        change started (.finished i u.now :: u.log) = (u.served ++ [i]) ++ _
        rw [told.log, told.served]
        simpa [started] using inOrder
    | abandons | withdraws => exact fair.elim
    | hears =>
        change started (.heard s.now :: s.log) = s.served ++ s.onAir.toList
        simpa [started] using inOrder
    | ticks => exact inOrder

/-! ## Inside the radio -/

/-- A call leaves the radio only by finishing. -/
theorem sending_step (locked : s.Locked) {a : Act} (steps : Steps cfg s a t) {i : Nat}
    (at_ : s.stageOf i = some .sending) :
    t.stageOf i = some .sending ∨ ∃ u, .finished i u ∈ t.log := by
  have early := Nat.ne_of_lt (stageOf_lt at_)
  have apart : ∀ {j stage}, s.stageOf j = some stage → stage ≠ .sending → j ≠ i := by
    rintro j stage there other rfl
    rw [at_] at there
    exact other (Option.some.inj there).symm
  cases steps with
  | @refuses p full =>
      left
      rwa [stageOf_append (c := ⟨p, .ended, 0, 1⟩) rfl, if_neg early]
  | @admits p room =>
      left
      rwa [stageOf_append (c := ⟨p, .waiting, 0, 0⟩) rfl, if_neg early]
  | @acquires j _ free waits looks =>
      have held := locked.held (.inr at_)
      rw [free] at held
      cases held
  | @wakes j _ there looks =>
      left
      cases looks with
      | starts quiet => rwa [stageOf_start there, if_neg (apart there (by simp))]
      | sleeps => exact at_
  | @finishes j _ u there _ told =>
      have same : j = i :=
        Option.some.inj ((locked.held (.inr there)).symm.trans (locked.held (.inr at_)))
      subst same
      exact .inr ⟨u.now, List.mem_cons_self⟩
  | abandons there =>
      left
      rwa [stageOf_abandon there, if_neg (apart there (by simp))]
  | withdraws there =>
      left
      rwa [stageOf_release there, if_neg (apart there (by simp))]
  | hears | ticks => exact .inl at_

theorem mem_log_step {a : Act} (steps : Steps cfg s a t) {e : Radio} (logged : e ∈ s.log) :
    e ∈ t.log := by
  cases steps with
  | refuses | admits | abandons | withdraws | ticks => exact logged
  | acquires free waits looks => cases looks <;> simp [start, grab, setStage, logged]
  | wakes at_ looks => cases looks <;> simp [start, logged]
  | finishes at_ _ told => simp [release, setStage, stamp, told.log, logged]
  | hears => exact List.mem_cons_of_mem _ logged

/-- A start that a step logs leaves its call inside the radio. -/
theorem started_step (locked : s.Locked) {a : Act} (steps : Steps cfg s a t) {i : Nat} {at_ : ℚ}
    (logged : .started i at_ ∈ t.log) : .started i at_ ∈ s.log ∨ t.stageOf i = some .sending := by
  have looked : ∀ {u v : SendGate} {j}, Looks cfg u j v → u.stageOf j = some .quiet →
      .started i at_ ∈ v.log → .started i at_ ∈ u.log ∨ v.stageOf i = some .sending := by
    intro u v j looks there logged
    cases looks with
    | starts quiet =>
        rcases List.mem_cons.mp logged with new | old
        · cases new
          exact .inr (by rw [stageOf_start there, if_pos rfl])
        · exact .inl old
    | sleeps => exact .inl logged
  cases steps with
  | refuses | admits | abandons | withdraws | ticks => exact .inl logged
  | @acquires j _ free waits looks =>
      exact looked (u := s.grab j) looks (locked_grab locked free waits).2 logged
  | wakes there looks => exact looked looks there logged
  | finishes there _ told =>
      left
      simpa [release, setStage, stamp, told.log] using logged
  | hears =>
      left
      simpa using logged

theorem inside_or_finished (reached : (sendGate cfg).Reachable (fun _ _ => True) s) :
    ∀ i at_, .started i at_ ∈ s.log → s.stageOf i = some .sending ∨ ∃ u, .finished i u ∈ s.log := by
  apply reached.invariant (motive := fun s => ∀ i at_, .started i at_ ∈ s.log →
    s.stageOf i = some .sending ∨ ∃ u, .finished i u ∈ s.log)
  · intro i at_ logged
    cases logged
  · intro s a t reached inside _ taken i at_ logged
    have locked := SendGate.locked reached
    have steps := send_steps taken
    rcases started_step locked steps logged with before | sending
    · rcases inside i at_ before with sending | ⟨u, finished⟩
      · exact sending_step locked steps sending
      · exact .inr ⟨u, mem_log_step steps finished⟩
    · exact .inl sending

/-! ## The send gate -/

/-- What the gate promises in every state. -/
structure Spaced (cfg : SendConfig) (s : SendGate) : Prop where
  /-- A coroutine starts no sooner than the double sum of `send_spacing_seconds` and
  the time at which any earlier one finished, or of `channel_rx_guard_seconds` and
  the time of any earlier reception; -/
  apart : s.log.Pairwise (Apart cfg Binary64.nearest)
  /-- so if it is sooner than the exact sum, by one part in 2^53 of it at most. -/
  loss : s.log.Pairwise (Apart cfg fun sum => sum - |sum| / 2 ^ 53)
  /-- Two are never inside the radio at once; -/
  alone : ∀ i j, s.stageOf i = some .sending → s.stageOf j = some .sending → i = j
  /-- one that was started has finished or is inside. -/
  inside : ∀ i at_, .started i at_ ∈ s.log →
    s.stageOf i = some .sending ∨ ∃ u, .finished i u ∈ s.log
  /-- Accepted sends start in the order of their arrival. -/
  order : started s.log <+: s.accepted

theorem sends_are_spaced (reached : (sendGate cfg).Reachable Fifo s) : s.Spaced cfg := by
  have anyRun : (sendGate cfg).Reachable (fun _ _ => True) s := reached.mono fun _ _ _ => trivial
  have locked := SendGate.locked anyRun
  constructor
  · exact (clocked anyRun).apart
  · exact (clocked anyRun).apart.imp (Apart.imp Binary64.sub_le_nearest)
  · intro i j first second
    exact Option.some.inj ((locked.held (.inr first)).symm.trans (locked.held (.inr second)))
  · exact inside_or_finished anyRun
  · have accepted : s.accepted = s.served ++ s.holder.toList ++ s.waiters :=
      Server.accepted_of_simulation (server_simulation cfg) reached
    rw [started_eq reached, accepted]
    apply List.IsPrefix.trans _ (List.prefix_append _ _)
    apply (List.prefix_append_right_inj _).mpr
    unfold onAir
    cases s.holder with
    | none => exact List.prefix_rfl
    | some i =>
        rw [Option.filter_some]
        split
        · exact List.prefix_rfl
        · exact List.nil_prefix

/-- Two seconds between transmissions and two after a reception. -/
def twoSeconds : SendConfig := ⟨2, 2, 64⟩

/-- A direct message whose coroutine waits for an acknowledgement. -/
def dmPacket : Packet := ⟨.dm, none, some "a1b2c3d4e5f6".toList, 4, true, true, some "look".toList⟩

/-- Two sends, the first of which raises; a message is heard while the second waits
for the spacing, and it waits on for the guard. -/
def crowdedAir : List Act :=
  [.send dmPacket, .acquire 0, .send dmPacket, .tick 1, .finish 0 .raised, .acquire 1, .tick 2,
    .receive, .tick 3, .wake 1, .tick 4, .wake 1]

theorem sends_are_spaced_crowded :
    ∃ s : SendGate,
      s.log = [.started 1 4, .heard 2, .finished 0 1, .started 0 0] ∧ s.Spaced twoSeconds := by
  obtain ⟨s, reached, logged⟩ := System.reaches (sendGate twoSeconds) Fifo
    (fun s => s.log = [.started 1 4, .heard 2, .finished 0 1, .started 0 0])
    crowdedAir (fun _ _ _ => trivial) (by decide +kernel)
  exact ⟨s, logged, sends_are_spaced (reached.mono fun _ _ guard => guard.1)⟩

/-- The doubles next to 4095.9 and to 4097.9; the first and two make the second, rounded. -/
def before4096 : ℚ := 9006979352415437 / 2 ^ 41

def after4096 : ℚ := 2252844349731635 / 2 ^ 39

/-- The second transmission starts when the clock shows the rounded deadline. -/
theorem starts_early :
    ∃ s, (sendGate twoSeconds).Reachable Fifo s ∧
      s.log = [.started 1 after4096, .finished 0 before4096, .started 0 0] ∧
      after4096 < before4096 + twoSeconds.sendSpacingSeconds := by
  obtain ⟨s, reached, logged⟩ := System.reaches (sendGate twoSeconds) Fifo
    (fun s => s.log = [.started 1 after4096, .finished 0 before4096, .started 0 0])
    [.send dmPacket, .acquire 0, .tick before4096, .finish 0 (.returned true), .send dmPacket,
      .tick after4096, .acquire 1]
    (fun _ _ _ => trivial) (by decide +kernel)
  exact ⟨s, reached.mono fun _ _ guard => guard.1, logged, by decide +kernel⟩

end SendGate

end Zorkbot.Bot
