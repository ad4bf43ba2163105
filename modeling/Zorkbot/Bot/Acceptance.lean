/-
# What becomes of a command

Every player is served by one worker at a time, in the order in which commands
were accepted. The gate refuses what arrives while a response is pending, except
an interrupt, and an interrupt is refused exactly when the queue is taken: by
another interrupt, or by the first command of a worker that has not run yet.
-/

import Zorkbot.Bot.GateLanes

namespace Zorkbot.Bot

open Transition

namespace Gate

variable {s t : Gate}

/-! ## A player's lane is a server -/

def acceptedOf (s : Gate) (p : Str) : List Item := s.accepted.filter (·.player = p)

def handledOf (s : Gate) (p : Str) : List Item := s.handled.filter (·.player = p)

/-- The item that a player's worker is handling. -/
def inHand (s : Gate) (p : Str) : Option Item := (s.worker p).bind Worker.item

/-- The lane of a player, forgetting the tasks. -/
def server (s : Gate) (p : Str) : Server Item where
  waiting := s.queue p
  inHand := s.inHand p
  served := s.handledOf p
  accepted := s.acceptedOf p

theorem acceptedOf_put (i : Item) (s : Gate) (p : Str) :
    (s.put i).acceptedOf p = if i.player = p then s.acceptedOf p ++ [i] else s.acceptedOf p := by
  simp only [acceptedOf, put, List.filter_append]
  split <;> simp_all

theorem handledOf_ended (i : Item) (s : Gate) (p : Str) :
    (s.ended i).handledOf p = if i.player = p then s.handledOf p ++ [i] else s.handledOf p := by
  simp only [handledOf, ended, List.filter_append]
  split <;> simp_all

@[simp]
theorem put_handledOf (i : Item) (s : Gate) (p : Str) :
    (s.put i).handledOf p = s.handledOf p := rfl

theorem server_put (i : Item) (s : Gate) (p : Str) :
    (s.put i).server p =
      if p = i.player then
        { s.server p with waiting := s.queue p ++ [i], accepted := s.acceptedOf p ++ [i] }
      else s.server p := by
  split
  · next same =>
      subst same
      simp [server, put_queue, acceptedOf_put, inHand]
  · next other => simp [server, put_queue, acceptedOf_put, other, Ne.symm other, inHand]

/-- A worker that was just created has nothing in hand. -/
theorem server_employ (staffed : s.workers.Staffed (· ≠ .done)) {p : Str}
    (idle : s.inHand p = none) (q : Str) : (s.employ p).server q = s.server q := by
  have same : (s.employ p).inHand q = s.inHand q := by
    unfold inHand
    rw [employ_worker staffed]
    split
    · next same =>
        subst same
        exact idle.symm
    · rfl
  rw [server, same]
  rfl

theorem server_take (staffed : s.workers.Staffed (· ≠ .done)) {n : Nat} {p : Str} {v : Worker}
    (i : Item) (rest : List Item) (there : s.workers.task n = some (p, v)) (live : v ≠ .done)
    (q : Str) :
    (s.take n p i rest).server q =
      if q = p then { s.server q with waiting := rest, inHand := some i } else s.server q := by
  have accepted : (s.take n p i rest).acceptedOf q = s.acceptedOf q := rfl
  have handled : (s.take n p i rest).handledOf q = s.handledOf q := rfl
  unfold server inHand
  rw [take_worker staffed i rest there live, take_queue, accepted, handled]
  split
  · rfl
  · rfl

theorem server_rest (staffed : s.workers.Staffed (· ≠ .done)) {n : Nat} {p : Str} {v : Worker}
    (there : s.workers.task n = some (p, v)) (live : v ≠ .done) (q : Str) :
    (s.setTask n .done).server q =
      if q = p then { s.server q with inHand := none } else s.server q := by
  have accepted : (s.setTask n .done).acceptedOf q = s.acceptedOf q := rfl
  have handled : (s.setTask n .done).handledOf q = s.handledOf q := rfl
  unfold server inHand
  rw [setTask_worker staffed .done there live, setTask_queue, accepted, handled]
  split
  · rfl
  · rfl

theorem server_ended (i : Item) (s : Gate) (p : Str) :
    (s.ended i).server p =
      if p = i.player then { s.server p with served := s.handledOf p ++ [i] }
      else s.server p := by
  have accepted : (s.ended i).acceptedOf p = s.acceptedOf p := rfl
  have inHand : (s.ended i).inHand p = s.inHand p := rfl
  unfold server
  rw [handledOf_ended, accepted, inHand]
  split
  · next same => simp [same]; rfl
  · next other => simp [Ne.symm other]; rfl

/-- A call of `enqueue` is an acceptance or nothing. -/
theorem path_enqueues {p : Str} {i : Item} {answer : Bool} (sound : s.Sound)
    (outcome : Enqueues s i t answer) : (s.server p).Path (t.server p) := by
  have put : (s.server p).Path ((s.counted.put i).server p) := by
    rw [server_put]
    split
    · exact Server.path_accept _ _
    · exact .refl _
  cases outcome with
  | refused | crowded => exact .refl _
  | behind busy interrupts empty => exact put
  | first free empty =>
      have staffed : (s.counted.put i).workers.Staffed (· ≠ .done) := sound.staffed
      have idle : (s.counted.put i).inHand i.player = none := by
        unfold busy at free
        unfold Gate.inHand
        change (s.worker i.player).bind _ = none
        cases known : s.worker i.player with
        | none => rfl
        | some w =>
            simp only [known, Option.any_some, decide_eq_false_iff_not, Decidable.not_not] at free
            subst free
            rfl
      rw [server_employ staffed idle]
      exact put

/-- What a live worker of a player has in hand. -/
theorem Sound.inHand (sound : s.Sound) {n : Nat} {p : Str} {w : Worker}
    (there : s.workers.task n = some (p, w)) (live : w ≠ .done) : s.inHand p = w.item := by
  unfold Gate.inHand worker
  rw [sound.staffed.current there live]
  rfl

/-- The lane of a player is a server: each step of the gate is a run of it. -/
theorem server_simulation (p : Str) :
    gate.Simulation (fun _ _ => True) (Server.machine Item) fun s v => s.server p = v := by
  constructor
  · rfl
  · rintro s a t _ reached rfl _ taken
    refine ⟨t.server p, ?_, rfl⟩
    have sound := Gate.sound reached
    cases gate_steps sound taken with
    | dispatches outcome => exact path_enqueues sound outcome
    | @begins n q i there line =>
        rw [server_take sound.staffed i [] there (by simp)]
        split
        · next same =>
            subst same
            exact Server.path_take (sound.inHand there (by simp)) line
        · exact .refl _
    | @rests n q i _ there line =>
        have staffed : (s.ended i).workers.Staffed (· ≠ .done) := sound.staffed
        rw [server_rest staffed there (by simp), server_ended, sound.own there]
        split
        · next same =>
            subst same
            exact Server.path_finish (sound.inHand there (by simp))
        · exact .refl _
    | @continues n q i j _ there line interrupts =>
        have staffed : (s.ended i).workers.Staffed (· ≠ .done) := sound.staffed
        rw [server_take staffed j [] there (by simp), server_ended, sound.own there]
        split
        · next same =>
            subst same
            apply System.Path.trans (Server.path_finish (sound.inHand there (by simp)))
            exact Server.path_take rfl line
        · exact .refl _

/-- A player's commands are handled in the order of their acceptance. -/
theorem acceptedOf_eq (reached : gate.Reachable (fun _ _ => True) s) (p : Str) :
    s.acceptedOf p = s.handledOf p ++ (s.inHand p).toList ++ s.queue p :=
  Server.accepted_of_simulation (server_simulation p) reached

/-- What is accepted was so before, or it is what has just arrived. -/
theorem accepted_enqueue {ctx : Context} {command restArgs : Str} {i : Item}
    (known : i ∈ (s.enqueue ctx command restArgs).1.accepted) :
    i ∈ s.accepted ∨ i = ⟨ctx, command, restArgs, s.calls⟩ := by
  have put (known : i ∈ s.accepted ++ [⟨ctx, command, restArgs, s.calls⟩]) :
      i ∈ s.accepted ∨ i = ⟨ctx, command, restArgs, s.calls⟩ :=
    (List.mem_append.mp known).imp_right List.mem_singleton.mp
  simp only [enqueue] at known
  split at known
  · exact .inl known
  · split at known
    · exact .inl known
    · split at known
      · exact put known
      · exact put known

theorem calls_enqueue (ctx : Context) (command restArgs : Str) (s : Gate) :
    (s.enqueue ctx command restArgs).1.calls = s.calls + 1 := by
  simp only [enqueue]
  repeat' split
  all_goals rfl

/-- Only a dispatch is a call of `enqueue`. -/
theorem uncalled {a : Act} (other : ∀ ctx command restArgs, a ≠ .dispatch ctx command restArgs)
    (taken : s.step a = some t) : t.calls = s.calls ∧ t.accepted = s.accepted := by
  have turned (n : Nat) (p : Str) (u : Gate) :
      (u.turn n p).calls = u.calls ∧ (u.turn n p).accepted = u.accepted := by
    unfold turn
    split <;> exact ⟨rfl, rfl⟩
  cases a with
  | dispatch ctx command restArgs => exact absurd rfl (other ctx command restArgs)
  | begin n | finish n outcome =>
      simp only [step] at taken
      split at taken
      · simp only [Option.some.injEq] at taken
        exact taken ▸ turned ..
      · cases taken

/-- An accepted item stays accepted. -/
theorem accepted_step {i : Item} {a : Act} (taken : s.step a = some t) (known : i ∈ s.accepted) :
    i ∈ t.accepted := by
  cases a with
  | dispatch ctx command restArgs =>
      simp only [step, enqueue, Option.some.injEq] at taken
      subst taken
      split
      · exact known
      · split
        · exact known
        · split
          · exact List.mem_append_left _ known
          · exact List.mem_append_left _ known
  | begin | finish => exact (uncalled (by simp) taken).2 ▸ known

/-- What a worker handles was accepted. -/
theorem accepted_of_task (reached : gate.Reachable (fun _ _ => True) s) {n : Nat} {p : Str}
    {i : Item} (there : s.workers.task n = some (p, .handling i)) : i ∈ s.accepted := by
  have line := acceptedOf_eq reached p
  rw [(Gate.sound reached).inHand there (by simp)] at line
  have mine : i ∈ s.acceptedOf p := by simp [line, Worker.item]
  exact List.mem_of_mem_filter mine

/-! ## Every call is accounted for -/

/-- The calls are numbered, each is accepted or dropped, and the sink was told
of the dropped ones. -/
structure Accounted (s : Gate) : Prop where
  calls : ((s.accepted ++ s.dropped.map (·.1)).map Item.call).Perm (List.range s.calls)
  sink : s.sink.filter (fun r => !r.accepted) = s.dropped.map fun d => d.1.record (some d.2)

theorem accounted_put (accounted : s.Accounted) {i : Item} (number : i.call = s.calls) :
    (s.counted.put i).Accounted := by
  constructor
  · have numbers : (s.calls :: (s.accepted ++ s.dropped.map (·.1)).map Item.call).Perm
        (List.range (s.calls + 1)) := by
      rw [List.range_succ]
      exact (accounted.calls.cons _).trans (List.perm_append_singleton _ _).symm
    simp only [put, counted, List.map_append, List.map_cons, number,
      List.append_assoc, List.cons_append, List.nil_append] at numbers ⊢
    exact List.perm_middle.trans numbers
  · exact accounted.sink

theorem accounted_drop (accounted : s.Accounted) {i : Item} (number : i.call = s.calls)
    (r : RejectReason) : (s.counted.drop i r).Accounted := by
  constructor
  · simp only [drop, counted, List.map_append, List.map_cons, List.map_nil, number,
      List.range_succ]
    rw [← List.append_assoc]
    apply List.Perm.append_right
    simpa using accounted.calls
  · simp [drop, counted, accounted.sink, Item.record]

theorem accounted_enqueues {ctx : Context} {command restArgs : Str} {answer : Bool}
    (accounted : s.Accounted) (outcome : Enqueues s (s.arriving ctx command restArgs) t answer) :
    t.Accounted := by
  cases outcome with
  | refused | crowded => exact accounted_drop accounted rfl _
  | behind => exact accounted_put accounted rfl
  | first =>
      have put := accounted_put accounted (i := s.arriving ctx command restArgs) rfl
      exact ⟨put.calls, put.sink⟩

theorem accounted (reached : gate.Reachable (fun _ _ => True) s) : s.Accounted := by
  apply reached.invariant (motive := Accounted)
  · exact ⟨.refl _, rfl⟩
  · intro s a t reached accounted _ taken
    cases gate_steps (Gate.sound reached) taken with
    | dispatches outcome => exact accounted_enqueues accounted outcome
    | rests => exact ⟨accounted.calls, accounted.sink⟩
    | begins | continues =>
        constructor
        · exact accounted.calls
        · simp [take, pull, setTask, ended, Item.record, accounted.sink]

/-- Accepted commands have growing numbers. -/
theorem accepted_increasing (reached : gate.Reachable (fun _ _ => True) s) :
    s.accepted.Pairwise (·.call < ·.call) := by
  apply reached.invariant (motive := fun s => s.accepted.Pairwise (·.call < ·.call))
  · exact .nil
  · intro s a t reached increasing _ taken
    have older : ∀ i ∈ s.accepted, i.call < s.calls := by
      intro i present
      have numbered : i.call ∈ (s.accepted ++ s.dropped.map (·.1)).map Item.call :=
        List.mem_map_of_mem (List.mem_append_left _ present)
      exact List.mem_range.mp ((accounted reached).calls.mem_iff.mp numbered)
    have grown : ∀ {i : Item}, i.call = s.calls →
        (s.accepted ++ [i]).Pairwise (·.call < ·.call) := by
      intro i number
      apply List.pairwise_append.mpr ⟨increasing, List.pairwise_singleton _ _, ?_⟩
      intro j present k new
      rw [List.mem_singleton.mp new, number]
      exact older j present
    cases gate_steps (Gate.sound reached) taken with
    | dispatches outcome =>
        cases outcome with
        | refused | crowded => exact increasing
        | behind | first => exact grown rfl
    | begins | rests | continues => exact increasing

/-! ## A schedule -/

/-- The command word of `!end`. -/
def endCommand : Str := "end".toList

/-- A direct message of a player. -/
def directMessage (pubkeyPrefix text : String) : Context :=
  ⟨⟨text.toList, none, some pubkeyPrefix.toList, true, 0⟩, text.toList⟩

def aliceLooks : Act := .dispatch (directMessage "a1b2c3d4e5f6" "look") "_game".toList "look".toList

def aliceEnds : Context := directMessage "a1b2c3d4e5f6" "!end"

/-- A command is answered while two interrupts arrive. -/
def impatient : List Act :=
  [aliceLooks, .begin 0, .dispatch aliceEnds endCommand [], .dispatch aliceEnds endCommand [],
    .finish 0 .raised]

/-! ## The gate -/

/-- The task runs or will run `_run_worker` for the player. -/
def Live (s : Gate) (p : Str) (n : Nat) : Prop :=
  ∃ w, s.workers.task n = some (p, w) ∧ w ≠ .done

theorem Sound.busy_iff (sound : s.Sound) (p : Str) : s.busy p = true ↔ ∃ n, s.Live p n := by
  constructor
  · intro busy
    obtain ⟨w, now, live⟩ := (Option.any_eq_true _ _).mp busy
    obtain ⟨n, -, there⟩ := sound.staffed.of_current now
    exact ⟨n, w, there, by simpa using live⟩
  · rintro ⟨n, w, there, live⟩
    simp [busy, worker, sound.staffed.current there live, live]

/-- What the gate promises in every state. -/
structure Gated (s : Gate) : Prop where
  /-- A player has at most one live worker. -/
  one : ∀ p n n', s.Live p n → s.Live p n' → n = n'
  /-- At most one command waits behind it. -/
  room : ∀ p, (s.queue p).length ≤ 1
  /-- A queue that holds a command has a live worker, -/
  served : ∀ p, s.queue p ≠ [] → ∃ n, s.Live p n
  /-- and a live worker can take its next step, however its handler ends. -/
  moves : ∀ p n, s.Live p n → (∃ t, s.step (.begin n) = some t) ∨
    ∀ outcome, ∃ t, s.step (.finish n outcome) = some t
  /-- Each call of `enqueue` accepted its command or dropped it, once; -/
  calls : ((s.accepted ++ s.dropped.map (·.1)).map Item.call).Perm (List.range s.calls)
  /-- what was dropped is recorded as dropped, -/
  sink : s.sink.filter (fun r => !r.accepted) = s.dropped.map fun d => d.1.record (some d.2)
  /-- and what was accepted has been handled, in the order of acceptance, except
  for the command in hand and the one that waits. -/
  order : ∀ p, s.acceptedOf p = s.handledOf p ++ (s.inHand p).toList ++ s.queue p
  /-- So a player without a live worker has had every accepted command handled. -/
  settled : ∀ p, (∀ n, ¬ s.Live p n) → s.acceptedOf p = s.handledOf p
  /-- A command that is no interrupt is accepted exactly without a live worker. -/
  accepts : ∀ ctx command restArgs, command ∉ interruptCommands →
    ((s.enqueue ctx command restArgs).2 = true ↔ ∀ n, ¬ s.Live (Item.playerId ctx) n)

theorem Sound.enqueue_iff (sound : s.Sound) {ctx : Context} {command restArgs : Str}
    (plain : command ∉ interruptCommands) :
    (s.enqueue ctx command restArgs).2 = true ↔ s.busy (Item.playerId ctx) = false := by
  have outcome : Enqueues s (s.arriving ctx command restArgs) (s.enqueue ctx command restArgs).1
      (s.enqueue ctx command restArgs).2 := enqueue_cases sound rfl
  have noInterrupt : (s.arriving ctx command restArgs).interrupts = false := by
    exact decide_eq_false plain
  have player : (s.arriving ctx command restArgs).player = Item.playerId ctx := rfl
  generalize (s.enqueue ctx command restArgs).1 = t at outcome
  generalize (s.enqueue ctx command restArgs).2 = answer at outcome
  cases outcome <;> simp_all

theorem command_gate (reached : gate.Reachable (fun _ _ => True) s) : s.Gated := by
  have sound := Gate.sound reached
  have order := acceptedOf_eq reached
  have free : ∀ p, (∀ n, ¬ s.Live p n) → s.busy p = false := by
    intro p none
    rw [← Bool.not_eq_true, sound.busy_iff]
    simpa using none
  constructor
  · rintro p n n' ⟨w, there, live⟩ ⟨w', there', live'⟩
    exact sound.staffed.unique there live there' live'
  · intro p
    have lane := sound.lane p
    generalize s.queue p = waiting at lane
    generalize s.worker p = w at lane
    cases lane <;> simp
  · intro p waiting
    by_contra none
    exact waiting (sound.queue_eq_nil (free p (by simpa using none)))
  · rintro p n ⟨w, there, live⟩
    cases w with
    | created => exact .inl ⟨s.turn n p, by simp only [step, there]⟩
    | handling i => exact .inr fun outcome => ⟨(s.ended i).turn n p, by simp only [step, there]⟩
    | done => exact absurd rfl live
  · exact (accounted reached).calls
  · exact (accounted reached).sink
  · exact order
  · intro p none
    have idle := free p none
    have held : s.inHand p = Option.none := by
      unfold busy at idle
      unfold inHand
      cases known : s.worker p with
      | none => rfl
      | some w => simp_all [Worker.item]
    rw [order p, held, sound.queue_eq_nil idle]
    simp
  · intro ctx command restArgs plain
    rw [sound.enqueue_iff plain, ← Bool.not_eq_true, sound.busy_iff]
    simp

theorem command_gate_impatient :
    ∃ s : Gate, (s.dropped.map (·.2) = [.queueFull] ∧ s.handled.length = 1) ∧ s.Gated := by
  obtain ⟨s, reached, dropped⟩ := System.reaches gate (fun _ _ => True)
    (fun s => s.dropped.map (·.2) = [.queueFull] ∧ s.handled.length = 1) impatient
    (fun _ _ _ => trivial) (by decide)
  exact ⟨s, dropped, command_gate (reached.mono fun _ _ _ => trivial)⟩

/-! ## Interrupts -/

/-- An interrupt waits behind a response of the player that is in flight. -/
def InterruptWaits (s : Gate) (p : Str) : Prop :=
  ∃ i j, s.worker p = some (.handling i) ∧ j ∈ s.queue p ∧ j.interrupts = true

/-- The player's worker has not run since it was created. -/
def Unstarted (s : Gate) (p : Str) : Prop := s.worker p = some .created

/-- An interrupt is refused when the queue is taken, and only an unstarted worker
leaves anything but an interrupt in it. -/
theorem Sound.end_refused_iff (sound : s.Sound) (ctx : Context) (restArgs : Str) :
    (s.enqueue ctx endCommand restArgs).2 = false ↔
      s.Unstarted (Item.playerId ctx) ∨ s.InterruptWaits (Item.playerId ctx) := by
  have outcome : Enqueues s (s.arriving ctx endCommand restArgs)
      (s.enqueue ctx endCommand restArgs).1 (s.enqueue ctx endCommand restArgs).2 :=
    enqueue_cases sound rfl
  generalize (s.enqueue ctx endCommand restArgs).1 = t at outcome
  generalize (s.enqueue ctx endCommand restArgs).2 = answer at outcome
  have lane := sound.lane (Item.playerId ctx)
  unfold Unstarted InterruptWaits
  cases outcome with
  | refused _ plain => simp [Item.interrupts, arriving, endCommand, interruptCommands] at plain
  | crowded busy interrupts full =>
      change s.queue (Item.playerId ctx) ≠ [] at full
      generalize s.queue (Item.playerId ctx) = waiting at lane full
      generalize s.worker (Item.playerId ctx) = w at lane
      cases lane with
      | unknown | past | answering => exact absurd rfl full
      | fresh own => simp
      | interrupted own next interrupts => simpa using interrupts
  | behind busy interrupts empty =>
      change s.queue (Item.playerId ctx) = [] at empty
      rw [empty] at lane ⊢
      generalize s.worker (Item.playerId ctx) = w at lane
      cases lane <;> simp
  | first free empty =>
      change s.queue (Item.playerId ctx) = [] at empty
      rw [empty] at lane ⊢
      generalize s.worker (Item.playerId ctx) = w at lane
      cases lane <;> simp

/-- An `!end` is dropped only for another interrupt behind the response in flight,
unless the player's worker has not taken its first command yet. -/
theorem end_gets_through_iff (reached : gate.Reachable (fun _ _ => True) s) (ctx : Context)
    (restArgs : Str) :
    ((s.enqueue ctx endCommand restArgs).2 = false → s.InterruptWaits (Item.playerId ctx)) ↔
      ¬ s.Unstarted (Item.playerId ctx) := by
  have refused := (Gate.sound reached).end_refused_iff ctx restArgs
  constructor
  · intro through unstarted
    obtain ⟨i, j, handling, -⟩ := through (refused.mpr (.inl unstarted))
    rw [Unstarted, handling] at unstarted
    cases unstarted
  · intro started dropped
    exact (refused.mp dropped).resolve_left started

theorem end_gets_through_iff_impatient :
    ∃ s : Gate, ¬ s.Unstarted (Item.playerId aliceEnds) ∧
      ((s.enqueue aliceEnds endCommand []).2 = false →
        s.InterruptWaits (Item.playerId aliceEnds)) := by
  obtain ⟨s, reached, started⟩ := System.reaches gate (fun _ _ => True)
    (fun s => s.worker (Item.playerId aliceEnds) ≠ some .created) (impatient.take 3)
    (fun _ _ _ => trivial) (by decide)
  exact ⟨s, started, (end_gets_through_iff (reached.mono fun _ _ _ => trivial) _ _).mpr started⟩

/-- A command and an `!end` right behind it, before the new worker has run. -/
theorem end_dropped_before_worker_runs :
    ∃ s, gate.Reachable (fun _ _ => True) s ∧ (s.enqueue aliceEnds endCommand []).2 = false ∧
      ¬ s.InterruptWaits (Item.playerId aliceEnds) := by
  obtain ⟨s, reached, dropped, fresh⟩ := System.reaches gate (fun _ _ => True)
    (fun s => (s.enqueue aliceEnds endCommand []).2 = false ∧
      s.worker (Item.playerId aliceEnds) = some .created) [aliceLooks] (fun _ _ _ => trivial)
    (by decide)
  refine ⟨s, reached.mono fun _ _ _ => trivial, dropped, ?_⟩
  rintro ⟨i, j, handling, -⟩
  rw [fresh] at handling
  cases handling

end Gate

end Zorkbot.Bot
