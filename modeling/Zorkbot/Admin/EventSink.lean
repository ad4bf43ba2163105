/-
# The event sink

`SqliteEventSink` takes events in a queue, and one task writes them to the store in
batches. While it fills a batch it holds events that are in the queue no more. `stop`
cancels the task wherever it waits and passes on what is left in the queue, so it
passes on every event accepted before it just when the task held no batch.
-/

import Mathlib.Data.List.Basic
import Zorkbot.Transition.System

namespace Zorkbot.Admin

open Transition

/-- The numbers a sink is made with, the interval in microseconds. -/
structure Sizes where
  queueSize : Int := 1024
  batchInterval : Int := 500000
  batchSize : Int := 100

/-- An accepted event, with its place in the order of acceptance. -/
structure Entry (ε : Type) where
  number : Nat
  event : ε
  deriving DecidableEq

/-- Where the task of `_writer_loop` is. -/
inductive Writer (ε : Type)
  /-- `start` was not called. -/
  | absent
  | created
  /-- It waits for the first event of a batch. -/
  | getting
  /-- It waits for one more event. -/
  | filling (batch : List (Entry ε)) (deadline : Int)
  /-- It waits for `run_many`. -/
  | writing (batch : List (Entry ε))
  | ended
  deriving DecidableEq

/-- What a call of `stop` finds: what was accepted by then, and where the task is. -/
structure Found (ε : Type) where
  accepted : List (Entry ε)
  writer : Writer ε
  deriving DecidableEq

/-- Where the call of `stop` is. -/
inductive Stop (ε : Type)
  | idle
  /-- The task is cancelled, and `stop` waits for its end. -/
  | cancelling (found : Found ε)
  /-- It waits for `run_many`. -/
  | draining (found : Found ε) (batch : List (Entry ε))
  | returned (found : Found ε)
  deriving DecidableEq

structure SqliteEventSink (ε : Type) where
  queue : List (Entry ε)
  writer : Writer ε
  stop : Stop ε
  /-- The batches passed to `run_many`, in this order. -/
  passed : List (List (Entry ε))
  accepted : List (Entry ε)

/-- What may happen to a sink. -/
inductive SinkAct (ε : Type)
  | enqueue (event : ε)
  | start
  /-- The task runs: for the first time, or because the queue is not empty. -/
  | run (clock : Nat → Int)
  /-- The wait for one more event times out. -/
  | expire
  /-- The task's `run_many` returns or raises. -/
  | wrote (clock : Nat → Int)
  | stop
  /-- The cancellation reaches the task. -/
  | cancelled
  /-- `stop` goes on, as the task has ended. -/
  | drain
  | drained

variable {ε : Type} {sizes : Sizes}

/-- The event that comes in. -/
def SinkAct.arrival : SinkAct ε → Option ε
  | .enqueue event => some event
  | _ => none

namespace Writer

/-- The events the task has taken from the queue and passed to nobody. -/
def held : Writer ε → List (Entry ε)
  | .filling batch _ => batch
  | _ => []

/-- What the task passes to `run_many` when it gets here. -/
def passes : Writer ε → List (List (Entry ε))
  | .writing batch => [batch]
  | _ => []

/-- The task is in the middle of a batch. -/
def fills : Writer ε → Bool
  | .filling .. => true
  | _ => false

/-- The inner loop of `_writer_loop`, up to where the task waits. It reads the clock
once at each length of the batch, and gets an event that is there without waiting. -/
def fill (sizes : Sizes) (clock : Nat → Int) (deadline : Int) :
    List (Entry ε) → List (Entry ε) → Writer ε × List (Entry ε)
  | batch, [] =>
      if batch.length < sizes.batchSize ∧ 0 < deadline - clock batch.length then
        (.filling batch deadline, [])
      else (.writing batch, [])
  | batch, entry :: rest =>
      if batch.length < sizes.batchSize ∧ 0 < deadline - clock batch.length then
        fill sizes clock deadline (batch ++ [entry]) rest
      else (.writing batch, entry :: rest)

/-- `_writer_loop` from its head, up to where the task waits. -/
def collect (sizes : Sizes) (clock : Nat → Int) :
    List (Entry ε) → Writer ε × List (Entry ε)
  | [] => (.getting, [])
  | entry :: rest => fill sizes clock (clock 0 + sizes.batchInterval) [entry] rest

end Writer

namespace SqliteEventSink

def init : SqliteEventSink ε := ⟨[], .absent, .idle, [], []⟩

/-- The event goes into the queue. -/
def accept (event : ε) (s : SqliteEventSink ε) : SqliteEventSink ε :=
  let entry : Entry ε := ⟨s.accepted.length, event⟩
  { s with queue := s.queue ++ [entry], accepted := s.accepted ++ [entry] }

/-- The queue is full. -/
def full (sizes : Sizes) (s : SqliteEventSink ε) : Bool :=
  decide (0 < sizes.queueSize) && decide (sizes.queueSize ≤ s.queue.length)

/-- `_enqueue`. How many events it drops is only logged. -/
def enqueue (sizes : Sizes) (event : ε) (s : SqliteEventSink ε) : SqliteEventSink ε :=
  if s.full sizes then s else s.accept event

/-- The task waits anew. -/
def turn (next : Writer ε × List (Entry ε)) (s : SqliteEventSink ε) : SqliteEventSink ε :=
  { s with writer := next.1, queue := next.2, passed := s.passed ++ next.1.passes }

/-- `_drain_remaining`, up to where it waits or returns. -/
def drainRemaining (found : Found ε) (s : SqliteEventSink ε) : SqliteEventSink ε :=
  match s.queue with
  | [] => { s with stop := .returned found }
  | entry :: rest =>
      { s with
        queue := []
        passed := s.passed ++ [entry :: rest]
        stop := .draining found (entry :: rest) }

def step (sizes : Sizes) (s : SqliteEventSink ε) : SinkAct ε → Option (SqliteEventSink ε)
  | .enqueue event => some (s.enqueue sizes event)
  | .start =>
      match s.stop, s.writer with
      | .idle, .absent => some { s with writer := .created }
      | _, _ => none
  | .run clock =>
      -- a task that is to be cancelled takes no other step
      match s.stop, s.writer, s.queue with
      | .idle, .created, queue => some (s.turn (Writer.collect sizes clock queue))
      | .idle, .getting, entry :: rest =>
          some (s.turn (Writer.collect sizes clock (entry :: rest)))
      | .idle, .filling batch deadline, entry :: rest =>
          some (s.turn (Writer.fill sizes clock deadline (batch ++ [entry]) rest))
      | _, _, _ => none
  | .expire =>
      match s.stop, s.writer with
      | .idle, .filling batch _ => some (s.turn (.writing batch, s.queue))
      | _, _ => none
  | .wrote clock =>
      match s.stop, s.writer with
      | .idle, .writing _ => some (s.turn (Writer.collect sizes clock s.queue))
      | _, _ => none
  | .stop =>
      match s.stop, s.writer with
      | .idle, .absent => some (s.drainRemaining ⟨s.accepted, .absent⟩)
      | .idle, writer => some { s with stop := .cancelling ⟨s.accepted, writer⟩ }
      | _, _ => none
  | .cancelled =>
      match s.stop, s.writer with
      | .cancelling _, .ended => none
      | .cancelling _, _ => some { s with writer := .ended }
      | _, _ => none
  | .drain =>
      match s.stop, s.writer with
      | .cancelling found, .ended => some (s.drainRemaining found)
      | _, _ => none
  | .drained =>
      match s.stop with
      | .draining found _ => some { s with stop := .returned found }
      | _ => none

/-- A sink, with any events. -/
def system (sizes : Sizes) : System (SqliteEventSink ε) (SinkAct ε) := ⟨init, step sizes⟩

end SqliteEventSink

namespace Writer

/-- The events a task has taken from the queue since it last got to the loop's head. -/
def contents (next : Writer ε) : List (Entry ε) := next.passes.flatten ++ next.held

/-- A task that runs: it is neither absent nor ended, and holds no empty batch. -/
structure Running (w : Writer ε) : Prop where
  present : w ≠ .absent
  alive : w ≠ .ended
  nonempty : w.fills = true → w.held ≠ []

theorem held_of_not_fills {w : Writer ε} (idle : w.fills = false) : w.held = [] := by
  cases w with
  | filling => cases idle
  | _ => rfl

theorem fill_contents (clock : Nat → Int) (deadline : Int) (batch queue : List (Entry ε)) :
    (fill sizes clock deadline batch queue).1.contents ++
      (fill sizes clock deadline batch queue).2 = batch ++ queue := by
  induction queue generalizing batch with
  | nil =>
      unfold fill
      split <;> simp [contents, passes, held]
  | cons entry rest ih =>
      unfold fill
      split
      · rw [ih, List.append_assoc, List.singleton_append]
      · simp [contents, passes, held]

theorem fill_running (clock : Nat → Int) (deadline : Int) {batch : List (Entry ε)}
    (nonempty : batch ≠ []) (queue : List (Entry ε)) :
    (fill sizes clock deadline batch queue).1.Running := by
  induction queue generalizing batch with
  | nil =>
      unfold fill
      split
      · exact ⟨nofun, nofun, fun _ => nonempty⟩
      · exact ⟨nofun, nofun, nofun⟩
  | cons entry rest ih =>
      unfold fill
      split
      · exact ih (by simp)
      · exact ⟨nofun, nofun, nofun⟩

/-- A task waits for one more event when the queue is empty only. -/
theorem fill_drained (clock : Nat → Int) (deadline : Int) (batch queue : List (Entry ε))
    (fills : (fill sizes clock deadline batch queue).1.fills = true) :
    (fill sizes clock deadline batch queue).2 = [] := by
  induction queue generalizing batch with
  | nil =>
      unfold fill
      split <;> rfl
  | cons entry rest ih =>
      unfold fill at fills ⊢
      split at fills
      · next more =>
          rw [if_pos more]
          exact ih _ fills
      · cases fills

theorem collect_contents (clock : Nat → Int) (queue : List (Entry ε)) :
    (collect sizes clock queue).1.contents ++ (collect sizes clock queue).2 = queue := by
  cases queue with
  | nil => rfl
  | cons entry rest => exact fill_contents _ _ _ _

theorem collect_running (clock : Nat → Int) (queue : List (Entry ε)) :
    (collect sizes clock queue).1.Running := by
  cases queue with
  | nil => exact ⟨nofun, nofun, nofun⟩
  | cons entry rest => exact fill_running _ _ (by simp) _

theorem collect_drained (clock : Nat → Int) (queue : List (Entry ε))
    (fills : (collect sizes clock queue).1.fills = true) :
    (collect sizes clock queue).2 = [] := by
  cases queue with
  | nil => rfl
  | cons entry rest => exact fill_drained _ _ _ _ fills

end Writer

namespace SqliteEventSink

variable {s t : SqliteEventSink ε} {found : Found ε}

/-- What a step of the sink does, and the event that comes in. -/
inductive Moves (s : SqliteEventSink ε) : Option ε → SqliteEventSink ε → Prop
  | accepts (event : ε) : Moves s (some event) (s.accept event)
  | drops (event : ε) : Moves s (some event) s
  | starts (idle : s.stop = .idle) (absent : s.writer = .absent) :
      Moves s none { s with writer := .created }
  | turns {next : Writer ε × List (Entry ε)} (idle : s.stop = .idle)
      (same : next.1.contents ++ next.2 = s.writer.held ++ s.queue)
      (running : next.1.Running) (drained : next.1.fills = true → next.2 = []) :
      Moves s none (s.turn next)
  | stopsEarly (idle : s.stop = .idle) (absent : s.writer = .absent) :
      Moves s none (s.drainRemaining ⟨s.accepted, .absent⟩)
  | stops (idle : s.stop = .idle) (present : s.writer ≠ .absent) :
      Moves s none { s with stop := .cancelling ⟨s.accepted, s.writer⟩ }
  | ends (found : Found ε) (stopping : s.stop = .cancelling found) :
      Moves s none { s with writer := .ended }
  | drains {found : Found ε} (stopping : s.stop = .cancelling found) (ended : s.writer = .ended) :
      Moves s none (s.drainRemaining found)
  | returns {found : Found ε} {batch : List (Entry ε)} (stopping : s.stop = .draining found batch) :
      Moves s none { s with stop := .returned found }

theorem moves {a : SinkAct ε} (taken : s.step sizes a = some t) : s.Moves a.arrival t := by
  cases a with
  | enqueue event =>
      simp only [step, enqueue, Option.some.injEq] at taken
      subst taken
      split
      · exact .drops event
      · exact .accepts event
  | start =>
      simp only [step] at taken
      split at taken <;> cases taken
      next idle absent => exact .starts idle absent
  | run clock =>
      simp only [step] at taken
      split at taken <;> cases taken
      next idle writer =>
        refine .turns idle ?_ (Writer.collect_running _ _) (Writer.collect_drained _ _)
        rw [Writer.collect_contents, writer]
        rfl
      next idle writer queue =>
        refine .turns idle ?_ (Writer.collect_running _ _) (Writer.collect_drained _ _)
        rw [Writer.collect_contents, writer, queue]
        rfl
      next idle writer queue =>
        refine .turns idle ?_ (Writer.fill_running _ _ (by simp) _) (Writer.fill_drained _ _ _ _)
        rw [Writer.fill_contents, writer, queue]
        simp [Writer.held]
  | expire =>
      simp only [step] at taken
      split at taken <;> cases taken
      next idle writer =>
        refine .turns idle ?_ ⟨nofun, nofun, nofun⟩ nofun
        simp [Writer.contents, Writer.passes, Writer.held, writer]
  | wrote clock =>
      simp only [step] at taken
      split at taken <;> cases taken
      next idle writer =>
        refine .turns idle ?_ (Writer.collect_running _ _) (Writer.collect_drained _ _)
        rw [Writer.collect_contents, writer]
        rfl
  | stop =>
      simp only [step] at taken
      split at taken <;> cases taken
      next idle absent => exact .stopsEarly idle absent
      next idle present => exact .stops idle present
  | cancelled =>
      simp only [step] at taken
      split at taken <;> cases taken
      next stopping _ => exact .ends _ stopping
  | drain =>
      simp only [step] at taken
      split at taken <;> cases taken
      next stopping ended => exact .drains stopping ended
  | drained =>
      simp only [step] at taken
      split at taken <;> cases taken
      next stopping => exact .returns stopping

/-- The sink hands batches over, and what the task held, these batches and the queue are
the same events in the same order; or it leaves out what the task held. A task that comes
to wait for one more event leaves the queue empty. -/
structure Shifts (s t : SqliteEventSink ε) (batches : List (List (Entry ε))) : Prop where
  passed : t.passed = s.passed ++ batches
  pending : batches.flatten ++ t.writer.held ++ t.queue = s.writer.held ++ s.queue ∨
    batches = [] ∧ t.writer.held = [] ∧ t.queue = s.queue
  fills : t.writer.fills = true → t.queue = [] ∨ t.writer = s.writer ∧ t.queue = s.queue

theorem shifts_drainRemaining (found : Found ε) (held : s.writer.held = []) :
    ∃ batches, Shifts s (s.drainRemaining found) batches := by
  unfold drainRemaining
  split
  · exact ⟨[], by simp, .inl rfl, fun _ => .inr ⟨rfl, rfl⟩⟩
  · next entry rest there =>
      refine ⟨[entry :: rest], rfl, .inl ?_, fun _ => .inl rfl⟩
      simp [held, there]

theorem shifts (moved : s.Moves none t) : ∃ batches, Shifts s t batches := by
  cases moved with
  | starts idle absent => exact ⟨[], by simp, .inl (by simp [absent, Writer.held]), nofun⟩
  | @turns next idle same running drained =>
      refine ⟨next.1.passes, rfl, .inl ?_, fun fills => .inl (drained fills)⟩
      rw [← same]
      rfl
  | stopsEarly idle absent => exact shifts_drainRemaining _ (by rw [absent]; rfl)
  | stops => exact ⟨[], by simp, .inl rfl, fun _ => .inr ⟨rfl, rfl⟩⟩
  | ends => exact ⟨[], by simp, .inr ⟨rfl, rfl, rfl⟩, nofun⟩
  | drains stopping ended => exact shifts_drainRemaining _ (by rw [ended]; rfl)
  | returns => exact ⟨[], by simp, .inl rfl, fun _ => .inr ⟨rfl, rfl⟩⟩

/-! ## Where every accepted event is -/

/-- Entries are numbered from zero on. -/
def Numbered (s : SqliteEventSink ε) : Prop :=
  s.accepted.map (·.number) = List.range s.accepted.length

/-- An accepted event was passed on, is held by the task or is in the queue; after
`stop` it may also be one that the task held when it was cancelled. -/
def Accounted (s : SqliteEventSink ε) : Prop :=
  match s.stop with
  | .idle =>
      (s.writer = .absent ∨ s.writer.Running) ∧
        s.accepted = s.passed.flatten ++ s.writer.held ++ s.queue
  | .cancelling found =>
      found.writer.Running ∧ ∃ waiting later,
        found.accepted = s.passed.flatten ++ found.writer.held ++ waiting ∧
        s.accepted = found.accepted ++ later ∧ s.queue = waiting ++ later
  | .draining found _ | .returned found =>
      (found.writer = .absent ∨ found.writer.Running) ∧ ∃ front waiting later,
        found.accepted = front ++ found.writer.held ++ waiting ∧
        s.passed.flatten = front ++ waiting ++ later ∧
        s.accepted = found.accepted ++ later ++ s.queue

theorem numbered_moves {arrival : Option ε} (numbered : s.Numbered) (moved : s.Moves arrival t) :
    t.Numbered := by
  cases moved with
  | accepts event =>
      change (s.accepted ++ [_]).map _ = List.range (s.accepted ++ [_]).length
      rw [List.map_append, List.length_append, List.length_singleton, List.range_succ, numbered]
      rfl
  | stopsEarly | drains =>
      unfold drainRemaining
      split <;> exact numbered
  | _ => exact numbered

/-- What the queue holds when `stop` drains it is passed on. -/
theorem accounted_drainRemaining {front waiting later : List (Entry ε)}
    (writer : found.writer = .absent ∨ found.writer.Running)
    (passed : s.passed.flatten = front) (queue : s.queue = waiting ++ later)
    (before : found.accepted = front ++ found.writer.held ++ waiting)
    (accepted : s.accepted = found.accepted ++ later) :
    (s.drainRemaining found).Accounted := by
  unfold drainRemaining
  split
  · next empty =>
      obtain ⟨rfl, rfl⟩ := List.append_eq_nil_iff.mp (queue.symm.trans empty)
      refine ⟨writer, front, [], [], before, ?_, ?_⟩
      · simpa using passed
      · simpa [empty] using accepted
  · next entry rest there =>
      refine ⟨writer, front, waiting, later, before, ?_, ?_⟩
      · change (s.passed ++ [entry :: rest]).flatten = _
        rw [List.flatten_append, List.flatten_singleton, ← there, queue, passed, List.append_assoc]
      · simpa using accepted

theorem accounted_accept (accounted : s.Accounted) (event : ε) : (s.accept event).Accounted := by
  cases stops : s.stop with
  | idle =>
      simp only [Accounted, stops] at accounted
      simp only [Accounted, accept, stops]
      refine ⟨accounted.1, ?_⟩
      rw [accounted.2, List.append_assoc]
  | cancelling found =>
      simp only [Accounted, stops] at accounted
      obtain ⟨running, waiting, later, before, accepted, queue⟩ := accounted
      simp only [Accounted, accept, stops]
      refine ⟨running, waiting, later ++ [⟨s.accepted.length, event⟩], before, ?_, ?_⟩
      · rw [← List.append_assoc, ← accepted]
      · rw [← List.append_assoc, ← queue]
  | draining | returned =>
      simp only [Accounted, stops] at accounted
      obtain ⟨writer, front, waiting, later, before, passed, accepted⟩ := accounted
      simp only [Accounted, accept, stops]
      refine ⟨writer, front, waiting, later, before, passed, ?_⟩
      rw [← List.append_assoc, ← accepted]

theorem accounted_moves {arrival : Option ε} (accounted : s.Accounted)
    (moved : s.Moves arrival t) : t.Accounted := by
  cases moved with
  | accepts event => exact accounted_accept accounted event
  | drops => exact accounted
  | starts idle absent =>
      simp only [Accounted, idle] at accounted ⊢
      rw [absent] at accounted
      exact ⟨.inr ⟨nofun, nofun, nofun⟩, accounted.2⟩
  | @turns next idle same running =>
      simp only [Accounted, idle] at accounted
      simp only [Accounted, turn, idle]
      refine ⟨.inr running, ?_⟩
      calc s.accepted = s.passed.flatten ++ (s.writer.held ++ s.queue) := by
            rw [accounted.2, List.append_assoc]
        _ = s.passed.flatten ++ (next.1.passes.flatten ++ next.1.held ++ next.2) := by
            rw [← same, Writer.contents]
        _ = _ := by simp only [List.flatten_append, List.append_assoc]
  | stopsEarly idle absent =>
      simp only [Accounted, idle] at accounted
      rw [absent] at accounted
      exact accounted_drainRemaining (.inl rfl) rfl (List.append_nil _).symm accounted.2
        (List.append_nil _).symm
  | stops idle present =>
      simp only [Accounted, idle] at accounted
      simp only [Accounted]
      exact ⟨accounted.1.resolve_left present, s.queue, [], accounted.2, (List.append_nil _).symm,
        (List.append_nil _).symm⟩
  | ends found stopping =>
      simp only [Accounted, stopping] at accounted ⊢
      exact accounted
  | drains stopping =>
      simp only [Accounted, stopping] at accounted
      obtain ⟨running, waiting, later, before, accepted, queue⟩ := accounted
      exact accounted_drainRemaining (.inr running) rfl queue before accepted
  | returns stopping =>
      simp only [Accounted, stopping] at accounted
      simp only [Accounted]
      exact accounted

theorem numbered {guard : SqliteEventSink ε → SinkAct ε → Prop}
    (reached : (system sizes).Reachable guard s) : s.Numbered := by
  refine reached.invariant (motive := Numbered) ?_ ?_
  · exact rfl
  · exact fun _ _ _ _ prior _ taken => numbered_moves prior (moves taken)

theorem accounted {guard : SqliteEventSink ε → SinkAct ε → Prop}
    (reached : (system sizes).Reachable guard s) : s.Accounted := by
  refine reached.invariant (motive := Accounted) ?_ ?_
  · exact ⟨.inl rfl, rfl⟩
  · exact fun _ _ _ _ prior _ taken => accounted_moves prior (moves taken)

/-- The numbers of what was accepted first are smaller than those of the rest. -/
theorem Numbered.apart (numbered : s.Numbered) {first rest : List (Entry ε)}
    (accepted : s.accepted = first ++ rest) :
    (∀ e ∈ first, e.number < first.length) ∧ ∀ e ∈ rest, first.length ≤ e.number := by
  rw [Numbered, accepted, List.map_append, List.length_append, List.range_add] at numbered
  obtain ⟨early, late⟩ := List.append_inj numbered (by simp)
  constructor
  · intro e listed
    have mem : e.number ∈ List.range first.length := early ▸ List.mem_map_of_mem listed
    exact List.mem_range.mp mem
  · intro e listed
    have mem : e.number ∈ (List.range rest.length).map (first.length + ·) :=
      late ▸ List.mem_map_of_mem listed
    obtain ⟨n, -, same⟩ := List.mem_map.mp mem
    omega

/-! ## Losing events -/

/-- Of the events passed to the store, those accepted before `stop` are all of them, each
once and in the order of acceptance. -/
def Keeps (s : SqliteEventSink ε) (found : Found ε) : Prop :=
  (s.passed.flatten.filter fun e => decide (e.number < found.accepted.length)) = found.accepted

/-- When `stop` has returned, every event accepted before it was passed to the store once
and in order, if and only if `stop` did not find the task in the middle of a batch. -/
theorem keeps_accepted_iff (reached : (system sizes).Reachable (fun _ _ => True) s)
    (returned : s.stop = .returned found) : s.Keeps found ↔ found.writer.fills = false := by
  have account := accounted reached
  simp only [Accounted, returned] at account
  obtain ⟨writer, front, waiting, later, before, passed, accepted⟩ := account
  rw [List.append_assoc] at accepted
  obtain ⟨early, late⟩ := (numbered reached).apart accepted
  -- what is passed is what was accepted before without what the task held
  have passes : (s.passed.flatten.filter fun e => decide (e.number < found.accepted.length)) =
      front ++ waiting := by
    have keep : ∀ e ∈ front ++ waiting, decide (e.number < found.accepted.length) = true := by
      intro e listed
      refine decide_eq_true (early e ?_)
      rw [before]
      rcases List.mem_append.mp listed with there | there <;> simp [there]
    have leave : ∀ e ∈ later, ¬ decide (e.number < found.accepted.length) = true := by
      intro e listed
      have beyond := late e (List.mem_append_left _ listed)
      simpa using beyond
    rw [passed, List.filter_append, List.filter_eq_self.mpr keep, List.filter_eq_nil_iff.mpr leave,
      List.append_nil]
  rw [Keeps, passes]
  constructor
  · intro same
    by_contra fills
    rw [Bool.not_eq_false] at fills
    have nonempty : found.writer.held ≠ [] := by
      rcases writer with absent | running
      · rw [absent] at fills
        cases fills
      · exact running.nonempty fills
    have lengths := congrArg List.length (same.trans before)
    simp only [List.length_append] at lengths
    exact nonempty (List.eq_nil_of_length_eq_zero (by omega))
  · intro idle
    rw [before, Writer.held_of_not_fills idle, List.append_nil]

/-- An event is written when no other comes, and one that comes later is in the queue
when `stop` is called. -/
theorem keeps_accepted_idle :
    ∃ (s : SqliteEventSink Nat) (found : Found Nat), s.stop = .returned found ∧
      found.accepted = [⟨0, 7⟩, ⟨1, 8⟩] ∧ s.Keeps found := by
  obtain ⟨s, reached, returned⟩ := System.reaches (system {}) (fun _ _ => True)
    (fun s => s.stop = .returned ⟨[⟨0, 7⟩, ⟨1, 8⟩], .getting⟩)
    [.start, .enqueue 7, .run fun _ => 0, .expire, .wrote fun _ => 600000, .enqueue 8, .stop,
      .cancelled, .drain, .drained]
    (fun _ _ _ => trivial) (by decide)
  exact ⟨s, _, returned, rfl,
    (keeps_accepted_iff (reached.mono fun _ _ _ => trivial) returned).mpr rfl⟩

/-- An event is taken from the queue, and `stop` is called while the task waits for the
next one. -/
theorem held_event_lost :
    ∃ (s : SqliteEventSink Nat) (found : Found Nat),
      (system {}).Reachable (fun _ _ => True) s ∧ s.stop = .returned found ∧
      found.accepted = [⟨0, 7⟩] ∧ s.passed = [] ∧ ¬ s.Keeps found := by
  obtain ⟨s, reached, returned, passed⟩ := System.reaches (system {}) (fun _ _ => True)
    (fun s => s.stop = .returned ⟨[⟨0, 7⟩], .filling [⟨0, 7⟩] 500000⟩ ∧ s.passed = [])
    [.start, .enqueue 7, .run fun _ => 0, .stop, .cancelled, .drain]
    (fun _ _ _ => trivial) (by decide)
  refine ⟨s, _, reached.mono fun _ _ _ => trivial, returned, rfl, passed, ?_⟩
  rw [Keeps, passed]
  decide

end SqliteEventSink

end Zorkbot.Admin
