/-
# The log tab

The page reads one log stream at a time and opens another when it ends. Each replays the
ring of the process that serves it, so the page drops what is numbered no higher than the
last record it has accepted. The bot may restart meanwhile: then there is another `LogBus`,
and what was still under way from the old one may yet arrive.
-/

import Zorkbot.Admin.LogBus

namespace Zorkbot.Admin

open Transition

/-- The options of the level list; `parse_level` knows them all. -/
inductive LogLevel
  | debug
  | info
  | warning
  | error
  | critical
  deriving DecidableEq

def LogLevel.levelno : LogLevel → Int
  | .debug => 10
  | .info => 20
  | .warning => 30
  | .error => 40
  | .critical => 50

/-- A stream that the page reads: the process and the queue it comes from, the rest of the
backlog to replay, and the records under way. -/
structure LogConnection where
  process : Nat
  queue : Nat
  replay : List LogItem
  wire : List LogItem
  deriving DecidableEq

/-- A record that the page has read, and where it came from. -/
structure Arrival where
  process : Nat
  queue : Nat
  item : LogItem
  deriving DecidableEq

/-- What the page has of the log. Beside its own state that is the process the watermark is
from and, since the records were last reset, what was read and what of it was accepted. -/
structure LogView where
  level : LogLevel
  logRecords : List LogItem
  logLastSeq : Nat
  stream : Option LogConnection
  source : Nat
  streamed : List Arrival
  accepted : List Arrival
  deriving DecidableEq

namespace LogView

/-- `LOG_MAX_LINES`. -/
def maxLines : Nat := 2000

def init : LogView := ⟨.info, [], 0, none, 0, [], []⟩

/-- What `handleLogEvent` does with a record. The lines on the screen follow from the records
and the filter, and the event `hello` brings none. -/
def handleLogEvent (arrival : Arrival) (v : LogView) : LogView :=
  let data := arrival.item
  let v := { v with streamed := v.streamed ++ [arrival] }
  if data.seq ≤ v.logLastSeq then v
  else
    let pushed := v.logRecords ++ [data]
    { v with
      logLastSeq := data.seq
      logRecords := if pushed.length > maxLines then pushed.tail else pushed
      source := arrival.process
      accepted := v.accepted ++ [arrival] }

/-- `state.logRecords = []` and `state.logLastSeq = 0`. -/
def reset (v : LogView) : LogView :=
  { v with logRecords := [], logLastSeq := 0, streamed := [], accepted := [] }

/-- The records on view are the last ones accepted, at most `maxLines` of them. -/
structure Shows (v : LogView) : Prop where
  latest : v.logRecords <:+ v.accepted.map (·.item)
  length : v.logRecords.length ≤ maxLines

theorem shows_init : init.Shows := ⟨List.nil_suffix, Nat.zero_le _⟩

theorem shows_reset (v : LogView) : v.reset.Shows := ⟨List.nil_suffix, Nat.zero_le _⟩

theorem Shows.congr {v w : LogView} (shows : v.Shows) (records : w.logRecords = v.logRecords)
    (accepted : w.accepted = v.accepted) : w.Shows := by
  constructor
  · rw [records, accepted]
    exact shows.latest
  · rw [records]
    exact shows.length

/-- A record is accepted just when it goes to the end of those on view. -/
theorem handleLogEvent_cases (arrival : Arrival) (v : LogView) :
    ((v.handleLogEvent arrival).accepted = v.accepted ∧
        (v.handleLogEvent arrival).logRecords = v.logRecords) ∨
      ((v.handleLogEvent arrival).accepted = v.accepted ++ [arrival] ∧
        (v.handleLogEvent arrival).logRecords =
          if v.logRecords.length + 1 > maxLines then v.logRecords.tail ++ [arrival.item]
          else v.logRecords ++ [arrival.item]) := by
  by_cases low : arrival.item.seq ≤ v.logLastSeq
  · exact .inl (by simp only [handleLogEvent, if_pos low, and_self])
  · refine .inr ?_
    simp only [handleLogEvent, if_neg low, List.length_append, List.length_singleton, true_and]
    cases v.logRecords with
    | nil => rfl
    | cons first rest => rfl

theorem shows_handleLogEvent (arrival : Arrival) {v : LogView} (shows : v.Shows) :
    (v.handleLogEvent arrival).Shows := by
  rcases handleLogEvent_cases arrival v with ⟨accepted, records⟩ | ⟨accepted, records⟩
  · exact shows.congr records accepted
  · have followed {kept : List LogItem} (suffix : kept <:+ v.accepted.map (·.item)) :
        kept ++ [arrival.item] <:+ v.accepted.map (·.item) ++ [arrival.item] := by
      obtain ⟨before, split⟩ := suffix
      exact ⟨before, by rw [← split, List.append_assoc]⟩
    have length := shows.length
    have some_lines : 0 < maxLines := by decide
    constructor
    · rw [accepted, records, List.map_append]
      split
      · exact followed ((List.tail_suffix _).trans shows.latest)
      · exact followed shows.latest
    · rw [records]
      split
      · rw [List.length_append, List.length_tail, List.length_singleton]
        omega
      · rw [List.length_append, List.length_singleton]
        omega

end LogView

/-- The buses of the processes that are gone, the one that runs, and the page. -/
structure LogTab where
  past : List LogBus
  bus : LogBus
  view : LogView
  deriving DecidableEq

inductive LogTabAct
  /-- The process that runs takes a step, with any other consumers. -/
  | bus (a : LogBusAct)
  | restart
  /-- `startLogStream`. -/
  | connect
  /-- The server yields the next record of the stream. -/
  | yield
  /-- The page reads the next record. -/
  | handle
  /-- The stream ends, whoever ended it. -/
  | disconnect
  | changeLevel (level : LogLevel)
  | clear
  | signOut

namespace LogTab

variable (setup : LogBusSetup)

def init : LogTab := ⟨[], .init, .init⟩

/-- The number of the process that runs. -/
def process (s : LogTab) : Nat := s.past.length

/-- The bus of a process. -/
def busOf (s : LogTab) (p : Nat) : Option LogBus := (s.past ++ [s.bus])[p]?

/-- The queue is read by the stream of the page and by nobody else. -/
def reads (s : LogTab) (n : Nat) : Bool :=
  s.view.stream.any fun c => c.process = s.process ∧ c.queue = n

/-- `stream_logs`: refused when too many are open. -/
def connect (s : LogTab) : LogTab :=
  if s.bus.canSubscribe setup then
    let queue := s.bus.objects.length
    let sub := s.bus.subscriber s.view.level.levelno
    { s with
      bus := s.bus.subscribe s.view.level.levelno
      view := { s.view with stream := some ⟨s.process, queue, sub.backlog, []⟩ } }
  else { s with view := { s.view with stream := none } }

/-- A turn of `event_source`, which runs until it unsubscribes. -/
def yield (s : LogTab) : Option LogTab :=
  match s.view.stream with
  | none => none
  | some c =>
      if c.process = s.process ∧ c.queue ∈ s.bus.subscribers then
        match c.replay with
        | item :: rest =>
            let c := { c with replay := rest, wire := c.wire ++ [item] }
            some { s with view := { s.view with stream := some c } }
        | [] =>
            match (s.bus.objects[c.queue]?).bind (·.queue.head?), s.bus.get c.queue with
            | some item, some bus =>
                let c := { c with wire := c.wire ++ [item] }
                some { s with bus := bus, view := { s.view with stream := some c } }
            | _, _ => none
      else none

def handle (s : LogTab) : Option LogTab :=
  match s.view.stream with
  | some c =>
      match c.wire with
      | item :: rest =>
          let view := { s.view with stream := some { c with wire := rest } }
          some { s with view := view.handleLogEvent ⟨c.process, c.queue, item⟩ }
      | [] => none
  | none => none

def step (s : LogTab) : LogTabAct → Option LogTab
  | .bus (.get n) =>
      if s.reads n then none else (s.bus.get n).map fun bus => { s with bus := bus }
  | .bus a => (s.bus.step setup a).map fun bus => { s with bus := bus }
  | .restart => some { s with past := s.past ++ [s.bus], bus := .init }
  | .connect => some (s.connect setup)
  | .yield => s.yield
  | .handle => s.handle
  | .disconnect => some { s with view := { s.view with stream := none } }
  | .changeLevel level =>
      some { s with view := { s.view.reset with level := level, stream := none } }
  | .clear => some { s with view := { s.view with logRecords := [] } }
  | .signOut => some { s with view := { s.view.reset with stream := none } }

end LogTab

/-- The runs of the log tab. -/
def logTab (setup : LogBusSetup) : System LogTab LogTabAct := ⟨.init, LogTab.step setup⟩

/-! ## What goes wrong -/

/-- A record was numbered since a subscription and did not come to the queue. -/
def LogBus.Misses (s : LogBus) (sub : Subscriber) (seq : Nat) : Prop :=
  seq ∈ (s.emitted.drop sub.since).map (·.seq) ∧ seq ∉ sub.received.map (·.seq)

instance (s : LogBus) (sub : Subscriber) (seq : Nat) : Decidable (s.Misses sub seq) :=
  inferInstanceAs (Decidable (_ ∧ _))

namespace LogTab

/-- The record did not fit into the queue of a stream from which the page has read a later
one. -/
def Skipped (s : LogTab) (p seq : Nat) : Prop :=
  ∃ arrival ∈ s.view.streamed, arrival.process = p ∧ seq < arrival.item.seq ∧
    ∃ bus ∈ s.busOf p, ∃ sub ∈ bus.objects[arrival.queue]?, bus.Misses sub seq

instance (s : LogTab) (p seq : Nat) : Decidable (s.Skipped p seq) :=
  inferInstanceAs (Decidable (∃ arrival ∈ s.view.streamed, arrival.process = p ∧
    seq < arrival.item.seq ∧ ∃ bus ∈ s.busOf p, ∃ sub ∈ bus.objects[arrival.queue]?, _))

/-- If the record is not numbered above the watermark, then the watermark is of its process
and no stream skipped the record. -/
def InSight (s : LogTab) (c : LogConnection) (item : LogItem) : Prop :=
  item.seq ≤ s.view.logLastSeq → c.process = s.view.source ∧ ¬ s.Skipped c.process item.seq

instance (s : LogTab) (c : LogConnection) (item : LogItem) : Decidable (s.InSight c item) :=
  inferInstanceAs (Decidable (_ → _ ∧ ¬ _))

/-- The record that the page reads is in sight. -/
def sees (s : LogTab) : LogTabAct → Prop
  | .handle => ∀ c ∈ s.view.stream, ∀ item ∈ c.wire.head?, s.InSight c item
  | _ => True

instance (s : LogTab) : (a : LogTabAct) → Decidable (s.sees a)
  | .handle => inferInstanceAs (Decidable (∀ c ∈ s.view.stream, ∀ item ∈ c.wire.head?, _))
  | .bus _ | .restart | .connect | .yield | .disconnect | .changeLevel _ | .clear | .signOut =>
      .isTrue trivial

/-- How often a record has been accepted. -/
def acceptances (s : LogTab) (arrival : Arrival) : Nat :=
  s.view.accepted.countP fun a =>
    a.process = arrival.process ∧ a.item.seq = arrival.item.seq

end LogTab

end Zorkbot.Admin
