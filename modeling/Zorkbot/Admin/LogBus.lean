/-
# The log tail

`LogBus` is a handler of the root logger: any thread that logs numbers its record and
puts it into a ring under the bus's lock, and has the event loop deliver it to whoever was
subscribed at that moment. A thread inside `Handler.handle` holds the handler's own lock.
Threads that wait for it have done nothing yet, so of any number of them any may be the
next that enters. Subscriptions, deliveries and reads are steps of the event loop.
-/

import Zorkbot.Bot.Addressing
import Zorkbot.Data.Deque
import Zorkbot.Data.Lossy
import Zorkbot.Data.Objects
import Zorkbot.Transition.System
import Mathlib.Data.Rat.Defs

namespace Zorkbot.Admin

open Transition
open Zorkbot.Bot (Str)
open scoped List

/-! ## Records -/

/-- What a thread logs. -/
structure LogRecord where
  created : ℚ
  levelname : Str
  levelno : Int
  name : Str
  /-- The message as the formatter has it, unless the formatter raises. -/
  formatted : Option Str
  deriving DecidableEq

structure LogItem where
  seq : Nat
  created : ℚ
  level : Str
  levelno : Int
  logger : Str
  message : Str
  droppedBefore : Option Nat
  deriving DecidableEq

/-- `_MAX_MESSAGE_CHARS`. -/
def maxMessageChars : Nat := 8000

/-- `_render`: it raises for no record, so `emit` never gives one up. -/
def render (record : LogRecord) : LogItem :=
  let message := record.formatted.getD
    ("<unformattable log record from ".toList ++ record.name ++ ">".toList)
  { seq := 0
    created := record.created
    level := record.levelname
    levelno := record.levelno
    logger := record.name
    message :=
      if message.length > maxMessageChars then
        message.take maxMessageChars ++ "… [truncated]".toList
      else message
    droppedBefore := none }

/-! ## The bus -/

/-- A `_Subscriber`, and beside it what its subscription replayed, when that was, and what
its consumer has read. -/
structure Subscriber where
  queue : List LogItem
  minLevel : Int
  dropped : Nat
  backlog : List LogItem
  /-- How many records had been numbered when it subscribed. -/
  since : Nat
  read : List LogItem
  deriving DecidableEq

namespace Subscriber

/-- The size of a subscriber's queue. -/
def maxsize : Nat := 256

/-- What came to the queue. -/
def received (sub : Subscriber) : List LogItem := sub.read ++ sub.queue

/-- One turn of the loop in `_deliver`. -/
def offer (item : LogItem) (sub : Subscriber) : Subscriber :=
  if item.levelno < sub.minLevel then sub
  else
    let payload :=
      if sub.dropped = 0 then item else { item with droppedBefore := some sub.dropped }
    if sub.queue.length < maxsize then
      { sub with queue := sub.queue ++ [payload], dropped := 0 }
    else { sub with dropped := sub.dropped + 1 }

end Subscriber

/-- Where the thread is that holds the handler's lock. -/
inductive Emitting
  | rendering (record : LogRecord)
  /-- The record is numbered and goes to the event loop next. -/
  | handing (subscribers : List Nat) (item : LogItem)
  deriving DecidableEq

/-- The fields of `LogBus` with the subscriber objects by number, the calls of `_deliver`
the event loop has still to make, and every record ever numbered. -/
structure LogBus where
  buffer : List LogItem
  seq : Nat
  subscribers : List Nat
  /-- Whether `_loop` is set. -/
  loop : Bool
  objects : List Subscriber
  emitting : Option Emitting
  ready : List (List Nat × LogItem)
  emitted : List LogItem
  deriving DecidableEq

structure LogBusSetup where
  bufferSize : Nat
  maxStreams : Nat

inductive LogBusAct
  /-- A thread gets the handler's lock with its record. -/
  | enter (record : LogRecord)
  /-- It renders the record and numbers it. -/
  | number
  /-- It has the event loop deliver it. -/
  | handOff
  /-- The event loop runs a callback. -/
  | deliver
  | subscribe (minLevel : Int)
  | unsubscribe (n : Nat)
  /-- A consumer reads. -/
  | get (n : Nat)
  | detach

namespace LogBus

def init : LogBus := ⟨[], 1, [], false, [], none, [], []⟩

variable (setup : LogBusSetup)

/-- `emit` inside the bus's lock. -/
def number (record : LogRecord) (s : LogBus) : LogBus :=
  let item := { render record with seq := s.seq }
  { s with
    seq := s.seq + 1
    buffer := Deque.append setup.bufferSize s.buffer item
    emitted := s.emitted ++ [item]
    emitting := if !s.loop || s.subscribers.isEmpty then none
      else some (.handing s.subscribers item) }

/-- `_deliver`. -/
def deliver (subscribers : List Nat) (item : LogItem) (s : LogBus) : LogBus :=
  { s with objects := Objects.updateEach subscribers (Subscriber.offer item) s.objects }

def canSubscribe (s : LogBus) : Bool := s.subscribers.length < setup.maxStreams

/-- The subscriber `subscribe` makes. -/
def subscriber (minLevel : Int) (s : LogBus) : Subscriber where
  queue := []
  minLevel := minLevel
  dropped := 0
  backlog := s.buffer.filter fun item => minLevel ≤ item.levelno
  since := s.emitted.length
  read := []

def subscribe (minLevel : Int) (s : LogBus) : LogBus :=
  { s with
    loop := true
    subscribers := s.subscribers ++ [s.objects.length]
    objects := s.objects ++ [s.subscriber minLevel] }

def unsubscribe (n : Nat) (s : LogBus) : LogBus :=
  { s with subscribers := s.subscribers.filter (· ≠ n) }

def detach (s : LogBus) : LogBus := { s with loop := false, subscribers := [] }

/-- A consumer takes the first of its queue. -/
def get (n : Nat) (s : LogBus) : Option LogBus :=
  match s.objects[n]? with
  | some sub =>
      match sub.queue with
      | item :: rest =>
          let after := { sub with queue := rest, read := sub.read ++ [item] }
          some { s with objects := s.objects.set n after }
      | [] => none
  | none => none

def step (s : LogBus) : LogBusAct → Option LogBus
  | .enter record =>
      match s.emitting with
      | none => some { s with emitting := some (.rendering record) }
      | some _ => none
  | .number =>
      match s.emitting with
      | some (.rendering record) => some (s.number setup record)
      | _ => none
  | .handOff =>
      match s.emitting with
      | some (.handing subscribers item) =>
          some { s with emitting := none, ready := s.ready ++ [(subscribers, item)] }
      | _ => none
  | .deliver =>
      match s.ready with
      | (subscribers, item) :: rest => some ({ s with ready := rest }.deliver subscribers item)
      | [] => none
  | .subscribe minLevel => some (s.subscribe minLevel)
  | .unsubscribe n => some (s.unsubscribe n)
  | .get n => s.get n
  | .detach => some s.detach

end LogBus

/-- The runs of the bus. -/
def logBus (setup : LogBusSetup) : System LogBus LogBusAct := ⟨.init, LogBus.step setup⟩

end Zorkbot.Admin
