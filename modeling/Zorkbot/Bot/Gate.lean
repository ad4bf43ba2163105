/-
# The command gate

Each player has a queue with room for one command and a worker that empties it.
`enqueue` runs in the task that received the message and never waits; a worker
is a task of its own, so between its creation and its first step, and while its
handler waits, any number of messages may arrive. A step of the model is what
runs between two points where tasks can switch.
-/

import Zorkbot.Bot.Addressing
import Zorkbot.Data.Roster
import Zorkbot.Transition.Server

namespace Zorkbot.Bot

open Transition

/-! ## Records of the event sink -/

inductive Transport
  | dm
  | channel
  deriving DecidableEq

/-- The `reject_reason` of a dropped command. -/
inductive RejectReason
  | responsePending
  | queueFull
  deriving DecidableEq

/-- What `EventSink.command` is told. -/
structure CommandRecord where
  pubkeyPrefix : Option Str
  command : Str
  transport : Transport
  channelIdx : Option Int
  accepted : Bool
  rejectReason : Option RejectReason
  deriving DecidableEq

/-- `_INTERRUPT_COMMANDS`. -/
def interruptCommands : List Str := ["end".toList]

/-- An element of a player's queue. -/
structure Item where
  ctx : Context
  command : Str
  restArgs : Str
  /-- Bookkeeping: how many calls of `enqueue` came before. -/
  call : Nat
  deriving DecidableEq

namespace Item

/-- The key that `_enqueue` files a message under. -/
def playerId (ctx : Context) : Str := (truthy ctx.pubkeyPrefix).getD "anon".toList

def player (i : Item) : Str := playerId i.ctx

def interrupts (i : Item) : Bool := decide (i.command ∈ interruptCommands)

/-- The record of an item, dropped for a reason or not dropped. -/
def record (i : Item) (reason : Option RejectReason) : CommandRecord where
  pubkeyPrefix := i.ctx.pubkeyPrefix
  command := i.command
  transport := if i.ctx.isDm then .dm else .channel
  channelIdx := if i.ctx.isDm then none else some i.ctx.message.channelIdx
  accepted := reason.isNone
  rejectReason := reason

end Item

/-! ## The state -/

/-- Where a worker task is in `_run_worker`. -/
inductive Worker
  /-- It has not run yet. -/
  | created
  /-- Inside `_handle`. -/
  | handling (item : Item)
  | done
  deriving DecidableEq

/-- The item a worker is handling. -/
def Worker.item : Worker → Option Item
  | .handling i => some i
  | _ => none

structure Gate where
  /-- `_queues`. -/
  queues : Table Str (List Item)
  /-- `_workers`, with every worker task ever created. -/
  workers : Roster Str Worker
  sink : List CommandRecord
  /-- Bookkeeping: the number of calls of `enqueue`. -/
  calls : Nat
  /-- Bookkeeping: the items that were put into a queue. -/
  accepted : List Item
  /-- Bookkeeping: the items that were dropped. -/
  dropped : List (Item × RejectReason)
  /-- Bookkeeping: the items whose handler has ended. -/
  handled : List Item

namespace Gate

def init : Gate := ⟨.empty, .empty, [], 0, [], [], []⟩

/-- The capacity of a player's queue. -/
def maxsize : Nat := 1

def queue (s : Gate) (p : Str) : List Item := (s.queues.get p).getD []

/-- The player's worker, as `_workers` has it. -/
def worker (s : Gate) (p : Str) : Option Worker := s.workers.current p

/-- There is a worker and it is not done. -/
def busy (s : Gate) (p : Str) : Bool := (s.worker p).any (· ≠ .done)

/-- `_drop`. -/
def drop (i : Item) (reason : RejectReason) (s : Gate) : Gate :=
  { s with
    sink := s.sink ++ [i.record (some reason)]
    dropped := s.dropped ++ [(i, reason)] }

/-- `put_nowait`, with room in the queue. -/
def put (i : Item) (s : Gate) : Gate :=
  { s with
    queues := s.queues.set i.player (s.queue i.player ++ [i])
    accepted := s.accepted ++ [i] }

/-- `create_task` of a worker. -/
def employ (p : Str) (s : Gate) : Gate := { s with workers := s.workers.hire p .created }

/-- `_enqueue`. -/
def enqueue (ctx : Context) (command restArgs : Str) (s : Gate) : Gate × Bool :=
  let i : Item := ⟨ctx, command, restArgs, s.calls⟩
  let s : Gate := { s with calls := s.calls + 1 }
  if s.busy i.player && !i.interrupts then (s.drop i .responsePending, false)
  else if maxsize ≤ (s.queue i.player).length then (s.drop i .queueFull, false)
  else if s.busy i.player then (s.put i, true)
  else ((s.put i).employ i.player, true)

def setTask (t : Nat) (w : Worker) (s : Gate) : Gate :=
  { s with workers := s.workers.move t w }

/-- An item leaves its queue and `_handle` records it. -/
def pull (p : Str) (i : Item) (rest : List Item) (s : Gate) : Gate :=
  { s with
    queues := s.queues.set p rest
    sink := s.sink ++ [i.record none] }

/-- A worker gets an item from its queue and enters `_handle`. -/
def take (t : Nat) (p : Str) (i : Item) (rest : List Item) (s : Gate) : Gate :=
  (s.pull p i rest).setTask t (.handling i)

/-- A worker comes to the head of its loop: it returns if its queue is empty. -/
def turn (t : Nat) (p : Str) (s : Gate) : Gate :=
  match s.queue p with
  | [] => s.setTask t .done
  | i :: rest => s.take t p i rest

/-- `_handle` of an item has ended. -/
def ended (i : Item) (s : Gate) : Gate := { s with handled := s.handled ++ [i] }

/-- How `_handle` ends. The worker logs what its handler raised and goes on. -/
inductive Outcome
  | returned
  | raised
  deriving DecidableEq

inductive Act
  /-- A message is dispatched. -/
  | dispatch (ctx : Context) (command restArgs : Str)
  /-- A worker that was created runs for the first time. -/
  | begin (t : Nat)
  /-- The handler of a worker ends. -/
  | finish (t : Nat) (outcome : Outcome)
  deriving DecidableEq

def step (s : Gate) : Act → Option Gate
  | .dispatch ctx command restArgs => some (s.enqueue ctx command restArgs).1
  | .begin t =>
      match s.workers.task t with
      | some (p, .created) => some (s.turn t p)
      | _ => none
  | .finish t _ =>
      match s.workers.task t with
      | some (p, .handling i) => some ((s.ended i).turn t p)
      | _ => none

end Gate

/-- The runs of the gate. -/
def gate : System Gate Gate.Act := ⟨.init, Gate.step⟩

end Zorkbot.Bot
