/-
# The send gate of the radio

Everything the bot transmits goes through `_send_with_spacing`: a call is refused
when too many are pending, waits for the lock, waits until the air is quiet and
then awaits its coroutine. The calls are made by different tasks, so each is a
state machine of its own; a step is what runs between two awaits. Clock readings
and intervals are rational numbers of seconds; their sums and differences are
rounded as those of doubles.

Fields marked as bookkeeping are read by no function of the bot.
-/

import Mathlib.Data.Rat.Defs
import Mathlib.Algebra.Order.Ring.Rat
import Zorkbot.Bot.Gate
import Zorkbot.Data.Binary64

namespace Zorkbot.Bot

open Transition

/-- The part of the configuration that the send gate reads. -/
structure SendConfig where
  sendSpacingSeconds : ℚ
  channelRxGuardSeconds : ℚ
  maxSendQueueDepth : Int

/-- What a call is told about its coroutine. -/
structure Packet where
  transport : Transport
  channelIdx : Option Int
  pubkeyPrefix : Option Str
  chars : Nat
  record : Bool
  ackAware : Bool
  text : Option Str
  deriving DecidableEq

/-- What `EventSink.message_tx` is told. -/
structure TxRecord where
  transport : Transport
  channelIdx : Option Int
  pubkeyPrefix : Option Str
  chars : Nat
  dropped : Bool
  acked : Option Bool
  deriving DecidableEq

/-- What `MessageWindows.record_tx` is told. -/
structure TxText where
  transport : Transport
  channelIdx : Option Int
  pubkeyPrefix : Option Str
  text : Str
  deriving DecidableEq

namespace Packet

def dropped (p : Packet) : TxRecord :=
  ⟨p.transport, p.channelIdx, p.pubkeyPrefix, p.chars, true, none⟩

/-- The record of a packet that went out; `delivered` says that the coroutine
returned something other than `None`. -/
def sent (p : Packet) (delivered : Bool) : TxRecord :=
  ⟨p.transport, p.channelIdx, p.pubkeyPrefix, p.chars, false,
    if p.ackAware then some delivered else none⟩

def window (p : Packet) : Option TxText :=
  p.text.map fun text => ⟨p.transport, p.channelIdx, p.pubkeyPrefix, text⟩

end Packet

/-- Where a call of `_send_with_spacing` is. -/
inductive Stage
  /-- It waits for the lock. -/
  | waiting
  /-- It holds the lock and is in `_wait_for_quiet_air`. -/
  | quiet
  /-- It holds the lock and awaits its coroutine. -/
  | sending
  | ended
  deriving DecidableEq

structure Sending where
  packet : Packet
  stage : Stage
  /-- Bookkeeping: how often its coroutine was awaited. -/
  awaits : Nat
  /-- Bookkeeping: how often its coroutine was closed. -/
  closes : Nat
  deriving DecidableEq

/-- Bookkeeping: what happened at the radio, and when. -/
inductive Radio
  | started (call : Nat) (at_ : ℚ)
  | finished (call : Nat) (at_ : ℚ)
  | heard (at_ : ℚ)
  deriving DecidableEq

structure SendGate where
  /-- The clock of the event loop. -/
  now : ℚ
  /-- `_last_send_at`. -/
  lastSendAt : Option ℚ
  /-- `_last_channel_rx_at`. -/
  lastChannelRxAt : Option ℚ
  /-- `_send_queue_depth`. -/
  depth : Int
  /-- The call that holds `_send_lock`. -/
  holder : Option Nat
  /-- The calls that wait for `_send_lock`, longest first. -/
  waiters : List Nat
  /-- Every call ever made. -/
  calls : List Sending
  sink : List TxRecord
  windows : List TxText
  /-- Bookkeeping: the calls that were not refused, oldest first. -/
  accepted : List Nat
  /-- Bookkeeping: the calls that have left the lock, oldest first. -/
  served : List Nat
  /-- Bookkeeping, newest first. -/
  log : List Radio

namespace SendGate

def init : SendGate := ⟨0, none, none, 0, none, [], [], [], [], [], [], []⟩

/-- A call is refused: its coroutine is closed. -/
def refuse (p : Packet) (s : SendGate) : SendGate :=
  { s with
    calls := s.calls ++ [⟨p, .ended, 0, 1⟩]
    sink := if p.record then s.sink ++ [p.dropped] else s.sink }

/-- A call is counted and waits for the lock. -/
def accept (p : Packet) (s : SendGate) : SendGate :=
  { s with
    depth := s.depth + 1
    calls := s.calls ++ [⟨p, .waiting, 0, 0⟩]
    waiters := s.waiters ++ [s.calls.length]
    accepted := s.accepted ++ [s.calls.length] }

/-- `_send_with_spacing` is called. -/
def send (cfg : SendConfig) (p : Packet) (s : SendGate) : SendGate :=
  if cfg.maxSendQueueDepth ≤ s.depth then s.refuse p else s.accept p

def setStage (i : Nat) (stage : Stage) (s : SendGate) : SendGate :=
  { s with calls := s.calls.modify i fun c => { c with stage := stage } }

def stageOf (s : SendGate) (i : Nat) : Option Stage := s.calls[i]?.map (·.stage)

def packetOf (s : SendGate) (i : Nat) : Option Packet := s.calls[i]?.map (·.packet)

/-- The deadlines of `_wait_for_quiet_air`. -/
def deadlines (cfg : SendConfig) (s : SendGate) : List ℚ :=
  (s.lastSendAt.map fun last => Binary64.nearest (last + cfg.sendSpacingSeconds)).toList ++
    (s.lastChannelRxAt.map fun last =>
      Binary64.nearest (last + cfg.channelRxGuardSeconds)).toList

/-- How long `_wait_for_quiet_air` would sleep. -/
def remaining (cfg : SendConfig) (s : SendGate) : ℚ :=
  (((s.deadlines cfg).map fun deadline => Binary64.nearest (deadline - s.now)).max?).getD 0

/-- The coroutine of a call is awaited. -/
def start (i : Nat) (s : SendGate) : SendGate :=
  { s with
    calls := s.calls.modify i fun c => { c with stage := .sending, awaits := c.awaits + 1 }
    log := .started i s.now :: s.log }

/-- A round of the loop of `_wait_for_quiet_air`. -/
def look (cfg : SendConfig) (i : Nat) (s : SendGate) : SendGate :=
  if s.remaining cfg ≤ 0 then s.start i else s

/-- A call gets the lock. -/
def grab (i : Nat) (s : SendGate) : SendGate :=
  { s with holder := some i, waiters := s.waiters.erase i }.setStage i .quiet

/-- A call gives the lock back and is no longer counted. -/
def release (i : Nat) (s : SendGate) : SendGate :=
  { s with holder := none, depth := s.depth - 1, served := s.served ++ [i] }.setStage i .ended

/-- A waiting call is gone. -/
def abandon (i : Nat) (s : SendGate) : SendGate :=
  { s with waiters := s.waiters.erase i, depth := s.depth - 1 }.setStage i .ended

/-- A transmission is over. -/
def stamp (i : Nat) (s : SendGate) : SendGate :=
  { s with lastSendAt := some s.now, log := .finished i s.now :: s.log }

/-- A packet that went out is recorded. -/
def tell (p : Packet) (delivered : Bool) (s : SendGate) : SendGate :=
  if p.record then
    { s with
      sink := s.sink ++ [p.sent delivered]
      windows := s.windows ++ p.window.toList }
  else s

/-- How a coroutine ends. -/
inductive Outcome
  /-- `delivered`: it returned something other than `None`. -/
  | returned (delivered : Bool)
  | raised
  deriving DecidableEq

inductive Act
  /-- A task calls `_send_with_spacing`. -/
  | send (packet : Packet)
  /-- A waiting call gets the lock and looks at the clock. -/
  | acquire (i : Nat)
  /-- A call wakes from its sleep and looks at the clock again. -/
  | wake (i : Nat)
  /-- The coroutine of a call ends. -/
  | finish (i : Nat) (outcome : Outcome)
  /-- `CancelledError` is thrown into the task that made a call. -/
  | cancel (i : Nat)
  /-- A channel message arrives. -/
  | receive
  /-- The clock moves on. -/
  | tick (now : ℚ)
  deriving DecidableEq

def step (cfg : SendConfig) (s : SendGate) : Act → Option SendGate
  | .send p => some (s.send cfg p)
  | .acquire i =>
      if s.holder = none ∧ i ∈ s.waiters then some ((s.grab i).look cfg i) else none
  | .wake i => if s.stageOf i = some .quiet then some (s.look cfg i) else none
  | .finish i outcome =>
      match s.stageOf i, s.packetOf i with
      | some .sending, some p =>
          match outcome with
          | .returned delivered => some (((s.tell p delivered).stamp i).release i)
          | .raised => some ((s.stamp i).release i)
      | _, _ => none
  | .cancel i =>
      match s.stageOf i with
      | some .waiting => some (s.abandon i)
      | some .quiet => some (s.release i)
      | some .sending => some ((s.stamp i).release i)
      | _ => none
  | .receive => some { s with lastChannelRxAt := some s.now, log := .heard s.now :: s.log }
  | .tick now => if s.now ≤ now then some { s with now := now } else none

end SendGate

/-- The runs of the send gate. -/
def sendGate (cfg : SendConfig) : System SendGate SendGate.Act := ⟨.init, SendGate.step cfg⟩

end Zorkbot.Bot
