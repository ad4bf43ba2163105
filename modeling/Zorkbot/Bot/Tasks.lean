/-
# The bot and its tasks

The tasks of the event loop next to each other: the workers with their handlers, the
fan-out workers and the session poller, all over one session registry, and outside
of them the game service, which starts and ends sessions when it does. A step is
what one task does between two points where it may have to wait, so every order of
steps is an interleaving; that a handler is entered and left in steps of its own
only adds to them.

The senders are set before the poller starts. Shutting down is not among the steps.
-/

import Mathlib.Data.Finset.Dedup
import Zorkbot.Bot.Fanout
import Zorkbot.Bot.HandlerBlocks

namespace Zorkbot.Bot

open Transition

/-! ## Fan-out coroutines -/

/-- The record whose watchers a coroutine sends to. -/
def Fan.record : Fan → Nat
  | .output r _ => r
  | .notice r => r

/-- The text of an end notice. -/
def noticeText (record : SessionRecord) : Str :=
  "Zork I Session #".toList ++ str record.num ++ " (".toList ++ record.playerName ++
    ") has ended. You are no longer watching.".toList

/-- What a coroutine sends when it goes through the watchers in an order. -/
def Fan.letters (s : SessionState) (order : List Str) : Fan → List (Str × Str)
  | .output _ packets => order.flatMap fun w => packets.map fun packet => (w, packet)
  | .notice r => order.map fun w => (w, noticeText (s.record r))

/-- A send of a fan-out coroutine. -/
structure Sent where
  watcher : Str
  text : Str
  job : Job Fan
  deriving DecidableEq

/-! ## The state -/

/-- Where the session poller is in `_reconcile_sessions`. -/
inductive Poll
  | sleeping
  /-- `list_sessions` is on its way to the game service. -/
  | asking
  /-- The game service has listed its players, and the response is on its way. It is
  noted how many records there were. -/
  | listed (players : List Str) (records : Nat)
  deriving DecidableEq

structure ZorkBot where
  state : SessionState
  /-- The command queues and their workers. -/
  gate : Gate
  /-- Where the handlers of the workers are. -/
  points : Table Nat Point
  /-- The fan-out queues and their workers. -/
  fanout : Fanout Fan
  /-- What the coroutines that the fan-out workers await have still to send. -/
  letters : Table Nat (List (Str × Str))
  poll : Poll
  /-- The game service: the players whose session is live, each with the number of
  sessions that were started before it. -/
  live : Table Str Nat
  births : Nat
  /-- Bookkeeping: every send of a fan-out coroutine, oldest first. -/
  sent : List Sent
  /-- Bookkeeping: for a record, which session of its player was live in the game
  service when it was added. -/
  born : Table Nat Nat

namespace ZorkBot

def init : ZorkBot := ⟨.init, .init, .empty, .init, .empty, .sleeping, .empty, 0, [], .empty⟩

/-- Where the handler of a worker is. -/
def point (b : ZorkBot) (t : Nat) : Point := (b.points.get t).getD .entered

/-- The item whose handler a worker awaits. -/
def handling (b : ZorkBot) (t : Nat) : Option Item :=
  (b.gate.workers.task t).bind fun task => task.2.item

/-! ## The workers -/

/-- If a block has added a record, it is noted what the game service had for it. -/
def note (p : Str) (s : SessionState) (b : ZorkBot) : Table Nat Nat :=
  match b.live.get p with
  | some n => if b.state.records.length < s.records.length then b.born.set b.state.records.length n
      else b.born
  | none => b.born

/-- What a block of a handler leaves behind. -/
def leave (t : Nat) (p : Str) (turn : Turn) (b : ZorkBot) : ZorkBot :=
  { b with
    state := turn.state
    points := b.points.set t turn.point
    fanout := turn.fanout.foldl (fun f call => f.fanout call.1 call.2) b.fanout
    born := b.note p turn.state }

/-- A worker's gate goes on, and with it to another handler. -/
def turnTo (t : Nat) (g : Gate) (b : ZorkBot) : ZorkBot :=
  { b with
    gate := g
    points := b.points.set t .entered }

/-! ## The poller -/

/-- A session that the game service did not list is removed, and its watchers are
to be told. -/
def reconcileOne (players : List Str) (b : ZorkBot) (r : Nat) : ZorkBot :=
  if (b.state.record r).playerId ∈ players then b
  else
    { b with
      state := (b.state.removeSession (b.state.record r).playerId .serverSide).2
      fanout := b.fanout.fanout (b.state.record r).num (.notice r) }

/-- `_reconcile_sessions`, once the game service has answered. -/
def reconcile (players : List Str) (b : ZorkBot) : ZorkBot :=
  b.state.allSessions.foldl (reconcileOne players) { b with poll := .sleeping }

/-! ## The fan-out workers -/

/-- A coroutine that is awaited reads whom it has to send to, in some order. -/
def unpack (n : Nat) (order : List Str) (b : ZorkBot) : Option ZorkBot :=
  match b.fanout.workers.task n with
  | some (_, .running _ j) =>
      if order.Nodup ∧ order.toFinset = (b.state.record j.coro.record).watchers then
        some { b with letters := b.letters.set n (j.coro.letters b.state order) }
      else none
  | _ => some b

/-- A fan-out worker goes on, and with it to another coroutine. -/
def fanTo (n : Nat) (order : List Str) (f : Fanout Fan) (b : ZorkBot) : Option ZorkBot :=
  { b with fanout := f }.unpack n order

/-- What the coroutine that a fan-out worker awaits has still to send. -/
def unsent (b : ZorkBot) (n : Nat) : List (Str × Str) := (b.letters.get n).getD []

/-! ## The steps -/

inductive Act
  /-- A message is dispatched. -/
  | dispatch (ctx : Context) (command restArgs : Str)
  /-- A worker that was created runs for the first time. -/
  | begin (t : Nat)
  /-- The handler of a worker goes on. -/
  | run (t : Nat) (resume : Resume)
  /-- The handler of a worker has ended. -/
  | finish (t : Nat)
  /-- The poller wakes up. -/
  | ask
  /-- The game service lists its players. -/
  | list
  /-- The poller's request fails. -/
  | lose
  /-- The poller gets its response. -/
  | reconcile
  /-- A fan-out worker runs for the first time. -/
  | open_ (n : Nat) (order : List Str)
  /-- The coroutine of a fan-out worker sends something; it ends if that raises. -/
  | deliver (n : Nat) (raises : Bool)
  /-- The coroutine of a fan-out worker has ended. -/
  | close (n : Nat) (outcome : Fanout.Outcome) (order : List Str)
  /-- The callback of a fan-out worker runs. -/
  | settle (n : Nat)
  /-- The game service starts a session. -/
  | serviceStarts (p : Str)
  /-- The game service ends a session. -/
  | serviceEnds (p : Str)

def step (setup : Setup) (b : ZorkBot) : Act → Option ZorkBot
  | .dispatch ctx command restArgs => some { b with gate := (b.gate.enqueue ctx command restArgs).1 }
  | .begin t => (b.gate.step (.begin t)).map fun g => b.turnTo t g
  | .run t resume =>
      match b.handling t with
      | some i => (block setup i b.state (b.point t) resume).map fun turn => b.leave t i.player turn
      | none => none
  | .finish t =>
      match b.point t with
      | .past outcome => (b.gate.step (.finish t outcome)).map fun g => b.turnTo t g
      | _ => none
  | .ask => if b.poll = .sleeping then some { b with poll := .asking } else none
  | .list =>
      if b.poll = .asking then
        some { b with poll := .listed b.live.keys b.state.records.length }
      else none
  | .lose => if b.poll = .sleeping then none else some { b with poll := .sleeping }
  | .reconcile =>
      match b.poll with
      | .listed players _ => some (b.reconcile players)
      | _ => none
  | .open_ n order => (b.fanout.step (.begin n)).bind fun f => b.fanTo n order f
  | .deliver n raises =>
      match b.fanout.workers.task n, b.unsent n with
      | some (_, .running _ j), letter :: rest =>
          some
            { b with
              letters := b.letters.set n (if raises then [] else rest)
              sent := b.sent ++ [⟨letter.1, letter.2, j⟩] }
      | _, _ => none
  | .close n outcome order =>
      if b.unsent n = [] then
        (b.fanout.step (.finish n outcome)).bind fun f => b.fanTo n order f
      else none
  | .settle n => (b.fanout.step (.callback n)).map fun f => { b with fanout := f }
  | .serviceStarts p =>
      if b.live.get p = none then
        some
          { b with
            live := b.live.set p b.births
            births := b.births + 1 }
      else none
  | .serviceEnds p => some { b with live := b.live.erase p }

end ZorkBot

/-- The runs of the bot. -/
def zorkbot (setup : Setup) : System ZorkBot ZorkBot.Act := ⟨.init, ZorkBot.step setup⟩

/-! ## Pieces of runs -/

namespace ZorkBot

/-- The number that a text of digits stands for. -/
def decimal (text : Str) : Option Int :=
  if text ≠ [] ∧ text.all Char.isDigit then
    some (text.foldl (fun n c => 10 * n + ((c.toNat - '0'.toNat : Nat) : Int)) 0)
  else none

def alice : Str := "a11ce0000000".toList

def bob : Str := "b0b000000000".toList

/-- The one administrator of the small setup. -/
def admin : Str := "ad0000000000".toList

/-- A setup as good as any other for texts of ASCII letters and digits and for
outputs that fit into one packet. -/
def small (maxWatchers : Int) : Setup where
  adminPubkeys := [admin]
  maxWatchers := maxWatchers
  abandon := true
  lower := List.map Char.toLower
  int := decimal
  repr := fun text => "'".toList ++ text ++ "'".toList
  validate := fun text => text ≠ []
  packetize := fun output first => some [(first.elim [] (· ++ "\n".toList)) ++ output]
  helpPackets := fun _ _ => []
  authorText := []

/-- A direct message. -/
def dm (p : Str) (text : String) : Context where
  message := ⟨text.toList, none, some p, true, 0⟩
  args := text.toList

/-- Nobody is known and no time has passed. -/
def nowhere : Surroundings := ⟨fun _ => none, fun _ => 0, 0⟩

/-- A command by direct message up to where its handler first waits, with the number
of the worker that it gets. -/
def sends (p : Str) (command args : String) (t : Nat) : List Act :=
  [.dispatch (dm p command) command.toList args.toList, .begin t, .run t (.called nowhere)]

/-- The game service does what it was asked for. -/
def granted : Resume := .answered (.returned ⟨true, "You are here.".toList, []⟩)

/-- `!start` by direct message, up to the session's record. -/
def aliceStarts (t : Nat) : List Act :=
  sends alice "start" "" t ++ [Act.run t .advertised, .serviceStarts alice, .run t granted]

/-- Alice plays and Bob watches her session, and both have their replies. -/
def bobWatches : List Act :=
  aliceStarts 0 ++
    [Act.run 0 (.sent .delivered), .run 0 granted, .run 0 (.sent .delivered), .finish 0] ++
    sends bob "watch" "1" 1 ++ [Act.run 1 (.sent .delivered), .finish 1]

end ZorkBot

end Zorkbot.Bot
