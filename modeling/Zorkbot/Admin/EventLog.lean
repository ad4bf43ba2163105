/-
# The event log

What the sink is told of sessions and players becomes statements, which the task of
the sink cuts into batches. Each batch is one transaction on a thread of its own: it
may fail for reasons of its own, and after `stop` the last one may overtake the one
before. A session's row refers to its player's row, and no two rows of a run have the
same session number.
-/

import Zorkbot.Admin.EventSink
import Zorkbot.Bot.Registry

namespace Zorkbot.Admin

open Zorkbot.Bot (EndReason SessionRecord SessionState SinkEvent Str)
open Transition

/-- A statement the sink enqueues. Nothing refers to the rows of `messages` and
`commands`, so their values are left out. -/
inductive EventStatement
  | insertMessage
  | insertCommand
  | upsertPlayer (pubkeyPrefix : Str) (name : Option Str) (seenAt : Int)
  | insertSession (num : Int) (pubkeyPrefix : Str) (startedAt : Int)
  | endSession (num : Int) (endedAt : Int) (reason : EndReason)
  | raisePeakWatchers (num : Int) (watchers : Nat)
  deriving DecidableEq

/-! ## The tables -/

structure PlayerRow where
  name : Option Str
  firstSeenAt : Int
  lastSeenAt : Int

structure SessionRow where
  botRunId : Str
  sessionNum : Int
  pubkeyPrefix : Str
  startedAt : Int
  endedAt : Option Int
  endReason : Option EndReason
  peakWatchers : Nat

/-- The tables `players` and `sessions`. -/
structure EventTables where
  players : Table Str PlayerRow
  sessions : List SessionRow

/-- The constraint a statement fails on. -/
inductive Violation
  /-- From `sessions` to `players`. -/
  | foreignKey
  /-- On `(bot_run_id, session_num)`. -/
  | unique
  deriving DecidableEq

namespace EventTables

/-- The rows of a session, which has one number in one run. -/
def updateSession (botRunId : Str) (num : Int) (f : SessionRow → SessionRow)
    (tables : EventTables) : EventTables :=
  { tables with
    sessions := tables.sessions.map fun row =>
      if row.botRunId = botRunId ∧ row.sessionNum = num then f row else row }

def execute (botRunId : Str) (tables : EventTables) :
    EventStatement → Except Violation EventTables
  | .insertMessage | .insertCommand => .ok tables
  | .upsertPlayer player name seenAt =>
      let row : PlayerRow :=
        match tables.players.get player with
        | none => ⟨name, seenAt, seenAt⟩
        | some row => { row with name := name <|> row.name, lastSeenAt := seenAt }
      .ok { tables with players := tables.players.set player row }
  | .insertSession num player startedAt =>
      if tables.sessions.any fun row => row.botRunId = botRunId ∧ row.sessionNum = num then
        .error .unique
      else if (tables.players.get player).isNone then .error .foreignKey
      else
        .ok { tables with
          sessions := tables.sessions ++ [⟨botRunId, num, player, startedAt, none, none, 0⟩] }
  | .endSession num endedAt reason =>
      .ok (tables.updateSession botRunId num fun row =>
        { row with endedAt := some endedAt, endReason := some reason })
  | .raisePeakWatchers num watchers =>
      .ok (tables.updateSession botRunId num fun row =>
        { row with peakWatchers := max row.peakWatchers watchers })

/-- `_execute_many_in_txn`. The tables are rolled back at an error. -/
def executeMany (botRunId : Str) (tables : EventTables) (statements : List EventStatement) :
    Except Violation EventTables :=
  statements.foldlM (execute botRunId) tables

/-- What `prune_retention` does to these tables. -/
def prune (cutoff : Int) (tables : EventTables) : EventTables :=
  { tables with
    sessions := tables.sessions.filter fun row => !row.endedAt.any fun endedAt =>
      decide (endedAt < cutoff) }

end EventTables

/-! ## What the sink is told -/

/-- What the sink enqueues when it is told something of a session. -/
def eventStatements (now : Int) : SinkEvent → List EventStatement
  | .sessionStarted record =>
      [.upsertPlayer record.playerId (some record.playerName) now,
        .insertSession record.num record.playerId now]
  | .sessionEnded record reason => [.endSession record.num now reason]
  | .watchersChanged record => [.raisePeakWatchers record.num record.watchers.card]
  | .transcript .. => []

/-- What else the sink is told. -/
inductive Report
  | messageRx
  | messageTx
  | command
  | playerSeen (pubkeyPrefix : Str) (name : Option Str)

def Report.statement (now : Int) : Report → EventStatement
  | .messageRx | .messageTx => .insertMessage
  | .command => .insertCommand
  | .playerSeen player name => .upsertPlayer player name now

/-- An operation of `SessionState` that tells the sink something. -/
inductive SessionOp
  | addSession (player name : Str)
  | removeSession (player : Str) (reason : EndReason)
  | addWatcher (watcher : Str) (num : Int)
  | removeWatcher (watcher : Str)

def SessionOp.run (maxWatchers : Int) (state : SessionState) : SessionOp → SessionState
  | .addSession player name => (state.addSession player name).2
  | .removeSession player reason => (state.removeSession player reason).2
  | .addWatcher watcher num => (state.addWatcher maxWatchers watcher num).2
  | .removeWatcher watcher => (state.removeWatcher watcher).2

/-! ## The log -/

/-- How the log begins. The run has a new id. -/
structure LogSetup where
  sizes : Sizes := {}
  maxWatchers : Int := 2
  botRunId : Str
  tables : EventTables
  fresh : ∀ row ∈ tables.sessions, row.botRunId ≠ botRunId

structure EventLog where
  state : SessionState
  sink : SqliteEventSink EventStatement
  /-- The batches passed to `run_many` whose transactions are to come. -/
  inFlight : List (List (Entry EventStatement))
  tables : EventTables
  /-- What batches failed on. -/
  violations : List Violation

inductive LogAct
  | operate (op : SessionOp) (now : Int)
  | report (report : Report) (now : Int)
  /-- The sink moves on. -/
  | sink (act : SinkAct EventStatement)
  /-- A batch is executed, or is rolled back for a reason of its own. -/
  | transact (n : Nat) (failing : Bool)
  | prune (cutoff : Int)

namespace EventLog

variable {setup : LogSetup} {s t : EventLog}

def init (setup : LogSetup) : EventLog :=
  ⟨.init, .init, [], setup.tables, []⟩

/-- Several statements come in, and nothing awaits between them. -/
def enqueueAll (sizes : Sizes) (statements : List EventStatement)
    (sink : SqliteEventSink EventStatement) : SqliteEventSink EventStatement :=
  statements.foldl (fun sink statement => sink.enqueue sizes statement) sink

/-- The sink has to wait for a transaction, or for an event. -/
def waits (s : EventLog) : SinkAct EventStatement → Bool
  | .enqueue _ => true
  | .wrote _ =>
      match s.sink.writer with
      | .writing batch => decide (batch ∈ s.inFlight)
      | _ => false
  | .drained =>
      match s.sink.stop with
      | .draining _ batch => decide (batch ∈ s.inFlight)
      | _ => false
  | _ => false

/-- The transaction of a batch. -/
def transact (botRunId : Str) (batch : List (Entry EventStatement)) (s : EventLog) : EventLog :=
  match s.tables.executeMany botRunId (batch.map (·.event)) with
  | .ok tables => { s with tables := tables }
  | .error violation => { s with violations := s.violations ++ [violation] }

def step (setup : LogSetup) (s : EventLog) : LogAct → Option EventLog
  | .operate op now =>
      let state := op.run setup.maxWatchers s.state
      let told := state.sink.drop s.state.sink.length
      some { s with
        state := state
        sink := enqueueAll setup.sizes (told.flatMap (eventStatements now)) s.sink }
  | .report report now =>
      some { s with sink := enqueueAll setup.sizes [report.statement now] s.sink }
  | .sink act =>
      if s.waits act then none
      else
        (s.sink.step setup.sizes act).map fun sink =>
          { s with
            sink := sink
            inFlight := s.inFlight ++ sink.passed.drop s.sink.passed.length }
  | .transact n failing =>
      (s.inFlight[n]?).map fun batch =>
        let s := { s with inFlight := s.inFlight.eraseIdx n }
        if failing then s else s.transact setup.botRunId batch
  | .prune cutoff => some { s with tables := s.tables.prune cutoff }

end EventLog

/-- A bot's session state with the sink and the tables. -/
def eventLog (setup : LogSetup) : System EventLog LogAct :=
  ⟨EventLog.init setup, EventLog.step setup⟩

end Zorkbot.Admin
