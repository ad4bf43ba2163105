/-
# The pool of interpreters

`Pool` holds one manager for each player with a session. Its mutex is held for
one critical section at a time, never while an interpreter is started, sent a
command or closed, so a goroutine inside `Start`, `Command`, `End`, `Reset` or
`Close` is a state machine whose steps are its critical sections and the steps
of the managers it uses. Requests, timers and the shutdown each run in a
goroutine of their own, and all of them interleave freely.

A request's player ID and text are checked as its handler checks them. Timers
fire at any time while they are armed.

Fields marked as bookkeeping are read by no function of the service.
-/

import Mathlib.Logic.Function.Basic
import Zorkbot.Data.Table
import Zorkbot.Pty.Manager
import Zorkbot.Pty.Sanitize
import Zorkbot.Transition.System

namespace Zorkbot.Pty

open Go Transition

variable {G : Type}

/-! ## Players and their save files -/

/-- `playerIDRe`: exactly twelve lowercase hexadecimal characters. -/
def matchesPlayerID (id : Text) : Bool :=
  id.length == 12 && id.all fun c => ('0' ≤ c && c ≤ '9') || ('a' ≤ c && c ≤ 'f')

/-- A player ID that `ValidatePlayerID` accepts. -/
structure PlayerId where
  text : Text
  valid : matchesPlayerID text = true
  deriving DecidableEq

def validatePlayerID (id : Text) : Option PlayerId :=
  if valid : matchesPlayerID id = true then some ⟨id, valid⟩ else none

/-- `filepath.Base`. -/
def basename (path : Text) : Text :=
  if path = [] then ['.']
  else
    let last := ((trimRightFunc (· == '/') path).reverse.takeWhile (· != '/')).reverse
    if last = [] then ['/'] else last

/-- `filepath.Ext` of a base name. -/
def extension (name : Text) : Text :=
  if '.' ∈ name then '.' :: (name.reverse.takeWhile (· != '.')).reverse else []

def defaultSaveName (gameFile : Text) : Text :=
  (basename gameFile).take ((basename gameFile).length - (extension (basename gameFile)).length) ++
    ".sav".toList

/-- The pool's configuration. The names of files and directories are single
lines, and the base directory is written as `filepath.Join` leaves it. -/
structure PoolConfig where
  saveBaseDir : Text
  gameFile : Text
  maxActiveSessions : Int
  idleStartTimeout : Int
  inactivityTimeout : Int
  single : '\n' ∉ saveBaseDir ∧ '\n' ∉ gameFile

namespace PoolConfig

/-- The defaults that `NewPool` applies; the timeouts are in nanoseconds. -/
def withDefaults (cfg : PoolConfig) : PoolConfig :=
  { cfg with
    maxActiveSessions := if cfg.maxActiveSessions ≤ 0 then 8 else cfg.maxActiveSessions
    idleStartTimeout :=
      if cfg.idleStartTimeout = 0 then 5 * 60 * 1000000000 else cfg.idleStartTimeout
    inactivityTimeout :=
      if cfg.inactivityTimeout = 0 then 30 * 60 * 1000000000 else cfg.inactivityTimeout }

theorem maxActiveSessions_pos (cfg : PoolConfig) : 0 < cfg.withDefaults.maxActiveSessions := by
  unfold withDefaults
  simp only
  split <;> omega

/-- The directory of a player's save file. -/
def saveDir (cfg : PoolConfig) (p : PlayerId) : Text := cfg.saveBaseDir ++ '/' :: p.text

/-- The name a save and a restore send to the interpreter. -/
def savePath (cfg : PoolConfig) (p : PlayerId) : Text :=
  cfg.saveDir p ++ '/' :: defaultSaveName cfg.gameFile

end PoolConfig

/-! ## The state -/

/-- How an operation of the pool fails. -/
inductive PoolErr
  | invalidPlayerID
  | notAllowed
  | sessionFull
  | sessionNotFound
  | start
  | removal
  | manager (err : Err)
  deriving DecidableEq

/-- `poolEntry`. -/
structure Entry where
  manager : Nat
  num : Nat
  /-- `lastCommandAt` is set. -/
  commanded : Bool
  idleTimer : Option Nat
  inactiveTimer : Option Nat
  deriving DecidableEq

/-- Who runs `Pool.Start`. -/
inductive Via
  | request
  /-- `Reset`. Bookkeeping: how often the directory had been wiped, its own wipe
  included. -/
  | reset (wipes : Nat)
  deriving DecidableEq

/-- Who runs `endInternal`. -/
inductive By
  | request
  /-- `autoEnd`, with the number that its timer carries. -/
  | timer (num : Nat)
  | reset
  /-- `Pool.Close`, with the players that come next. -/
  | shutdown (rest : List PlayerId)
  deriving DecidableEq

/-- Whether the session is saved before it is closed. -/
def By.save : By → Bool
  | .reset => false
  | _ => true

/-- What a `Manager.Command` is run for. -/
inductive For
  | restore (via : Via)
  | reply
  | save (by_ : By)
  deriving DecidableEq

/-- What an operation returned. -/
inductive Ret
  | started (p : PlayerId) (via : Via) (err : Option PoolErr)
  | replied (p : PlayerId) (output : Text)
  | ended (p : PlayerId) (err : Option PoolErr)
  | closed
  | failed (err : PoolErr)
  deriving DecidableEq

/-- Where a goroutine is. -/
inductive Thread
  /-- `Start` is about to look at the table for the first time. -/
  | checking (p : PlayerId) (via : Via)
  /-- `dirHasSaveFile` is next. -/
  | probing (p : PlayerId) (via : Via)
  /-- `Manager.Start` is next. -/
  | launching (p : PlayerId) (via : Via) (hasSave : Bool)
  | booting (p : PlayerId) (via : Via) (hasSave : Bool) (m i : Nat) (buf : Text)
  /-- The restore command is next. -/
  | restoring (p : PlayerId) (via : Via) (m : Nat)
  /-- `Start` is about to look at the table again. -/
  | inserting (p : PlayerId) (via : Via) (hasSave : Bool) (m : Nat)
  | discarding (p : PlayerId) (via : Via) (m : Nat) (err : Option PoolErr)
  /-- `Pool.Command` is about to look up its player. -/
  | lookup (p : PlayerId) (text : Text)
  /-- `Pool.Command` is about to enter `Manager.Command`. -/
  | commanding (p : PlayerId) (m : Nat) (text : Text)
  /-- Inside `Manager.Command`. -/
  | calling (p : PlayerId) (m : Nat) (for_ : For) (call : Call)
  /-- `autoEnd` is about to check the session number. -/
  | autoEnding (p : PlayerId) (num : Nat)
  /-- `endInternal` is about to take the entry out of the table. -/
  | deleting (p : PlayerId) (by_ : By)
  /-- The save command is next. -/
  | saving (p : PlayerId) (by_ : By) (m : Nat)
  /-- `Manager.Close` is next. -/
  | closing (p : PlayerId) (by_ : By) (m : Nat)
  /-- `Reset` is about to remove the save directory. -/
  | wiping (p : PlayerId)
  /-- `Close` is about to list the players. -/
  | listing
  | returned (r : Ret)
  deriving DecidableEq

/-- Bookkeeping: a session that was saved, as far as that went, and closed. -/
structure Ending where
  manager : Nat
  /-- A save was executed after the last completed game command. -/
  saved : Bool
  deriving DecidableEq

/-- Bookkeeping: a session that entered the table. -/
structure Begin (G : Type) where
  player : PlayerId
  thread : Nat
  manager : Nat
  /-- The state the player's session was in when it last left the table. -/
  left : Option G
  /-- The state this session is in. -/
  state : Option G

/-- Bookkeeping: what a `Pool.Close` found when it listed the players. -/
structure Listing where
  /-- The managers in the table. -/
  managers : List (PlayerId × Nat)
  /-- The goroutines inside `Start`. -/
  starting : List Nat
  deriving DecidableEq

structure Pool (G : Type) where
  entries : Table PlayerId Entry
  nextNum : Nat
  /-- Every manager ever created, with its player. -/
  managers : List (PlayerId × Manager G)
  disks : PlayerId → Disk G
  /-- The armed timers, each with the arguments of its `autoEnd`. -/
  timers : Table Nat (PlayerId × Nat)
  nextTimer : Nat
  threads : Table Nat Thread
  /-- Bookkeeping, newest first. -/
  endings : List Ending
  /-- Bookkeeping, newest first. -/
  begins : List (Begin G)
  /-- Bookkeeping: the state a player's session was in when it last left the
  table to be saved. -/
  left : PlayerId → Option G
  /-- Bookkeeping, by goroutine. -/
  listings : Table Nat Listing

namespace Thread

/-- The goroutine is inside `Pool.Start`. -/
def isStart : Thread → Bool
  | .checking .. | .probing .. | .launching .. | .booting .. | .restoring .. | .inserting ..
  | .discarding .. => true
  | .calling _ _ (.restore _) _ => true
  | _ => false

/-- What a goroutine does after `endInternal` has returned. -/
def afterEnd (p : PlayerId) (err : Option PoolErr) : By → Thread
  | .request | .timer _ => .returned (.ended p err)
  | .reset => .wiping p
  | .shutdown [] => .returned .closed
  | .shutdown (q :: rest) => .deleting q (.shutdown rest)

/-- What a goroutine does once its `Manager.Command` has returned. -/
def afterCall (p : PlayerId) (m : Nat) (r : Result) : For → Thread
  | .restore via => .inserting p via true m
  | .reply =>
      match r with
      | .ok output => .returned (.replied p output)
      | .err err => .returned (.failed (.manager err))
  | .save by_ => .closing p by_ m

end Thread

/-! ## The steps -/

/-- The operations that requests and the shutdown run. -/
inductive Op
  | start (playerID : Text)
  /-- `handleCommand`, with the text of its request. -/
  | command (playerID text : Text)
  | endSession (playerID : Text)
  | reset (playerID : Text)
  | close
  deriving DecidableEq

/-- Where a goroutine that runs the operation starts. -/
def Op.thread : Op → Thread
  | .start id =>
      match validatePlayerID id with
      | some p => .checking p .request
      | none => .returned (.failed .invalidPlayerID)
  | .command id text =>
      match validatePlayerID id with
      | some p =>
          if Sanitize.validate text false then .lookup p (trimSpace text)
          else .returned (.failed .notAllowed)
      | none => .returned (.failed .invalidPlayerID)
  | .endSession id =>
      match validatePlayerID id with
      | some p => .deleting p .request
      | none => .returned (.failed .invalidPlayerID)
  | .reset id =>
      match validatePlayerID id with
      | some p => .deleting p .reset
      | none => .returned (.failed .invalidPlayerID)
  | .close => .listing

/-- How `os.RemoveAll` goes. -/
inductive Removal
  | ok
  /-- It fails before it removed anything. -/
  | kept
  /-- It fails after it removed the save file. -/
  | emptied
  deriving DecidableEq

/-- The texts of the pool's own commands. -/
def restoreText : Text := "restore".toList

def saveText : Text := "save".toList

namespace Pool

/-- `NewPool`. -/
def init : Pool G where
  entries := .empty
  nextNum := 1
  managers := []
  disks _ := .init
  timers := .empty
  nextTimer := 0
  threads := .empty
  endings := []
  begins := []
  left _ := none
  listings := .empty

inductive Act
  /-- A new goroutine runs an operation. -/
  | call (c : Nat) (op : Op)
  /-- An armed timer fires and runs `autoEnd` in a new goroutine. -/
  | fire (timer c : Nat)
  /-- A goroutine takes its next step. -/
  | go (c : Nat)
  /-- A goroutine that is using its manager takes its next step there. -/
  | move (c : Nat) (move : Manager.Move)
  | wipe (c : Nat) (removal : Removal)
  /-- The world outside moves at one manager. -/
  | env (m : Nat) (event : Manager.Env)
  deriving DecidableEq

/-- A goroutine goes on to another point. -/
def goes (c : Nat) (thread : Thread) (s : Pool G) : Pool G :=
  { s with threads := s.threads.set c thread }

def setManager (m : Nat) (mgr : Manager G) (s : Pool G) : Pool G :=
  { s with managers := s.managers.modify m fun row => (row.1, mgr) }

def setDisk (p : PlayerId) (d : Disk G) (s : Pool G) : Pool G :=
  { s with disks := Function.update s.disks p d }

/-- The state of a manager's current game. -/
def stateOf (s : Pool G) (m : Nat) : Option G :=
  (s.managers[m]?).bind fun row => row.2.current.map (·.play.state)

/-- `Timer.Stop`. -/
def stop (timer : Option Nat) (s : Pool G) : Pool G :=
  match timer with
  | some t => { s with timers := s.timers.erase t }
  | none => s

/-- `time.AfterFunc`, unless the timeout is disabled. -/
def arm (timeout : Int) (p : PlayerId) (num : Nat) (s : Pool G) : Pool G × Option Nat :=
  if 0 < timeout then
    ({ s with timers := s.timers.set s.nextTimer (p, num), nextTimer := s.nextTimer + 1 },
      some s.nextTimer)
  else (s, none)

/-- The end of `Start`: the table gets its entry and the idle timer is armed. -/
def insert (cfg : PoolConfig) (p : PlayerId) (c m : Nat) (s : Pool G) : Pool G :=
  let (s', idleTimer) := s.arm cfg.idleStartTimeout p s.nextNum
  { s' with
    entries := s.entries.set p ⟨m, s.nextNum, false, idleTimer, none⟩
    nextNum := s.nextNum + 1
    begins := ⟨p, c, m, s.left p, s.stateOf m⟩ :: s.begins }

/-- The first part of `Command`: the timers are set back. -/
def touch (cfg : PoolConfig) (p : PlayerId) (e : Entry) (s : Pool G) : Pool G :=
  let first := !e.commanded && e.idleTimer.isSome
  let stopped := (if first then s.stop e.idleTimer else s).stop e.inactiveTimer
  let (s', inactiveTimer) := stopped.arm cfg.inactivityTimeout p e.num
  { s' with
    entries := s.entries.set p { e with
      commanded := true
      idleTimer := if first then none else e.idleTimer
      inactiveTimer := if 0 < cfg.inactivityTimeout then inactiveTimer else e.inactiveTimer } }

/-- The first part of `endInternal`: the timers are stopped and the entry leaves
the table. -/
def delete (p : PlayerId) (e : Entry) (save : Bool) (s : Pool G) : Pool G :=
  let stopped := (s.stop e.idleTimer).stop e.inactiveTimer
  { stopped with
    entries := s.entries.erase p
    left := if save then Function.update s.left p (s.stateOf e.manager) else s.left }

/-- A goroutine enters `Manager.Command`. -/
def enter (c : Nat) (p : PlayerId) (m : Nat) (text : Text) (for_ : For) (s : Pool G) :
    Option (Pool G) :=
  match s.managers[m]? with
  | none => none
  | some (_, mgr) =>
      match mgr.enter text with
      | none => none
      | some (mgr', .inside call) => some ((s.setManager m mgr').goes c (.calling p m for_ call))
      | some (mgr', .outside r) => some ((s.setManager m mgr').goes c (Thread.afterCall p m r for_))

/-- A goroutine runs `Manager.Close`. -/
def close (c m : Nat) (next : Thread) (s : Pool G) : Option (Pool G) :=
  match s.managers[m]? with
  | none => none
  | some (_, mgr) => mgr.close.map fun mgr' => (s.setManager m mgr').goes c next

/-- Bookkeeping: whether a manager's current game was saved after its last
completed command. -/
def savedAt (s : Pool G) (m : Nat) : Bool :=
  (s.managers[m]?).any fun row => row.2.current.any (·.saved)

/-- The next step of a goroutine that needs nothing from outside. -/
def go (cfg : PoolConfig) (c : Nat) (s : Pool G) : Thread → Option (Pool G)
  | .checking p via =>
      if (s.entries.get p).isSome then some (s.goes c (.returned (.started p via none)))
      else if cfg.maxActiveSessions ≤ s.entries.size then
        some (s.goes c (.returned (.started p via (some .sessionFull))))
      else some (s.goes c (.probing p via))
  | .probing p via => some (s.goes c (.launching p via (s.disks p).hasSaveFile))
  | .restoring p via m => s.enter c p m restoreText (.restore via)
  | .inserting p via _ m =>
      if (s.entries.get p).isSome then some (s.goes c (.discarding p via m none))
      else if cfg.maxActiveSessions ≤ s.entries.size then
        some (s.goes c (.discarding p via m (some .sessionFull)))
      else some ((s.insert cfg p c m).goes c (.returned (.started p via none)))
  | .discarding p via m err => s.close c m (.returned (.started p via err))
  | .lookup p text =>
      match s.entries.get p with
      | none => some (s.goes c (.returned (.failed .sessionNotFound)))
      | some e => some ((s.touch cfg p e).goes c (.commanding p e.manager text))
  | .commanding p m text => s.enter c p m text .reply
  | .autoEnding p num =>
      match s.entries.get p with
      | some e =>
          if e.num = num then some (s.goes c (.deleting p (.timer num)))
          else some (s.goes c (.returned (.ended p none)))
      | none => some (s.goes c (.returned (.ended p none)))
  | .deleting p by_ =>
      match s.entries.get p with
      | none => some (s.goes c (Thread.afterEnd p (some .sessionNotFound) by_))
      | some e =>
          some ((s.delete p e by_.save).goes c
            (if by_.save then .saving p by_ e.manager else .closing p by_ e.manager))
  | .saving p by_ m => s.enter c p m saveText (.save by_)
  | .closing p by_ m =>
      (s.close c m (Thread.afterEnd p none by_)).map fun t =>
        if by_.save then { t with endings := ⟨m, s.savedAt m⟩ :: s.endings } else t
  | .listing =>
      let found : Listing :=
        ⟨s.entries.rows.map fun row => (row.1, row.2.manager),
          (s.threads.rows.filter fun row => row.2.isStart).map (·.1)⟩
      let listed : Pool G := { s with listings := s.listings.set c found }
      match s.entries.keys with
      | [] => some (listed.goes c (.returned .closed))
      | p :: rest => some (listed.goes c (.deleting p (.shutdown rest)))
  | _ => none

/-- Bookkeeping: a game command was completed. -/
def completed (i : Nat) (for_ : For) (r : Result) (mgr : Manager G) : Manager G :=
  match for_, r with
  | .reply, .ok _ => mgr.onSession i fun s => { s with saved := false }
  | _, _ => mgr

/-- The next step of a goroutine at its manager. -/
def move (I : Interpreter G) (cfg : PoolConfig) (c : Nat) (move : Manager.Move) (s : Pool G) :
    Thread → Option (Pool G)
  | .launching p via hasSave =>
      match move with
      | .relaunch spawn =>
          let m := s.managers.length
          match Manager.new.launch I spawn (s.disks p) with
          | none => none
          | some (_, d, none) =>
              some ((s.setDisk p d).goes c (.returned (.started p via (some .start))))
          | some (mgr, d, some i) =>
              some ({ s.setDisk p d with managers := s.managers ++ [(p, mgr)] }.goes c
                (.booting p via hasSave m i []))
      | _ => none
  | .booting p via hasSave m i buf =>
      match move, s.managers[m]? with
      | .poll poll, some (_, mgr) =>
          match mgr.boot i buf poll with
          | none => none
          | some (mgr', .waiting buf') =>
              some ((s.setManager m mgr').goes c (.booting p via hasSave m i buf'))
          | some (mgr', .started) =>
              some ((s.setManager m mgr').goes c
                (if hasSave then .restoring p via m else .inserting p via false m))
          | some (mgr', .failed) =>
              some ((s.setManager m mgr').goes c (.returned (.started p via (some .start))))
      | _, _ => none
  | .calling p m for_ call =>
      match s.managers[m]? with
      | none => none
      | some (_, mgr) =>
          match mgr.advance I (cfg.savePath p) c call move (s.disks p) with
          | none => none
          | some (mgr', d, .inside call') =>
              some (((s.setManager m mgr').setDisk p d).goes c (.calling p m for_ call'))
          | some (mgr', d, .outside r) =>
              some (((s.setManager m (completed call.session for_ r mgr')).setDisk p d).goes c
                (Thread.afterCall p m r for_))
  | _ => none

/-- The next step of a `Reset` that removes the save directory. -/
def wipe (c : Nat) (removal : Removal) (s : Pool G) : Thread → Option (Pool G)
  | .wiping p =>
      match removal with
      | .ok =>
          some ((s.setDisk p (s.disks p).removeAll).goes c
            (.checking p (.reset ((s.disks p).wipes + 1))))
      | .kept => some (s.goes c (.returned (.failed .removal)))
      | .emptied =>
          some ((s.setDisk p (s.disks p).clear).goes c (.returned (.failed .removal)))
  | _ => none

def step (I : Interpreter G) (cfg : PoolConfig) (s : Pool G) : Act → Option (Pool G)
  | .call c op =>
      match s.threads.get c with
      | none => some (s.goes c op.thread)
      | some _ => none
  | .fire timer c =>
      match s.timers.get timer, s.threads.get c with
      | some (p, num), none =>
          some ({ s with timers := s.timers.erase timer }.goes c (.autoEnding p num))
      | _, _ => none
  | .go c => (s.threads.get c).bind (s.go cfg c)
  | .move c m => (s.threads.get c).bind (s.move I cfg c m)
  | .wipe c removal => (s.threads.get c).bind (s.wipe c removal)
  | .env m event =>
      match s.managers[m]? with
      | none => none
      | some (p, mgr) =>
          match mgr.env I (cfg.savePath p) event (s.disks p) with
          | none => none
          | some (mgr', d) => some ((s.setManager m mgr').setDisk p d)

end Pool

/-- The runs of a pool. -/
def pool (I : Interpreter G) (cfg : PoolConfig) : System (Pool G) Pool.Act :=
  ⟨.init, Pool.step I cfg.withDefaults⟩

end Zorkbot.Pty
