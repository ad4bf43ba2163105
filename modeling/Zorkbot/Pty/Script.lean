/-
# Scripts

An interpreter that says as little as it can, and pieces of the runs in which a
pool of such interpreters starts, plays, saves and ends sessions. They are put
together where a run of the pool has to be shown.
-/

import Zorkbot.Pty.Pool
import Zorkbot.Pty.Saving

namespace Zorkbot.Pty

open Go

/-- An interpreter that prints nothing but its prompt and its question for a file
name, each with a blank behind it. Its game is the list of commands played, the
newest first. -/
def terse : Interpreter (List Text) where
  fresh := []
  banner := "> ".toList
  play told line := line :: told
  output _ asked line _ :=
    match after asked line with
    | none => "> ".toList
    | some _ => "Filename: ".toList

/-- A pool without timers. -/
def smallPool : PoolConfig where
  saveBaseDir := "/saves".toList
  gameFile := "/zork1.z3".toList
  maxActiveSessions := 8
  idleStartTimeout := -1
  inactivityTimeout := -1
  single := by decide

def alice : PlayerId := ⟨"aaaaaaaaaaaa".toList, by decide⟩

def bob : PlayerId := ⟨"bbbbbbbbbbbb".toList, by decide⟩

/-- Nobody gives up on an answer, and no interpreter exits by itself. -/
def Pool.Act.inTime : Pool.Act → Bool
  | .move _ (.poll .cancelled) | .move _ (.poll .deadline) | .env _ (.exit _) => false
  | _ => true

/-- The player is reset. -/
def Pool.Act.resets (p : PlayerId) : Pool.Act → Bool
  | .call _ (.reset id) => validatePlayerID id == some p
  | _ => false

namespace Pool.Script

def look : Text := "look".toList

/-- Goroutine `c` creates manager `m` and waits for its first prompt. -/
def boots (c m : Nat) : List Act :=
  [.move c (.relaunch .ok), .env m (.deliver 0 2), .move c (.poll (.data 2)),
    .move c (.poll .idle)]

/-- Reading an answer of `n` characters and a blank, which comes when the reader has
stopped. -/
def reads (c m i n : Nat) : List Act :=
  [.env m (.deliver i n), .move c (.poll (.data n)), .move c (.poll .idle), .env m (.deliver i 1),
    .move c .drained]

/-- A command is played. -/
def plays (c m i : Nat) : List Act :=
  [Act.move c .write, .env m (.consume i true)] ++ reads c m i 1 ++ [Act.move c .leave]

/-- A save or a restore is run; `ok` is whether the file can be used. -/
def requests (c m i : Nat) (ok : Bool) : List Act :=
  [Act.move c .write, .env m (.consume i true)] ++ reads c m i 9 ++ [Act.env m (.consume i ok)] ++
    reads c m i 1 ++ [Act.move c .leave]

/-- `Start` without a save file, up to its look at the table. -/
def starts (p : PlayerId) (c m : Nat) : List Act :=
  [Act.call c (.start p.text), .go c, .go c] ++ boots c m

/-- `Start` with a save file, up to its second look at the table. -/
def resumes (p : PlayerId) (c m : Nat) (ok : Bool) : List Act :=
  starts p c m ++ [Act.go c] ++ requests c m 0 ok

/-- A player's command, up to the goroutine's first step at the manager. -/
def commands (p : PlayerId) (c : Nat) (text : Text) : List Act :=
  [.call c (.command p.text text), .go c, .go c]

/-- `End`. -/
def ends (p : PlayerId) (c m i : Nat) : List Act :=
  [Act.call c (.endSession p.text), .go c, .go c] ++ requests c m i true ++ [Act.go c]

/-- `Reset` of a player without a session. -/
def resets (p : PlayerId) (c m : Nat) : List Act :=
  [Act.call c (.reset p.text), .go c, .wipe c .ok, .go c, .go c] ++ boots c m ++ [Act.go c]

end Pool.Script

end Zorkbot.Pty
