/-
# One interpreter process behind a pseudo-terminal

The interpreter is a program outside the service: a parameter that says how a
line changes the game and what is printed for it. It reads the lines written to
its terminal in order, each when it gets to it, and prints one answer per line;
what it prints arrives at the service's end of the terminal later, in pieces.

`readUntil` is the service's polling loop. Clocks are not modelled: a deadline
may pass, and the idle wait may elapse, at any poll at which the loop would act
on it. So every timed behaviour of the loop is a behaviour of this model.

Fields marked as bookkeeping are read by no function of the service. They record
where a game state came from and what happened to a session, for the theorems.
-/

import Zorkbot.Pty.Text

namespace Zorkbot.Pty

open Go

variable {G : Type}

/-! ## The save directory -/

/-- A game in progress. -/
structure Play (G : Type) where
  state : G
  /-- Bookkeeping: how often the player's directory had been wiped when the
  fresh game this one goes back to was begun. -/
  born : Nat
  /-- Bookkeeping: the saves this game goes back to, newest first. -/
  saves : List Nat

/-- One game is the other one played on. -/
def Play.DescendsFrom (later earlier : Play G) : Prop := earlier.saves <:+ later.saves

theorem Play.DescendsFrom.refl (play : Play G) : play.DescendsFrom play := List.suffix_refl _

/-- A player's save directory, possibly holding a save file. -/
inductive SaveDir (G : Type)
  | absent
  | present (save : Option (Play G))

/-- Bookkeeping: one write of the save file, with the file it replaced. -/
structure Write (G : Type) where
  replaced : Option (Play G)
  play : Play G
  wipes : Nat

/-- What the disk holds for one player. -/
structure Disk (G : Type) where
  dir : SaveDir G
  /-- Bookkeeping: every write of the save file, newest first. -/
  writes : List (Write G)
  /-- Bookkeeping: how often the directory was removed. -/
  wipes : Nat

namespace Disk

def init : Disk G := ⟨.absent, [], 0⟩

/-- The save file. -/
def save (d : Disk G) : Option (Play G) :=
  match d.dir with
  | .absent => none
  | .present save => save

/-- Whether the directory holds a save file, `dirHasSaveFile`. -/
def hasSaveFile (d : Disk G) : Bool := d.save.isSome

/-- `os.MkdirAll`. -/
def mkdirAll (d : Disk G) : Disk G :=
  match d.dir with
  | .absent => { d with dir := .present none }
  | .present _ => d

/-- `os.RemoveAll`. -/
def removeAll (d : Disk G) : Disk G :=
  { d with dir := .absent, wipes := d.wipes + 1 }

/-- The save file is removed and the directory is not. -/
def clear (d : Disk G) : Disk G :=
  match d.dir with
  | .absent => d
  | .present _ => { d with dir := .present none }

/-- Write the save file. The game that was written goes back to this save. -/
def write (d : Disk G) (play : Play G) : Option (Play G × Disk G) :=
  match d.dir with
  | .absent => none
  | .present replaced =>
      let play' := { play with saves := d.writes.length :: play.saves }
      some (play', ⟨.present (some play'), ⟨replaced, play', d.wipes⟩ :: d.writes, d.wipes⟩)

theorem write_present {d d' : Disk G} {play play' : Play G}
    (written : d.write play = some (play', d')) : d'.dir ≠ .absent := by
  unfold write at written
  split at written
  · simp at written
  · simp only [Option.some.injEq, Prod.mk.injEq] at written
    rw [← written.2]
    simp

/-- What is written replaces the save file, and the write is recorded. -/
theorem write_eq_some {d d' : Disk G} {play play' : Play G}
    (written : d.write play = some (play', d')) :
    play' = { play with saves := d.writes.length :: play.saves } ∧ d'.save = some play' ∧
      d'.writes = ⟨d.save, play', d.wipes⟩ :: d.writes ∧ d'.wipes = d.wipes := by
  unfold write at written
  split at written
  · simp at written
  · next replaced present =>
      simp only [Option.some.injEq, Prod.mk.injEq] at written
      obtain ⟨rfl, rfl⟩ := written
      exact ⟨rfl, rfl, by simp [save, present], rfl⟩

end Disk

/-! ## The interpreter -/

/-- The story interpreter, as its terminal shows it. A line typed while it asks
for a filename is a filename; any other line is a command. -/
structure Interpreter (G : Type) where
  fresh : G
  /-- What it prints when it is started, up to its first prompt. -/
  banner : Text
  play : G → Text → G
  /-- What it prints for a line, the terminal's echo of it included. The flag
  says whether a save or restore succeeded. -/
  output : G → Option Request → Text → Bool → Text

/-- One interpreter process and the service's record of it. -/
structure Session (G : Type) where
  play : Play G
  /-- The request whose filename the interpreter is waiting for. -/
  asking : Option Request
  /-- Lines written and not yet read by the interpreter, each with its writer. -/
  input : List (Nat × Text)
  /-- Printed, and not yet arrived. -/
  wire : Text
  /-- Arrived, and not yet read. -/
  tty : Text
  ready : Bool
  /-- The service's end of the terminal is open. -/
  ptmxOpen : Bool
  running : Bool
  /-- `cmd.ProcessState` is set. Only `Cmd.Wait` sets it, which nothing calls. -/
  processState : Bool
  /-- Who holds `Session.mu`. -/
  mu : Option Nat
  /-- Bookkeeping: the writer, the line and the answer of every line that was
  read, newest first. -/
  transcript : List (Nat × Text × Text)
  /-- Bookkeeping: a reader gave up before it had read its answer. -/
  abandoned : Bool
  /-- Bookkeeping: the game was loaded from the save file. -/
  restored : Bool
  /-- Bookkeeping: a save was made after the last completed game command. -/
  saved : Bool

/-- What a reader of the terminal waits for. -/
inductive Want
  | prompt
  | filename
  deriving DecidableEq

def Want.ready : Want → Text → Bool
  | .prompt => hasPrompt
  | .filename => hasFilenamePrompt

/-- How a command fails. -/
inductive Err
  | timeout
  | notReady
  | busy
  | notAlive
  | context
  | pty
  deriving DecidableEq

namespace Session

/-- A process that was just started. -/
def spawn (I : Interpreter G) (wipes : Nat) : Session G where
  play := ⟨I.fresh, wipes, []⟩
  asking := none
  input := []
  wire := I.banner
  tty := []
  ready := false
  ptmxOpen := true
  running := true
  processState := false
  mu := none
  transcript := []
  abandoned := false
  restored := false
  saved := false

/-- `Session.Alive`. -/
def alive (s : Session G) : Bool := !s.processState

/-- `Session.Close`. -/
def close (s : Session G) : Session G :=
  { s with ptmxOpen := false, running := s.running && !s.alive }

/-- Write a text and a line feed to the terminal. -/
def writeLines (caller : Nat) (text : Text) (s : Session G) : Session G :=
  { s with input := s.input ++ (splitLines text).map (caller, ·) }

/-! ### The interpreter's side -/

/-- What a line does to the game and the save file, and whether it succeeds.
`path` names the save file in the player's directory. -/
def obey (I : Interpreter G) (path : Text) (ok : Bool) (line : Text) (s : Session G)
    (d : Disk G) : Session G × Disk G × Bool :=
  match s.asking with
  | none =>
      match requestOf line with
      | some request => ({ s with asking := some request }, d, true)
      | none => ({ s with play := { s.play with state := I.play s.play.state line } }, d, true)
  | some .save =>
      match if line = path ∧ ok then d.write s.play else none with
      | some (play, d') => ({ s with asking := none, play := play, saved := true }, d', true)
      | none => ({ s with asking := none }, d, false)
  | some .restore =>
      match if line = path ∧ ok then d.save else none with
      | some play => ({ s with asking := none, play := play, restored := true }, d, true)
      | none => ({ s with asking := none }, d, false)

/-- The interpreter reads the next line, obeys it and prints its answer. -/
def consume (I : Interpreter G) (path : Text) (ok : Bool) (s : Session G) (d : Disk G) :
    Option (Session G × Disk G) :=
  match s.running, s.input with
  | true, (caller, line) :: rest =>
      let obeyed := s.obey I path ok line d
      let answer := I.output s.play.state s.asking line obeyed.2.2
      some ({ obeyed.1 with
        input := rest
        wire := s.wire ++ answer
        transcript := (caller, line, answer) :: s.transcript }, obeyed.2.1)
  | _, _ => none

/-- The next `n` printed characters arrive. -/
def deliver (n : Nat) (s : Session G) : Session G :=
  { s with wire := s.wire.drop n, tty := s.tty ++ s.wire.take n }

/-! ### The polling loop -/

/-- What one round of the loop meets. -/
inductive Poll
  /-- Bytes are available and `n` of them are read. -/
  | data (n : Nat)
  /-- Nothing is available and the idle wait has elapsed. -/
  | idle
  /-- The caller's context is cancelled or past its deadline. -/
  | cancelled
  /-- The command deadline has passed. -/
  | deadline
  /-- Asking for the number of available bytes fails. -/
  | unavailable
  /-- Reading fails, with the end of the stream or another error. -/
  | readError (err : Err)
  deriving DecidableEq

/-- The loop ends in such a round when its test accepts what was read. -/
def Poll.stops : Poll → Bool
  | .idle | .readError _ => true
  | _ => false

/-- How a round of the loop ends. -/
inductive Round
  | again (buf : Text)
  | done (buf : Text)
  | error (err : Err)

/-- One round of `readUntil` with `buf` read so far. The terminal fails only when
it was closed or its process is gone. -/
def readUntil (want : Want) (buf : Text) (s : Session G) : Poll → Option (Session G × Round)
  | .cancelled => some (s, .error .context)
  | .deadline => some (s, .error .timeout)
  | .unavailable => if s.ptmxOpen = false then some (s, .error .pty) else none
  | .idle =>
      if s.ptmxOpen = true ∧ s.tty = [] ∧ buf ≠ [] ∧ want.ready buf = true then
        some (s, .done buf)
      else none
  | .data n =>
      if s.ptmxOpen = true ∧ 0 < n ∧ n ≤ s.tty.length then
        some ({ s with tty := s.tty.drop n }, .again (buf ++ s.tty.take n))
      else none
  | .readError err =>
      if (s.ptmxOpen = false ∨ s.running = false) ∧ (err = .notAlive ∨ err = .pty) then
        if want.ready buf = true then some (s, .done buf) else some (s, .error err)
      else none

/-- `drainPTY`: what is available, and what arrives before the line falls idle,
is thrown away. -/
def drainPTY (s : Session G) : Session G := { s with tty := [] }

/-! ### What one round can do -/

theorem readUntil_again {want : Want} {buf buf' : Text} {s s' : Session G} {poll : Poll}
    (round : s.readUntil want buf poll = some (s', .again buf')) :
    ∃ n, 0 < n ∧ n ≤ s.tty.length ∧ s' = { s with tty := s.tty.drop n } ∧
      buf' = buf ++ s.tty.take n := by
  cases poll with
  | data n =>
      simp only [readUntil, Option.ite_none_right_eq_some, Option.some.injEq, Prod.mk.injEq,
        Round.again.injEq] at round
      obtain ⟨available, rfl, rfl⟩ := round
      exact ⟨n, available.2.1, available.2.2, rfl, rfl⟩
  | readError err =>
      simp only [readUntil, Option.ite_none_right_eq_some] at round
      split at round <;> simp at round
  | idle | cancelled | deadline | unavailable => simp [readUntil] at round

/-- A reader that is done has been told so by its test, and either nothing more
was available or the terminal is gone. -/
theorem readUntil_done {want : Want} {buf raw : Text} {s s' : Session G} {poll : Poll}
    (round : s.readUntil want buf poll = some (s', .done raw)) :
    s' = s ∧ raw = buf ∧ want.ready buf = true ∧
      (s.tty = [] ∨ s.ptmxOpen = false ∨ s.running = false) ∧ poll.stops = true := by
  cases poll with
  | idle =>
      simp only [readUntil, Option.ite_none_right_eq_some, Option.some.injEq, Prod.mk.injEq,
        Round.done.injEq] at round
      obtain ⟨settled, rfl, rfl⟩ := round
      exact ⟨rfl, rfl, settled.2.2.2, .inl settled.2.1, rfl⟩
  | readError err =>
      simp only [readUntil, Option.ite_none_right_eq_some] at round
      obtain ⟨gone, round⟩ := round
      split at round
      · next accepted =>
          simp only [Option.some.injEq, Prod.mk.injEq, Round.done.injEq] at round
          obtain ⟨rfl, rfl⟩ := round
          exact ⟨rfl, rfl, accepted, .inr gone.1, rfl⟩
      · simp at round
  | data | cancelled | deadline | unavailable => simp [readUntil] at round

/-- A reader gives up on its context, on its deadline or on a terminal that is
gone. -/
theorem readUntil_error {want : Want} {buf : Text} {s s' : Session G} {poll : Poll} {err : Err}
    (round : s.readUntil want buf poll = some (s', .error err)) :
    s' = s ∧ (poll = .cancelled ∨ poll = .deadline ∨ s.ptmxOpen = false ∨ s.running = false) := by
  cases poll with
  | cancelled =>
      simp only [readUntil, Option.some.injEq, Prod.mk.injEq] at round
      exact ⟨round.1.symm, .inl rfl⟩
  | deadline =>
      simp only [readUntil, Option.some.injEq, Prod.mk.injEq] at round
      exact ⟨round.1.symm, .inr (.inl rfl)⟩
  | unavailable =>
      simp only [readUntil, Option.ite_none_right_eq_some, Option.some.injEq,
        Prod.mk.injEq] at round
      exact ⟨round.2.1.symm, .inr (.inr (.inl round.1))⟩
  | readError other =>
      simp only [readUntil, Option.ite_none_right_eq_some] at round
      obtain ⟨gone, round⟩ := round
      split at round
      · simp at round
      · simp only [Option.some.injEq, Prod.mk.injEq] at round
        exact ⟨round.1.symm, .inr (.inr gone.1)⟩
  | data | idle => simp [readUntil] at round

end Session

end Zorkbot.Pty
