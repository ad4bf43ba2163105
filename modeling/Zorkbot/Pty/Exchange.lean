/-
# One line and its answer

A reader of the terminal is right when the answer it is reading is the one to
the line its own command wrote. Between two commands the line is quiet: nothing
is left to be read by either side. While a command runs, either its line is
still unread or its answer has been printed, and whatever is on its way
completes what the reader has so far.

The reader stops when its test accepts what it has, and answers go on after
their prompt: a blank follows it, or the title of the terminal's window. So a
part of the answer may still be to come when the reader stops. The drain throws
away what arrives of it until then; what arrives later is read by the next
command.
-/

import Zorkbot.Pty.Manager

namespace Zorkbot.Pty

open Go Manager

variable {G : Type}

/-- What the interpreter asks for once it has read a line. -/
def after (asked : Option Request) (line : Text) : Option Request :=
  match asked with
  | none => requestOf line
  | some _ => none

/-- The test that ends an answer: the interpreter's question or its prompt. -/
def Want.of : Option Request → Want
  | none => .prompt
  | some _ => .filename

/-- A command is one line, and so is the file name that a save or a restore is
asked for. -/
def SingleLine (path text : Text) : Prop :=
  '\n' ∉ text ∧ ∀ request, requestOf text = some request → '\n' ∉ path

theorem firstWant_eq (text : Text) : firstWant text = Want.of (after none text) := by
  unfold firstWant isSaveRestoreCommand after
  cases requestOf text <;> rfl

/-- No test accepts before anything was read. -/
theorem Want.ready_nil (want : Want) : want.ready [] = false := by
  cases want <;> decide

namespace Session

variable {I : Interpreter G} {path : Text} {c : Nat} {line : Text} {asked : Option Request}
  {buf : Text} {s s' : Session G} {d d' : Disk G} {ok : Bool}

/-! ## Reading one line -/

/-- Obeying a line changes the game, what is asked for, and the bookkeeping of
saves; the terminal and the service's side are left alone. -/
theorem obey_frame (I : Interpreter G) (path : Text) (ok : Bool) (line : Text) (s : Session G)
    (d : Disk G) :
    (s.obey I path ok line d).1 =
      { s with
        asking := after s.asking line
        play := (s.obey I path ok line d).1.play
        restored := (s.obey I path ok line d).1.restored
        saved := (s.obey I path ok line d).1.saved } := by
  unfold obey after
  cases asked : s.asking with
  | none => cases requestOf line <;> simp
  | some request =>
      cases request with
      | save => cases (if line = path ∧ ok = true then d.write s.play else none) <;> simp
      | restore => cases (if line = path ∧ ok = true then d.save else none) <;> simp

/-- What reading a line does to the two sides of the terminal. -/
theorem consume_cases (consumed : s.consume I path ok d = some (s', d')) :
    s.running = true ∧ ∃ c line rest g flag play restored saved,
      s.input = (c, line) :: rest ∧
      s' = { s with
        asking := after s.asking line
        play, restored, saved
        input := rest
        wire := s.wire ++ I.output g s.asking line flag
        transcript := (c, line, I.output g s.asking line flag) :: s.transcript } := by
  unfold consume at consumed
  split at consumed
  · next c line rest running pending =>
      simp only [Option.some.injEq, Prod.mk.injEq] at consumed
      obtain ⟨rfl, -⟩ := consumed
      let obeyed := s.obey I path ok line d
      let answer := I.output s.play.state s.asking line obeyed.2.2
      refine ⟨running, c, line, rest, s.play.state, obeyed.2.2, obeyed.1.play,
        obeyed.1.restored, obeyed.1.saved, pending, ?_⟩
      exact congrArg (fun t : Session G => { t with
        input := rest
        wire := s.wire ++ answer
        transcript := (c, line, answer) :: s.transcript }) (obey_frame I path ok line s d)
  · simp at consumed

theorem consume_nil (unwritten : s.input = []) : s.consume I path ok d = none := by
  unfold consume
  split
  · next pending => simp [unwritten] at pending
  · rfl

/-! ## Between two commands -/

/-- Nothing is left to read, on either side. -/
structure Quiet (s : Session G) : Prop where
  input : s.input = []
  wire : s.wire = []
  tty : s.tty = []
  asking : s.asking = none

/-- Nobody has written to a session that is being started. -/
structure Booting (s : Session G) : Prop where
  unready : s.ready = false
  input : s.input = []
  asking : s.asking = none

theorem Booting.spawn (I : Interpreter G) (wipes : Nat) : (Session.spawn I wipes).Booting :=
  ⟨rfl, rfl, rfl⟩

/-- A start after which nothing of the banner is left to read. -/
theorem Booting.quiet (booting : s.Booting) (tty : s.tty = []) (wire : s.wire = []) :
    Quiet { s with ready := true } :=
  ⟨booting.input, wire, tty, booting.asking⟩

/-! ## During a command -/

/-- A line of caller `c` and the request it was written under: it has not been
read, or its answer has been printed and `buf` is what was read of it. -/
inductive Awaits (c : Nat) (line : Text) (asked : Option Request) (buf : Text)
    (s : Session G) : Prop
  | unread (pending : s.input = [(c, line)]) (wire : s.wire = []) (tty : s.tty = [])
      (nothing : buf = []) (asking : s.asking = asked)
  | printed {answer : Text} (input : s.input = []) (recorded : (c, line, answer) ∈ s.transcript)
      (whole : buf ++ (s.tty ++ s.wire) = answer) (asking : s.asking = after asked line)

/-- The answer to a line has been printed, and its reader has stopped. -/
structure Answered (line : Text) (asked : Option Request) (s : Session G) : Prop where
  input : s.input = []
  asking : s.asking = after asked line

/-- A single line written to a quiet terminal is awaited. -/
theorem Awaits.written (input : s.input = []) (wire : s.wire = []) (tty : s.tty = [])
    (asking : s.asking = asked) (single : '\n' ∉ line) (mu : Option Nat) :
    Awaits c line asked [] { s.writeLines c line with mu := mu } := by
  refine .unread ?_ wire tty rfl asking
  simp [writeLines, input, splitLines_of_notMem single]

/-- The interpreter's turn. -/
theorem Awaits.consume (awaits : s.Awaits c line asked buf)
    (consumed : s.consume I path ok d = some (s', d')) : s'.Awaits c line asked buf := by
  cases awaits with
  | unread pending wire tty nothing asking =>
      obtain ⟨-, _, _, _, g, flag, _, _, _, read, rfl⟩ := consume_cases consumed
      rw [pending] at read
      simp only [List.cons.injEq, Prod.mk.injEq] at read
      obtain ⟨⟨rfl, rfl⟩, rfl⟩ := read
      refine .printed rfl List.mem_cons_self ?_ (by simp [asking])
      simp [nothing, tty, wire]
  | printed input => simp [consume_nil input] at consumed

/-- The answer arrives in pieces. -/
theorem Awaits.deliver (awaits : s.Awaits c line asked buf) (n : Nat) :
    (s.deliver n).Awaits c line asked buf := by
  cases awaits with
  | unread pending wire tty nothing asking =>
      exact .unread pending (by simp [Session.deliver, wire])
        (by simp [Session.deliver, wire, tty]) nothing asking
  | printed input recorded whole asking =>
      refine .printed input recorded ?_ asking
      rw [← whole]
      simp [Session.deliver]

/-- The reader takes what has arrived. -/
theorem Awaits.read (awaits : s.Awaits c line asked buf) (n : Nat) :
    Awaits c line asked (buf ++ s.tty.take n) { s with tty := s.tty.drop n } := by
  cases awaits with
  | unread pending wire tty nothing asking =>
      exact .unread pending wire (by simp [tty]) (by simp [tty, nothing]) asking
  | printed input recorded whole asking =>
      refine .printed input recorded ?_ asking
      rw [← whole, List.append_assoc, ← List.append_assoc (s.tty.take n), List.take_append_drop]

/-- A reader whose test accepts has read some of the answer to its own line. -/
theorem Awaits.accepts (awaits : s.Awaits c line asked buf) {want : Want}
    (accepted : want.ready buf = true) :
    s.Answered line asked ∧ (c, line, buf ++ (s.tty ++ s.wire)) ∈ s.transcript := by
  cases awaits with
  | unread pending wire tty nothing asking =>
      rw [nothing, Want.ready_nil] at accepted
      simp at accepted
  | printed input recorded whole asking => exact ⟨⟨input, asking⟩, whole ▸ recorded⟩

end Session

end Zorkbot.Pty
