/-
# Reading the interpreter's terminal output

What the game service does with the bytes it reads from the interpreter's
pseudo-terminal: control sequences are stripped, the end of an answer is
recognised by its prompt, and the echoed command and the prompt are cut off the
answer before it is returned.

The two regular expressions are written as the length of the match that Go's
leftmost, greedy search finds at a position.
-/

import Zorkbot.Pty.Unicode

namespace Zorkbot.Pty

open Go

/-! ## Control sequences -/

/-- Replace every match by nothing, left to right and without overlap. The
counter is what is left to skip of the current match. -/
def deleteMatches (matchLength : Text → Option Nat) : Nat → Text → Text
  | _, [] => []
  | skip + 1, _ :: rest => deleteMatches matchLength skip rest
  | 0, c :: rest =>
      match matchLength (c :: rest) with
      | some (n + 1) => deleteMatches matchLength n rest
      | _ => c :: deleteMatches matchLength 0 rest

/-- How many characters precede the first bell, if there is one. -/
def beforeBell (t : Text) : Option Nat :=
  if '\x07' ∈ t then some (t.takeWhile (· ≠ '\x07')).length else none

/-- The length up to and including the last string terminator (escape, backslash). -/
def throughTerminator : Text → Option Nat
  | c :: d :: rest =>
      match throughTerminator (d :: rest) with
      | some n => some (n + 1)
      | none => if c = '\x1b' ∧ d = '\\' then some 2 else none
  | _ => none

/-- A match of `oscEscape` at the start: the payload is any text without a bell,
taken greedily, so it ends at the first bell if one follows and at the last
string terminator otherwise. -/
def oscLength : Text → Option Nat
  | '\x1b' :: ']' :: rest =>
      match beforeBell rest with
      | some n => some (n + 3)
      | none => (throughTerminator rest).map (· + 2)
  | _ => none

/-- A parameter of a control sequence: a digit, semicolon or question mark. -/
def isParameter (c : Char) : Bool := ('0' ≤ c && c ≤ '9') || c == ';' || c == '?'

/-- An intermediate of a control sequence: from space up to slash. -/
def isIntermediate (c : Char) : Bool := ' ' ≤ c && c ≤ '/'

/-- The end of a control sequence: from at sign up to tilde. -/
def isFinal (c : Char) : Bool := '@' ≤ c && c ≤ '~'

/-- A match of `ansiEscape` at the start. The three classes are disjoint, so the
greedy repetitions never give a character back. -/
def csiLength : Text → Option Nat
  | '\x1b' :: '[' :: rest =>
      let parameters := rest.takeWhile isParameter
      let afterParameters := rest.dropWhile isParameter
      let intermediates := afterParameters.takeWhile isIntermediate
      match afterParameters.dropWhile isIntermediate with
      | final :: _ =>
          if isFinal final then some (2 + parameters.length + intermediates.length + 1) else none
      | [] => none
  | _ => none

def stripANSI (s : Text) : Text :=
  deleteMatches csiLength 0 (deleteMatches oscLength 0 s)

/-- Carriage returns, alone or before a line feed, become line feeds. -/
def normalizeNewlines : Text → Text
  | '\r' :: '\n' :: rest => '\n' :: normalizeNewlines rest
  | '\r' :: rest => '\n' :: normalizeNewlines rest
  | c :: rest => c :: normalizeNewlines rest
  | [] => []

/-- The loop of `collapseBlankLines`: the lines kept so far and whether the last
of them is blank. -/
def collapseLoop (out : List Text) (blank : Bool) : List Text → List Text
  | [] => out
  | line :: rest =>
      let trimmed := trimSpace line
      if trimmed = [] then
        if !blank && !out.isEmpty then collapseLoop (out ++ [[]]) true rest
        else collapseLoop out blank rest
      else collapseLoop (out ++ [trimmed]) false rest

def collapseBlankLines (s : Text) : Text :=
  trimSpace (joinLines (collapseLoop [] false (splitLines s)))

/-! ## Prompts -/

/-- The cutset `" \t\n\r"`. -/
def isBlank (c : Char) : Bool := c == ' ' || c == '\t' || c == '\n' || c == '\r'

def cleaned (buf : Text) : Text := trimRightFunc isBlank (stripANSI buf)

def hasPrompt (buf : Text) : Bool := hasSuffix (cleaned buf) ['>']

def hasFilenamePrompt (buf : Text) : Bool :=
  contains (cleaned buf) "Filename".toList && hasSuffix (cleaned buf) [':']

/-- What a command asks the interpreter to do with the save file. -/
inductive Request
  | save
  | restore
  deriving DecidableEq

/-- The request a command line makes, letter case and surrounding space aside. -/
def requestOf (command : Text) : Option Request :=
  if toLower (trimSpace command) = "save".toList then some .save
  else if toLower (trimSpace command) = "restore".toList then some .restore
  else none

def isSaveRestoreCommand (command : Text) : Bool := (requestOf command).isSome

def isPromptOnlyLine (line : Text) : Bool :=
  let trimmed := trimSpace (stripANSI line)
  trimmed == ['>'] || (hasPrefix trimmed ['>'] && contains trimmed " - ".toList)

/-! ## The answer to a command -/

def normalizeEcho (s : Text) : Text := toLower (squeeze s)

/-- A nonblank line as a piece of echo: without the prompt it may start with. -/
def echoContent (trimmed : Text) : Text :=
  if hasPrefix trimmed ['>'] then trimSpace (trimPrefix trimmed ['>']) else trimmed

/-- The loop of `skipCommandEcho` from line `i` on, with the echo collected so
far. A matching echo returns the index after its last line, a mismatch returns
zero, and so does running out of lines: an echo that had matched would have
returned at its own line. -/
def skipEchoLoop (normalizedCommand : Text) (i : Nat) (echo : Text) : List Text → Nat
  | [] => 0
  | line :: rest =>
      let trimmed := trimSpace line
      if echo = [] then
        if trimmed = [] then skipEchoLoop normalizedCommand (i + 1) [] rest
        else if echoContent trimmed = [] then 0
        else
          let echo' := echoContent trimmed
          if normalizeEcho echo' = normalizedCommand then i + 1
          else if !hasPrefix normalizedCommand (normalizeEcho echo') then 0
          else skipEchoLoop normalizedCommand (i + 1) echo' rest
      else
        let echo' := if trimmed ≠ [] then echo ++ trimmed else echo
        if normalizeEcho echo' = normalizedCommand then i + 1
        else if !hasPrefix normalizedCommand (normalizeEcho echo') then 0
        else skipEchoLoop normalizedCommand (i + 1) echo' rest

def skipCommandEcho (lines : List Text) (command : Text) : Nat :=
  let command := trimSpace command
  if command = [] then 0 else skipEchoLoop (normalizeEcho command) 0 [] lines

/-- The loop of `skipCommandEchoLine` from line `i` on. -/
def skipEchoLineLoop (command : Text) (i : Nat) : List Text → Nat
  | [] => 0
  | line :: rest =>
      let trimmed := trimSpace line
      if hasPrefix trimmed ['>'] && equalFold (trimSpace (trimPrefix trimmed ['>'])) command
      then i + 1
      else skipEchoLineLoop command (i + 1) rest

def skipCommandEchoLine (lines : List Text) (command : Text) : Nat :=
  skipEchoLineLoop (trimSpace command) 0 lines

/-- The last prompt line at or after `start`, or the number of lines. -/
def promptIndex (lines : List Text) (start : Nat) : Nat :=
  ((List.range' start (lines.length - start)).reverse.find?
    fun i => isPromptOnlyLine (lines.getD i [])).getD lines.length

def extractResponse (raw command : Text) : Text :=
  let text := normalizeNewlines (stripANSI raw)
  let lines := splitLines text
  let echoed := skipCommandEcho lines command
  let start := if echoed = 0 then skipCommandEchoLine lines command else echoed
  let finish := promptIndex lines start
  if finish ≤ start then collapseBlankLines (trimSpace text)
  else collapseBlankLines (joinLines ((lines.take finish).drop start))

example : extractResponse "look\r\nKitchen\r\nA table.\r\n\r\n>".toList "look".toList =
    "Kitchen\nA table.".toList := by decide

end Zorkbot.Pty
