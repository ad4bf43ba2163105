/-
# What a player may send to the interpreter

`sanitize.Validate`, which every command of a player passes before it reaches
the game. The interpreter reads one line per command and treats two words,
alone on a line, as requests about the save file. A player's command is neither
more than one line nor such a request.
-/

import Mathlib.Data.List.DropRight
import Zorkbot.Pty.Text

namespace Zorkbot.Sanitize

open Go Pty

def blockedDebugCommands : List Text :=
  ["$help", "$quit", "$undo", "$redo", "$dump", "$dict", "$tree", "$room", "$you", "$find",
    "$object", "$parent", "$attrs", "$props", "$simple", "$header", "$history", "$have_attr",
    "$have_prop", "$steal", "$teleport"].map String.toList

def maxCommandLength : Nat := 80

/-- The replacement character, U+FFFD, is not looked at further. -/
def hasControlOrANSI (text : Text) : Bool :=
  text.any fun r => r.toNat != 0xFFFD && (r.toNat < 0x20 || r.toNat == 0x7f || r == '\x1b')

/-- Whether a text may be forwarded to the interpreter. -/
def validate (text : Text) (admin : Bool) : Bool :=
  let text := trimSpace text
  if text = [] then false
  else if byteLength text > maxCommandLength then false
  else if text.any fun c => c == '\n' || c == '\r' then false
  else if hasPrefix text ['$'] then false
  else if toLower text ∈ blockedDebugCommands then false
  else if hasControlOrANSI text then false
  else
    let lower := toLower text
    !(!admin && (lower == "save".toList || lower == "restore".toList || lower == "quit".toList))

/-- A command that may be played: one line, and no request about the save file. -/
structure Playable (text : Text) : Prop where
  single : '\n' ∉ text
  plain : requestOf text = none

/-! ## Trimming -/

theorem trimSpace_eq (t : Text) : trimSpace t = (t.dropWhile isSpace).rdropWhile isSpace := rfl

/-- What was trimmed has nothing left to trim at its start. -/
theorem dropWhile_trimSpace (t : Text) : (trimSpace t).dropWhile isSpace = trimSpace t := by
  have kept : trimSpace t <+: t.dropWhile isSpace := List.rdropWhile_prefix isSpace _
  cases trimmed : trimSpace t with
  | nil => rfl
  | cons c rest =>
      rw [trimmed] at kept
      obtain ⟨tail, whole⟩ := kept
      have first : isSpace c = false := by
        have := List.head?_dropWhile_not isSpace t
        rw [← whole] at this
        simpa using this
      rw [List.dropWhile_cons_of_neg (by simp [first])]

theorem trimSpace_trimSpace (t : Text) : trimSpace (trimSpace t) = trimSpace t := by
  rw [trimSpace_eq (trimSpace t), dropWhile_trimSpace, trimSpace_eq t]
  exact List.rdropWhile_idempotent isSpace _

/-! ## What validation gives -/

theorem validate_eq_true {text : Text} (valid : validate text false = true) :
    ((trimSpace text).any fun c => c == '\n' || c == '\r') = false ∧
      toLower (trimSpace text) ≠ "save".toList ∧ toLower (trimSpace text) ≠ "restore".toList := by
  unfold validate at valid
  grind

/-- The text that a validated command sends may be played. -/
theorem playable_of_validate {text : Text} (valid : validate text false = true) :
    Playable (trimSpace text) := by
  obtain ⟨single, notSave, notRestore⟩ := validate_eq_true valid
  constructor
  · intro broken
    exact absurd (List.any_eq_true.mpr ⟨'\n', broken, rfl⟩) (by rw [single]; decide)
  · rw [requestOf, trimSpace_trimSpace, if_neg notSave, if_neg notRestore]

end Zorkbot.Sanitize
