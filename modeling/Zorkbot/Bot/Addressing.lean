/-
# Messages, mentions and commands

What a command handler knows about the message it answers, and how the text of a
message is read: whether it addresses the bot, and whether what is left is one of
the bot's commands. Python strings are lists of code points, and a string that is
used as a condition is false when it is empty. Python's string methods are defined
where the code uses them; `str.lower` is any function, since Unicode's case mapping
plays no part in what follows.
-/

import Mathlib.Data.List.Basic
import Zorkbot.Data.Words

namespace Zorkbot.Bot

/-- A Python string. -/
abbrev Str := List Char

/-- An optional string that is used as a condition: `None` and the empty string
are false. -/
def truthy (s : Option Str) : Option Str := s.filter (· ≠ [])

structure IncomingMessage where
  text : Str
  senderName : Option Str
  /-- The first twelve hexadecimal characters of the sender's public key. -/
  pubkeyPrefix : Option Str
  /-- The message came by `CONTACT_MSG_RECV`. -/
  isDm : Bool
  channelIdx : Int
  deriving DecidableEq

structure Context where
  message : IncomingMessage
  args : Str
  deriving DecidableEq

namespace Context

def senderName (ctx : Context) : Option Str := ctx.message.senderName

def pubkeyPrefix (ctx : Context) : Option Str := ctx.message.pubkeyPrefix

def isDm (ctx : Context) : Bool := ctx.message.isDm

/-- `is_admin`, with the configured `admin_pubkeys` and Python's `str.lower`. -/
def isAdmin (lower : Str → Str) (adminPubkeys : List Str) (ctx : Context) : Bool :=
  match truthy ctx.pubkeyPrefix with
  | some p => decide (lower p ∈ adminPubkeys)
  | none => false

end Context

/-! ## String methods -/

/-- `str.isspace` of one character. -/
def isSpace (c : Char) : Bool :=
  let n := c.toNat
  (9 ≤ n && n ≤ 13) || (28 ≤ n && n ≤ 32) || n == 133 || n == 160 || n == 5760 ||
    (8192 ≤ n && n ≤ 8202) || n == 8232 || n == 8233 || n == 8239 || n == 8287 || n == 12288

/-- `str.lstrip()`. -/
def lstrip (text : Str) : Str := text.dropWhile isSpace

/-- `str.strip()`. -/
def strip (text : Str) : Str := (lstrip (lstrip text).reverse).reverse

/-- `str.lstrip(" :,")`. -/
def lstripSeparators (text : Str) : Str := text.dropWhile (· ∈ " :,".toList)

/-- `str.partition` at a separator of one character, without the separator; the
second part is `none` when the separator is missing. -/
def partition (sep : Char) (text : Str) : Str × Option Str :=
  match text.dropWhile (· ≠ sep) with
  | [] => (text, none)
  | _ :: after => (text.takeWhile (· ≠ sep), some after)

/-- `str.split(None, 1)` of a text: its first word and what follows it. -/
def splitWord (text : Str) : Option (Str × Option Str) :=
  match lstrip text with
  | [] => none
  | c :: rest =>
      let after := lstrip ((c :: rest).dropWhile fun c => !isSpace c)
      some ((c :: rest).takeWhile fun c => !isSpace c, if after = [] then none else some after)

/-! ## Addressing -/

/-- `BOT_COMMANDS`. -/
def botCommands : List Str :=
  ["help", "commands", "author", "uptime", "start", "end", "list", "watch", "watchers", "reset",
    "rules", "bots"].map String.toList

/-- `_ZORK_PREFIX`. -/
def zorkPrefix : Str := "!zork".toList

section

variable (lower : Str → Str)

/-- `strip_address`. -/
def stripAddress (botName text : Str) : Str × Bool :=
  let text := strip text
  let name := lower botName
  let mention := "@[".toList ++ name ++ "]".toList
  if mention <+: lower text then (lstripSeparators (text.drop mention.length), true)
  else
    let body := if "@".toList <+: text then text.drop 1 else text
    let rest := body.drop botName.length
    if name <+: lower body ∧ (rest.take 1).all (· ∈ " :,".toList) then
      (lstripSeparators rest, true)
    else (text, false)

/-- The names that stand for another command. -/
def unalias (command : Str) : Str :=
  if command = "commands".toList then "help".toList
  else if command = "source".toList then "author".toList
  else command

/-- `parse_command`. -/
def parseCommand (text : Str) : Option Str :=
  let text := strip text
  let lowered := lower text
  if lowered = zorkPrefix then some []
  else if zorkPrefix ++ " ".toList <+: lowered then some (strip (text.drop zorkPrefix.length))
  else if "!".toList <+: text then
    match splitWord (text.drop 1) with
    | none => none
    | some (word, rest) =>
        let command := unalias (lower word)
        if command ∈ botCommands then
          match rest with
          | some rest => some (strip (command ++ " ".toList ++ rest))
          | none => some command
        else none
  else none

end

end Zorkbot.Bot
