/-
# The command handlers

A handler runs in the task of its player's worker and gives way to other tasks
where it waits: for a reply to be sent, for an advert, for the game service. It is
given here as the blocks between these points. A block computes on the session
registry in one go, and what the handler still knows afterwards is in the point
where it waits.

A reply that is the last thing a handler does needs no block of its own, and
neither do the several packets of one.
-/

import Mathlib.Data.Char
import Mathlib.Data.List.Lex
import Mathlib.Data.List.Sort
import Zorkbot.Bot.Addressing
import Zorkbot.Bot.Gate
import Zorkbot.Bot.Registry

namespace Zorkbot.Bot

/-! ## What the handlers use -/

/-- The configuration values that the handlers read, and the functions of other
modules and of Python that they call. -/
structure Setup where
  adminPubkeys : List Str
  /-- `max_watchers_per_session`. -/
  maxWatchers : Int
  /-- `dm_ack_abandon_response`. -/
  abandon : Bool
  lower : Str → Str
  /-- `int` of a text, or `none` where it raises `ValueError`. -/
  int : Str → Option Int
  repr : Str → Str
  /-- `validate` of a player's text. -/
  validate : Str → Bool
  /-- `packetize` of an output with a `first_line`, or `none` where it raises. -/
  packetize : Str → Option Str → Option (List Str)
  /-- The packets of `!help`: for a direct message or not, in a session or not. -/
  helpPackets : Bool → Bool → List Str
  /-- `AUTHOR_TEXT`. -/
  authorText : Str

/-- What a handler reads outside the bot while it runs. -/
structure Surroundings where
  /-- The name of the contact with a key prefix. -/
  contact : Str → Option Str
  /-- How many whole seconds ago a session was started. -/
  age : Nat → Int
  uptime : Int

structure CommandResult where
  ok : Bool
  output : Str
  error : Str
  deriving DecidableEq

/-- The exceptions of the game client. -/
inductive ServiceError
  | full
  | notFound
  | other
  deriving DecidableEq

/-- How a request to the game service ends. Only commands look at the result. -/
inductive Answer
  | returned (result : CommandResult)
  | failed (kind : ServiceError) (message : Str)
  /-- Any other exception: nobody was reached, the time is over, no such payload. -/
  | raised
  deriving DecidableEq

/-- How a send ends. -/
inductive Delivery
  | delivered
  | undelivered
  | raised
  deriving DecidableEq

/-- The coroutines that are handed to `_fanout`. -/
inductive Fan
  /-- `_notify_watchers`. -/
  | output (record : Nat) (packets : List Str)
  /-- `notify_watchers_session_ended`. -/
  | notice (record : Nat)
  deriving DecidableEq

/-- What `!end` has still to do once it has removed a session. -/
structure Ending where
  record : Option Nat
  session : Int
  text : Str
  deriving DecidableEq

/-- Where a handler is. -/
inductive Point
  /-- It was called. -/
  | entered
  | advertising
  /-- At the game service: to start a session, -/
  | starting
  /-- to reset one, -/
  | resetting
  /-- for the look after that, -/
  | looking
  /-- with a player's command, -/
  | playing (record : Nat) (command : Str)
  /-- or to end a session. -/
  | ending (rest : Ending)
  /-- Sending that a session has ended. -/
  | confirming (rest : Ending)
  /-- Sending on the channel that a session was started. -/
  | acknowledging (text intro : Str)
  /-- Sending the player that a session was started. -/
  | introducing (text : Str)
  /-- Sending the answer to a player's command. -/
  | answering (record : Nat) (command output : Str) (packets : List Str)
  /-- Sending the last packets. -/
  | replying (packets : List Str)
  | past (outcome : Gate.Outcome)
  deriving DecidableEq

/-- What a block leaves behind. -/
structure Turn where
  state : SessionState
  point : Point
  /-- The calls of `_fanout`. -/
  fanout : List (Int × Fan)

/-- The handler sends packets and returns. -/
def send (packets : List Str) : Point :=
  match packets with
  | [] => .past .returned
  | _ => .replying packets

/-- The handler replies with a text and returns. -/
def say (text : Str) (s : SessionState) : Turn := ⟨s, .replying [text], []⟩

def fail (s : SessionState) : Turn := ⟨s, .past .raised, []⟩

/-- A session number for a text, if there is one. -/
def shown (n : Option Int) : Str := (n.map str).getD "?".toList

/-- The `player_id` of a handler. -/
def Context.player (ctx : Context) : Option Str := truthy ctx.pubkeyPrefix

/-- The name that a session gets. -/
def playerName (i : Item) : Str := (truthy i.ctx.senderName).getD (i.player.take 8)

def unidentified : Str := "Cannot identify you - please send an Advert.".toList

section

variable (setup : Setup) (around : Surroundings) (i : Item) (s : SessionState)

/-- The number of the player's session. -/
def sessionNumber (p : Str) (s : SessionState) : Option Int :=
  (s.getSession p).map fun r => (s.record r).num

/-! ## `!end` -/

/-- `_handle_admin_end`. -/
def handleAdminEnd (arg : Str) : Turn :=
  if !i.ctx.isAdmin setup.lower setup.adminPubkeys then
    say "You are not authorized for that command.".toList s
  else
    match setup.int arg with
    | none => say ("Invalid session number: ".toList ++ setup.repr arg) s
    | some n =>
        match s.getSessionByNum n with
        | none => say ("Zork I Session #".toList ++ str n ++ " is not active.".toList) s
        | some r =>
            ⟨(s.removeSession (s.record r).playerId .adminEnd).2,
              .ending ⟨some r, n, "Zork I Session #".toList ++ str n ++ " (".toList ++
                (s.record r).playerName ++ ") has been ended.".toList⟩, []⟩

/-- `handle_end`. -/
def handleEnd (args : Str) : Turn :=
  match i.ctx.player with
  | none => say unidentified s
  | some p =>
      if strip args ≠ [] then handleAdminEnd setup i s (strip args)
      else
        match s.activeState p with
        | .watching =>
            let (n, s) := s.removeWatcher p
            say ("Stopped watching session #".toList ++ shown n ++ ".".toList) s
        | .playing =>
            let (r, s) := s.removeSession p .playerEnd
            let n := r.map fun r => (s.record r).num
            ⟨s, .ending ⟨r, n.getD 0, "Zork I Session #".toList ++ shown n ++
              " saved and ended.".toList⟩, []⟩
        | .none => say "You don't have an active session or watch to end.".toList s

/-- The game service has answered: only its own errors are caught. -/
def endAnswered (rest : Ending) (a : Answer) : Turn :=
  match a with
  | .raised => fail s
  | _ => ⟨s, .confirming rest, []⟩

/-- The end is confirmed and the watchers are to be told. -/
def endConfirmed (rest : Ending) (d : Delivery) : Turn :=
  match d with
  | .raised => fail s
  | _ => ⟨s, .past .returned, (rest.record.map fun r => (rest.session, .notice r)).toList⟩

/-! ## `!list` -/

/-- The `age` of a session in a text. -/
def shownAge (elapsed : Int) : Str :=
  if elapsed / 60 ≠ 0 then str (elapsed / 60) ++ "m".toList else str (elapsed % 60) ++ "s".toList

/-- `handle_list`. -/
def handleList : Turn :=
  if s.allSessions = [] then say "No active sessions right now.".toList s
  else
    let sorted := s.allSessions.mergeSort fun r r' => (s.record r).num ≤ (s.record r').num
    let parts := sorted.map fun r =>
      "#".toList ++ str (s.record r).num ++ " ".toList ++ (s.record r).playerName ++
        " (".toList ++ shownAge (around.age r) ++ ")".toList
    say ("Active sessions: ".toList ++ "  ".toList.intercalate parts) s

/-! ## `!reset` -/

/-- `handle_reset`. -/
def handleReset : Turn :=
  if !i.ctx.isDm then say "!reset is only available via DM.".toList s
  else
    match i.ctx.player with
    | none => say unidentified s
    | some p => ⟨(s.removeSession p .reset).2, .resetting, []⟩

/-- The game service has answered. -/
def resetAnswered (a : Answer) : Turn :=
  match a with
  | .returned _ =>
      let (r, s) := s.addSession i.player (playerName i)
      ⟨s, .introducing ("Game reset. Zork I Session #".toList ++ str (s.record r).num ++
        " started fresh.".toList), []⟩
  | .failed .full _ =>
      say "All game slots are active - could not restart. Try again shortly.".toList s
  | .failed _ message => say ("Reset failed: ".toList ++ message) s
  | .raised => fail s

/-! ## `!rules` -/

/-- `RULES_TEXT`. -/
def rulesText : Str :=
  ("You are in Zork I - a text adventure\nUse commands such as:\nlook\nlook at leaflet\n" ++
    "north\nne\ninventory\ntake axe").toList

/-- `handle_rules`. -/
def handleRules : Turn :=
  if !i.ctx.isDm then say "!rules is only available via DM.".toList s
  else
    match i.ctx.player with
    | none => say unidentified s
    | some p =>
        if s.activeState p ≠ .playing then
          say "No active session - send !start to begin.".toList s
        else say rulesText s

/-! ## `!start` -/

/-- `handle_start`. -/
def handleStart : Turn :=
  match i.ctx.player with
  | none => say unidentified s
  | some p =>
      match s.activeState p with
      | .playing =>
          say ("You already have an active session (#".toList ++ shown (sessionNumber p s) ++
            "). Send !end to stop.".toList) s
      | .watching =>
          say ("You are currently watching session #".toList ++ shown (s.watchingSession p) ++
            ". Send !end first.".toList) s
      | .none =>
          if !i.ctx.isDm && (around.contact p).isNone then
            say "DM me !start - I don't have you in my contacts yet.".toList s
          else ⟨s, .advertising, []⟩

/-- The advert was sent, or not: the advertiser catches what it raises. -/
def advertSent : Turn := ⟨s, .starting, []⟩

/-- The game service has answered. -/
def startAnswered (a : Answer) : Turn :=
  match a with
  | .returned _ =>
      let (r, s) := s.addSession i.player (playerName i)
      let n := str (s.record r).num
      let intro := "Zork I Session #".toList ++ n ++
        " started. Type your commands here in DM!".toList
      if i.ctx.isDm then ⟨s, .introducing intro, []⟩
      else
        ⟨s, .acknowledging ("Zork I Session #".toList ++ n ++ " started for ".toList ++
          playerName i ++ " - check your DMs!".toList) intro, []⟩
  | .failed .full _ => say "All game slots are active right now - try again shortly.".toList s
  | .failed _ message => say ("Could not start game: ".toList ++ message) s
  | .raised => fail s

/-- The channel has its message, and now the player gets one. -/
def acknowledged (intro : Str) (d : Delivery) : Turn :=
  match d with
  | .raised => fail s
  | _ => ⟨s, .introducing intro, []⟩

/-- The player was told: the initial look follows, unless the link has just failed. -/
def introduced (d : Delivery) : Turn :=
  match d with
  | .raised => fail s
  | .undelivered => if setup.abandon then ⟨s, .past .returned, []⟩ else ⟨s, .looking, []⟩
  | .delivered => ⟨s, .looking, []⟩

/-- `send_initial_look`, once the game service has answered. -/
def lookAnswered (a : Answer) : Turn :=
  match a with
  | .returned result =>
      if !result.ok then ⟨s, .past .returned, []⟩
      else
        match setup.packetize result.output none with
        | none => fail s
        | some packets => ⟨s, send packets, []⟩
  | .failed _ _ => ⟨s, .past .returned, []⟩
  | .raised => fail s

/-! ## `!uptime` -/

/-- `format_uptime`. -/
def formatUptime (total : Int) : Str :=
  let days := total / 86400
  let hours := total % 86400 / 3600
  let minutes := total % 3600 / 60
  let seconds := total % 60
  if days ≠ 0 then
    str days ++ "d ".toList ++ str hours ++ "h ".toList ++ str minutes ++ "m".toList
  else if hours ≠ 0 then str hours ++ "h ".toList ++ str minutes ++ "m".toList
  else if minutes ≠ 0 then str minutes ++ "m ".toList ++ str seconds ++ "s".toList
  else str seconds ++ "s".toList

/-! ## `!watch` -/

/-- `handle_watch`. -/
def handleWatch (args : Str) : Turn :=
  match i.ctx.player with
  | none => say unidentified s
  | some p =>
      if strip args = [] then
        say "Usage: !watch <session number>  (see !list for active sessions)".toList s
      else
        match setup.int (strip args) with
        | none => say ("Invalid session number: ".toList ++ setup.repr (strip args)) s
        | some n =>
            match s.activeState p with
            | .playing =>
                say ("You have an active session (#".toList ++ shown (sessionNumber p s) ++
                  "). Send !end first to start watching.".toList) s
            | .watching =>
                say ("You are already watching session #".toList ++
                  shown (s.watchingSession p) ++ ". Send !end first.".toList) s
            | .none =>
                if sessionNumber p s = some n then
                  say "You cannot watch your own session.".toList s
                else
                  match s.addWatcher setup.maxWatchers p n with
                  | (some error, s) => say error s
                  | (none, s) =>
                      let name := ((s.getSessionByNum n).map fun r =>
                        (s.record r).playerName).getD (str n)
                      say ("Watching session #".toList ++ str n ++ " (".toList ++ name ++
                        "). Game output will arrive in your DMs. Send !end to stop.".toList) s

/-! ## `!watchers` -/

/-- `handle_watchers`. -/
def handleWatchers : Turn :=
  if s.allWatchers = [] then say "No active watchers right now.".toList s
  else
    let sorted := s.allWatchers.mergeSort fun a b => a.2 < b.2 ∨ a.2 = b.2 ∧ a.1 ≤ b.1
    let parts := sorted.map fun pair =>
      (around.contact pair.1).getD (pair.1.take 8) ++ " → #".toList ++ str pair.2
    say ("Watchers: ".toList ++ "  ".toList.intercalate parts) s

/-! ## Game commands -/

/-- `handle_game_command`. -/
def handleGameCommand (command : Str) : Turn :=
  match i.ctx.player with
  | none => say unidentified s
  | some p =>
      match s.getSession p with
      | none => say "No active session - send !start to begin.".toList s
      | some r =>
          if !setup.validate command then say "That command isn't allowed.".toList s
          else ⟨s, .playing r command, []⟩

/-- The `watcher_packets`. -/
def watcherPackets (r : Nat) (command output : Str) : Option (List Str) :=
  setup.packetize output
    (some ("[".toList ++ (s.record r).playerName ++ "] > ".toList ++ command))

/-- The player has the answer, and the watchers that the session has now are to
get it too. -/
def handOver (r : Nat) (command output : Str) : Turn :=
  if (s.record r).watchers = ∅ then ⟨s, .past .returned, []⟩
  else
    match watcherPackets setup s r command output with
    | none => fail s
    | some packets => ⟨s, .past .returned, [((s.record r).num, .output r packets)]⟩

/-- The text for an error of the game service. -/
def errorText (message : Str) : Str :=
  if "busy".toList <:+: setup.lower message then
    "The game is busy - try again in a moment.".toList
  else "Game error: ".toList ++ message

/-- The game service has answered. -/
def gameAnswered (r : Nat) (command : Str) (a : Answer) : Turn :=
  match a with
  | .failed .notFound _ =>
      say "Your session has ended due to inactivity. Send !start to resume.".toList
        (s.removeSession i.player .serverSide).2
  | .failed _ message => say (errorText setup message) s
  | .raised => fail s
  | .returned result =>
      if !result.ok then
        say (if result.error = [] then "That command isn't allowed.".toList else result.error) s
      else
        let told := s.emit (.transcript (s.record r).num (s.record r).playerName command
          result.output)
        match setup.packetize result.output none with
        | none => fail told
        | some [] => ⟨told, .past .returned, []⟩
        | some packets => ⟨told, .answering r command result.output packets, []⟩

/-- One packet of the answer was sent. -/
def answerSent (r : Nat) (command output : Str) (rest : List Str) (d : Delivery) : Turn :=
  match d with
  | .raised => fail s
  | _ =>
      if rest = [] ∨ d = .undelivered ∧ setup.abandon then handOver setup s r command output
      else ⟨s, .answering r command output rest, []⟩

/-! ## All handlers -/

/-- One of the last packets was sent. -/
def replySent (rest : List Str) (d : Delivery) : Turn :=
  match d with
  | .raised => fail s
  | _ => ⟨s, if d = .undelivered ∧ setup.abandon then .past .returned else send rest, []⟩

/-- The command of an item is this one. -/
def Item.is (i : Item) (name : String) : Bool := decide (i.command = name.toList)

/-- `_handle`, up to where it first waits. -/
def handle : Turn :=
  if i.is "help" || i.is "commands" then
    let inSession := i.ctx.isDm && decide (s.activeState (i.ctx.pubkeyPrefix.getD []) = .playing)
    ⟨s, send (setup.helpPackets i.ctx.isDm inSession), []⟩
  else if i.is "author" && !i.ctx.isDm then say setup.authorText s
  else if i.is "uptime" && !i.ctx.isDm then
    say ("Uptime: ".toList ++ formatUptime around.uptime) s
  else if i.is "rules" then handleRules i s
  else if i.is "start" then handleStart around i s
  else if i.is "end" then handleEnd setup i s i.restArgs
  else if i.is "list" then handleList around s
  else if i.is "watch" then handleWatch setup i s i.restArgs
  else if i.is "watchers" then handleWatchers around s
  else if i.is "reset" then handleReset i s
  else if i.is "_game" then handleGameCommand setup i s i.restArgs
  else if i.ctx.isDm then
    say ("Unknown command: ".toList ++ setup.repr i.command ++
      ". Send !help for a list.".toList) s
  else ⟨s, .past .returned, []⟩

/-- What a handler was waiting for has come. -/
inductive Resume
  /-- Its worker calls it. -/
  | called (around : Surroundings)
  | advertised
  | answered (answer : Answer)
  | sent (delivery : Delivery)

/-- The block after an answer of the game service, where the handler waits for one. -/
def answered (point : Point) (a : Answer) : Option Turn :=
  match point with
  | .starting => some (startAnswered i s a)
  | .resetting => some (resetAnswered i s a)
  | .looking => some (lookAnswered setup s a)
  | .playing r command => some (gameAnswered setup i s r command a)
  | .ending rest => some (endAnswered s rest a)
  | _ => none

/-- The block after a send, where the handler waits for one. -/
def sent (point : Point) (d : Delivery) : Option Turn :=
  match point with
  | .acknowledging _ intro => some (acknowledged s intro d)
  | .introducing _ => some (introduced setup s d)
  | .confirming rest => some (endConfirmed s rest d)
  | .answering r command output (_ :: rest) => some (answerSent setup s r command output rest d)
  | .replying (_ :: rest) => some (replySent setup s rest d)
  | _ => none

/-- A block of a handler, from one point to the next. -/
def block (setup : Setup) (i : Item) (s : SessionState) (point : Point) : Resume → Option Turn
  | .called around => if point = .entered then some (handle setup around i s) else none
  | .advertised => if point = .advertising then some (advertSent s) else none
  | .answered a => answered setup i s point a
  | .sent d => sent setup s point d

end

end Zorkbot.Bot
