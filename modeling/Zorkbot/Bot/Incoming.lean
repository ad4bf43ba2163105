/-
# Messages from the radio

How a packet becomes a message and a message a command. A direct message carries the
key prefix of whoever sent it. A channel message carries a text, and the name in front
of its first colon is what its sender has typed; the contact of that name is taken to be
the sender.
-/

import Zorkbot.Bot.Tasks

namespace Zorkbot.Bot

open Transition

/-! ## Packets -/

/-- What the bot reads of the payload of a packet; a missing text is empty, and a missing
channel is 0. -/
structure Payload where
  text : Str
  pubkeyPrefix : Option Str
  channelIdx : Int
  deriving DecidableEq

inductive Incoming
  /-- `CHANNEL_MSG_RECV`. -/
  | channel (payload : Payload)
  /-- `CONTACT_MSG_RECV`. -/
  | dm (payload : Payload)
  deriving DecidableEq

structure Contact where
  advName : Option Str
  /-- Empty if it is missing. -/
  publicKey : Str
  deriving DecidableEq

/-- The contact table. -/
structure Contacts where
  /-- `get_contact_by_name`. -/
  byName : Str → Option Contact
  /-- `get_contact_by_key_prefix`. -/
  byKeyPrefix : Str → Option Contact

section

variable (contacts : Contacts)

/-- The display name of a contact. -/
def Contact.shown (p : Str) (contact : Contact) : Str := contact.advName.getD (p.take 8)

/-- `_build_channel_message`. -/
def buildChannelMessage (payload : Payload) : IncomingMessage :=
  let (head, body) := partition ':' payload.text
  let named : Option Str := body.map fun _ => strip head
  let text := (body.map strip).getD payload.text
  let found : Option Str :=
    match truthy payload.pubkeyPrefix, truthy named with
    | none, some name =>
        match contacts.byName name with
        | some contact =>
            if contact.publicKey = [] then payload.pubkeyPrefix
            else some (contact.publicKey.take 12)
        | none => payload.pubkeyPrefix
    | _, _ => payload.pubkeyPrefix
  let senderName : Option Str :=
    match truthy named, truthy found with
    | none, some p => ((contacts.byKeyPrefix p).map (Contact.shown p)).or named
    | _, _ => named
  ⟨text, senderName, found, false, payload.channelIdx⟩

/-- The message that `_on_dm_msg` builds. -/
def buildDmMessage (payload : Payload) : IncomingMessage :=
  let senderName := (truthy payload.pubkeyPrefix).map fun p =>
    ((contacts.byKeyPrefix p).map (Contact.shown p)).getD (p.take 8)
  ⟨strip payload.text, senderName, payload.pubkeyPrefix, true, 0⟩

end

/-! ## Commands -/

/-- `_LOBBY_COMMANDS`. -/
def lobbyCommands : List Str :=
  ["help", "commands", "start", "end", "list", "watch", "watchers", "author", "uptime"].map
    String.toList

/-- What becomes of a message. -/
inductive Dispatch
  | ignored
  /-- The sender is told something; the sink records that the command is
  `not_in_lobby`. -/
  | refused (reply : Str)
  | enqueued (ctx : Context) (command restArgs : Str)
  deriving DecidableEq

section

variable (lower : Str → Str) (name : Str) (channel : Int)

/-- A command and its arguments. -/
def splitArgs (args : Str) : Str × Str :=
  let (command, rest) := partition ' ' args
  (lower command, rest.getD [])

/-- `dispatch_channel`, on the bot's channel. -/
def dispatchChannel (message : IncomingMessage) : Dispatch :=
  if message.channelIdx ≠ channel then .ignored
  else
    match parseCommand lower (stripAddress lower name (strip message.text)).1 with
    | none => .ignored
    | some args =>
        let (command, restArgs) := splitArgs lower args
        if command ∉ lobbyCommands then .refused "Send !start and then DM me to play.".toList
        else .enqueued ⟨message, args⟩ command restArgs

/-- `dispatch_dm`. -/
def dispatchDm (message : IncomingMessage) : Dispatch :=
  let text := strip message.text
  if text = [] then .ignored
  else
    let rest := (stripAddress lower name text).1
    match parseCommand lower rest with
    | some args =>
        let (command, restArgs) := splitArgs lower args
        .enqueued ⟨message, rest⟩ command restArgs
    | none => .enqueued ⟨message, rest⟩ "_game".toList (strip rest)

/-- What becomes of a packet. -/
def dispatch (contacts : Contacts) : Incoming → Dispatch
  | .channel payload => dispatchChannel lower name channel (buildChannelMessage contacts payload)
  | .dm payload => dispatchDm lower name (buildDmMessage contacts payload)

end

/-! ## The bot at its radio -/

/-- The bot with the packets it hears. -/
structure Runner where
  bot : ZorkBot
  /-- Bookkeeping: the packets that became commands, oldest first. -/
  heard : List Incoming

namespace Runner

def init : Runner := ⟨.init, []⟩

inductive Act
  /-- A packet is received while the contact table is so. -/
  | hear (packet : Incoming) (contacts : Contacts)
  | bot (act : ZorkBot.Act)

def step (setup : Setup) (name : Str) (channel : Int) (s : Runner) : Act → Option Runner
  | .hear packet contacts =>
      match dispatch setup.lower name channel contacts packet with
      | .enqueued ctx command restArgs =>
          ((zorkbot setup).step s.bot (.dispatch ctx command restArgs)).map fun b =>
            ⟨b, s.heard ++ [packet]⟩
      | _ => some s
  | .bot (.dispatch ..) => none
  | .bot act => ((zorkbot setup).step s.bot act).map fun b => { s with bot := b }

end Runner

/-- The runs of the bot at its radio. -/
def runner (setup : Setup) (name : Str) (channel : Int) : System Runner Runner.Act :=
  ⟨.init, Runner.step setup name channel⟩

end Zorkbot.Bot
