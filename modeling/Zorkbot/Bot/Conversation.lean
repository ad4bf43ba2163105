/-
# A player and the bot

The gate next to what happens on the air. The handler of a command sends the
packets of its response one after the other, and each send returns when the
acknowledgement has arrived or the attempts are used up. A packet reaches the
player when it has been transmitted, and its acknowledgement reaches the bot later
or never; in between, the player has read the answer and the bot does not know.
-/

import Zorkbot.Bot.Acceptance

namespace Zorkbot.Bot

open Transition

/-- A send of one packet, as the bot sees it. A send that waits for no
acknowledgement is one with a single transmission. -/
structure Attempts where
  /-- How many transmissions are made at most. -/
  limit : Nat
  tries : Nat
  /-- The acknowledgement has arrived. -/
  acked : Bool
  deriving DecidableEq

/-- Where the handler of a command is. -/
inductive Phase
  /-- It runs, or waits for something other than the radio. -/
  | composing
  | sending (attempts : Attempts)
  | past
  deriving DecidableEq

/-- The response to one command. -/
structure Response where
  /-- How many packets it has. -/
  total : Nat
  /-- How many sends have returned. -/
  current : Nat
  phase : Phase
  /-- The packets that were on the air, by their place in the response. -/
  transmitted : List Nat
  /-- The packets that the player has received. -/
  delivered : List Nat
  deriving DecidableEq

namespace Response

def begun (total : Nat) : Response := ⟨total, 0, .composing, [], []⟩

/-- A send returns; after a packet that was not acknowledged the response may be
abandoned. -/
def sent (abandon : Bool) (r : Response) : Response :=
  { r with
    total := if abandon then r.current + 1 else r.total
    current := r.current + 1
    phase := .composing }

/-- What happens on the air. -/
inductive Event
  /-- The handler hands its next packet over. -/
  | submit (limit : Nat)
  /-- The packet is dropped at the send queue. -/
  | overflow (abandon : Bool)
  | transmit
  /-- A packet reaches the player. -/
  | deliver (k : Nat)
  /-- The acknowledgement of the packet that is being sent reaches the bot. -/
  | ack
  /-- The send returns to the handler. -/
  | done (abandon : Bool)
  deriving DecidableEq

def step (r : Response) : Event → Option Response
  | .submit limit =>
      if r.phase = .composing ∧ r.current < r.total then
        some { r with phase := .sending ⟨limit, 0, false⟩ }
      else none
  | .overflow abandon =>
      match r.phase with
      | .sending a => if a.tries = 0 then some (r.sent abandon) else none
      | _ => none
  | .transmit =>
      match r.phase with
      | .sending a =>
          if !a.acked ∧ a.tries < a.limit then
            some { r with
              phase := .sending { a with tries := a.tries + 1 }
              transmitted := r.current :: r.transmitted }
          else none
      | _ => none
  | .deliver k =>
      if k ∈ r.transmitted then some { r with delivered := k :: r.delivered } else none
  | .ack =>
      match r.phase with
      | .sending a =>
          if r.current ∈ r.delivered then some { r with phase := .sending { a with acked := true } }
          else none
      | _ => none
  | .done abandon =>
      match r.phase with
      | .sending a =>
          if a.acked then some (r.sent false)
          else if a.tries = a.limit then some (r.sent abandon)
          else none
      | _ => none

/-- Whether the handler may end so. -/
def mayEnd (r : Response) : Gate.Outcome → Bool
  | .returned => r.phase = .composing ∧ r.current = r.total
  | .raised => r.phase ≠ .past

/-- The last packet has reached the player. -/
def LastDelivered (r : Response) : Prop := 0 < r.total ∧ r.total - 1 ∈ r.delivered

instance (r : Response) : Decidable r.LastDelivered := by
  unfold LastDelivered
  infer_instance

end Response

structure Conversation where
  gate : Gate
  /-- The responses, by the number of their command. -/
  responses : Table Nat Response

namespace Conversation

def init : Conversation := ⟨.init, .empty⟩

inductive Act
  | dispatch (ctx : Context) (command restArgs : Str)
  /-- A worker runs for the first time; its command is answered in so many
  packets. -/
  | begin (t packets : Nat)
  /-- A handler ends, and what the worker takes next is answered in so many
  packets. -/
  | finish (t : Nat) (outcome : Gate.Outcome) (packets : Nat)
  | air (call : Nat) (event : Response.Event)
  deriving DecidableEq

/-- The worker has entered a handler, or has returned. -/
def enter (t packets : Nat) (s : Conversation) (g : Gate) : Conversation :=
  match g.workers.task t with
  | some (_, .handling i) => ⟨g, s.responses.set i.call (.begun packets)⟩
  | _ => ⟨g, s.responses⟩

def step (s : Conversation) : Act → Option Conversation
  | .dispatch ctx command restArgs =>
      (s.gate.step (.dispatch ctx command restArgs)).map fun g => { s with gate := g }
  | .begin t packets => (s.gate.step (.begin t)).map (s.enter t packets)
  | .finish t outcome packets =>
      match s.gate.workers.task t with
      | some (_, .handling i) =>
          match s.responses.get i.call with
          | some r =>
              if r.mayEnd outcome then
                let closed := { s with responses := s.responses.set i.call { r with phase := .past } }
                (s.gate.step (.finish t outcome)).map (closed.enter t packets)
              else none
          | none => none
      | _ => none
  | .air call event =>
      match s.responses.get call with
      | some r => (r.step event).map fun r' => { s with responses := s.responses.set call r' }
      | none => none

end Conversation

/-- The runs of the bot with what happens on the air. -/
def conversation : System Conversation Conversation.Act := ⟨.init, Conversation.step⟩

end Zorkbot.Bot
