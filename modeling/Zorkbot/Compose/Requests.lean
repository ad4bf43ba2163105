/-
# The bot and the game service

The two programs next to each other, with the requests between them. A handler that
waits for the game service has made a request, which arrives when it does, or never.
What it makes the pool do is done by a goroutine of its own, which goes on when the
bot has stopped waiting; and while it waits the handler gets either what the goroutine
returned or an exception of the client.

The bot's part carries what the game service has live; here that is what the pool has
in its table.
-/

import Zorkbot.Bot.Tasks
import Zorkbot.Pty.Pool

namespace Zorkbot.Compose

open Transition
open Zorkbot.Bot (Answer CommandResult Item Point Resume Setup Str ZorkBot zorkbot)
open Zorkbot.Pty (Interpreter Op PlayerId Pool PoolConfig PoolErr Ret pool)

/-! ## Requests and responses -/

/-- What the handler of a message asks for where it waits for the game service. -/
def request (b : ZorkBot) (i : Item) : Point → Option Op
  | .starting => some (.start i.player)
  | .resetting => some (.reset i.player)
  | .looking => some (.command i.player "look".toList)
  | .playing _ command => some (.command i.player command)
  | .ending rest =>
      some (.endSession ((rest.record.map fun r => (b.state.record r).playerId).getD i.player))
  | _ => none

/-- The `output` of a response: it ends with a newline, unless it is empty. -/
def terminated (output : Str) : Str :=
  if output = [] ∨ output.getLast? = some '\n' then output else output ++ ['\n']

/-- A response without an error, of which only commands have more to tell. -/
def succeeded : Answer := .returned ⟨true, [], []⟩

/-- What the client makes of the response to a request that returned so; `message` is
the text of an error. -/
def answer (message : PoolErr → Str) : Ret → Answer
  | .started _ _ none => succeeded
  | .started _ .request (some .sessionFull) => .failed .full "session pool is full".toList
  | .started _ .request (some err) => .failed .other (message err)
  | .started _ (.reset _) (some err) => .failed .other ("reset failed: ".toList ++ message err)
  | .replied _ output => .returned ⟨true, terminated output, []⟩
  | .ended _ none => succeeded
  | .ended _ (some .sessionNotFound) => .failed .notFound (message .sessionNotFound)
  | .ended _ (some err) => .failed .other (message err)
  | .closed => .raised
  | .failed .notAllowed => .returned ⟨false, [], message .notAllowed⟩
  | .failed .sessionNotFound => .failed .notFound "no active session for player".toList
  | .failed .removal => .failed .other ("reset failed: ".toList ++ message .removal)
  | .failed (.manager .busy) => .failed .other "game is busy, try again".toList
  | .failed (.manager .timeout) => .failed .other "command timed out".toList
  | .failed (.manager .notAlive) => .failed .full "game session is not alive".toList
  | .failed err => .failed .other (message err)

/-! ## The state -/

/-- A request that the bot has made. -/
structure Request where
  /-- The worker whose handler made it. -/
  worker : Nat
  item : Item
  /-- Where the handler waits for the response. -/
  point : Point
  op : Op
  /-- Who serves it, once it has arrived. -/
  goroutine : Option Nat
  deriving DecidableEq

structure Stack (G : Type) where
  bot : ZorkBot
  pool : Pool G
  /-- Oldest first. -/
  requests : List Request
  /-- Bookkeeping: for the number of a session, how many messages had been dispatched
  when it entered the table. -/
  began : Table Nat Nat

variable {G : Type}

namespace Stack

def init : Stack G := ⟨.init, .init, [], .empty⟩

inductive Act
  | bot (act : ZorkBot.Act)
  /-- A request arrives, and a new goroutine serves it. -/
  | arrive (n c : Nat)
  | pool (act : Pool.Act)

/-! ## The steps of the bot -/

/-- What a worker's last request has returned. -/
def returned (s : Stack G) (t : Nat) : Option Ret :=
  match (s.requests.filter (·.worker = t)).getLast? with
  | some r =>
      match r.goroutine.bind s.pool.threads.get with
      | some (.returned ret) => some ret
      | _ => none
  | none => none

/-- The game service is not the bot's to move, and what it answers is what was
returned. -/
def allows (message : PoolErr → Str) (s : Stack G) : ZorkBot.Act → Bool
  | .run t (.answered a) => a = .raised || decide ((s.returned t).map (answer message) = some a)
  | .serviceStarts _ | .serviceEnds _ => false
  | _ => true

/-- The request of a handler that has just gone on to where it waits for the response. -/
def asked (b : ZorkBot) : ZorkBot.Act → Option Request
  | .run t _ =>
      (b.handling t).bind fun i => (request b i (b.point t)).map fun op =>
        ⟨t, i, b.point t, op, none⟩
  | _ => none

def botTo (act : ZorkBot.Act) (b : ZorkBot) (s : Stack G) : Stack G :=
  { s with
    bot := b
    requests := s.requests ++ (asked b act).toList }

/-! ## The steps of the pool -/

/-- The operations that no request of the bot stands for. -/
def ownCall : Pool.Act → Bool
  | .call _ op => op = .close
  | _ => true

/-- A player's session has left the table. -/
def lose (b : ZorkBot) (p : PlayerId) : ZorkBot := { b with live := b.live.erase p.text }

/-- A player's session has entered the table. -/
def gain (b : ZorkBot) (p : PlayerId) : ZorkBot :=
  if b.live.get p.text = none then
    { b with
      live := b.live.set p.text b.births
      births := b.births + 1 }
  else b

/-- The game service has live what the table holds. -/
def follow (before after : Pool G) (b : ZorkBot) : ZorkBot :=
  let left := before.entries.keys.filter fun p => after.entries.get p = none
  let entered := after.entries.keys.filter fun p => before.entries.get p = none
  entered.foldl gain (left.foldl lose b)

def poolTo (after : Pool G) (s : Stack G) : Stack G :=
  { s with
    bot := follow s.pool after s.bot
    pool := after
    began :=
      if s.pool.nextNum < after.nextNum then s.began.set s.pool.nextNum s.bot.gate.calls
      else s.began }

/-! ## The steps -/

def step (setup : Setup) (message : PoolErr → Str) (I : Interpreter G) (cfg : PoolConfig)
    (s : Stack G) : Act → Option (Stack G)
  | .bot act =>
      if s.allows message act then
        ((zorkbot setup).step s.bot act).map fun b => s.botTo act b
      else none
  | .arrive n c =>
      match s.requests[n]? with
      | some r =>
          if r.goroutine = none then
            ((Pty.pool I cfg).step s.pool (.call c r.op)).map fun q =>
              { s with
                pool := q
                requests := s.requests.modify n fun r => { r with goroutine := some c } }
          else none
      | none => none
  | .pool act =>
      if ownCall act then ((Pty.pool I cfg).step s.pool act).map s.poolTo else none

end Stack

/-- The runs of the bot and the game service together. -/
def stack (setup : Setup) (message : PoolErr → Str) (I : Interpreter G) (cfg : PoolConfig) :
    System (Stack G) Stack.Act :=
  ⟨.init, Stack.step setup message I cfg⟩

/-! ## The two programs -/

namespace Stack

variable {setup : Setup} {message : PoolErr → Str} {I : Interpreter G} {cfg : PoolConfig}
  {s t : Stack G}

/-- What one step does. -/
inductive Steps (setup : Setup) (message : PoolErr → Str) (I : Interpreter G) (cfg : PoolConfig)
    (s : Stack G) : Act → Stack G → Prop
  | bot {act : ZorkBot.Act} {b : ZorkBot} (allowed : s.allows message act = true)
      (stepped : (zorkbot setup).step s.bot act = some b) :
      Steps setup message I cfg s (.bot act) (s.botTo act b)
  | arrives {n c : Nat} {r : Request} {q : Pool G} (there : s.requests[n]? = some r)
      (waiting : r.goroutine = none)
      (stepped : (Pty.pool I cfg).step s.pool (.call c r.op) = some q) :
      Steps setup message I cfg s (.arrive n c)
        { s with
          pool := q
          requests := s.requests.modify n fun r => { r with goroutine := some c } }
  | pool {act : Pool.Act} {q : Pool G} (own : ownCall act = true)
      (stepped : (Pty.pool I cfg).step s.pool act = some q) :
      Steps setup message I cfg s (.pool act) (s.poolTo q)

theorem stack_steps {a : Act} (taken : (stack setup message I cfg).step s a = some t) :
    Steps setup message I cfg s a t := by
  cases a with
  | bot act =>
      simp only [stack, step] at taken
      split at taken
      · next allowed =>
          obtain ⟨b, stepped, rfl⟩ := Option.map_eq_some_iff.mp taken
          exact .bot allowed stepped
      · cases taken
  | arrive n c =>
      simp only [stack, step] at taken
      split at taken
      · next r there =>
          split at taken
          · next waiting =>
              obtain ⟨q, stepped, rfl⟩ := Option.map_eq_some_iff.mp taken
              exact .arrives there waiting stepped
          · cases taken
      · cases taken
  | pool act =>
      simp only [stack, step] at taken
      split at taken
      · next own =>
          obtain ⟨q, stepped, rfl⟩ := Option.map_eq_some_iff.mp taken
          exact .pool own stepped
      · cases taken

/-- What the bot's part learns of the pool is a run of it. -/
theorem path_foldl {f : ZorkBot → PlayerId → ZorkBot}
    (goes : ∀ b p, (zorkbot setup).Path (fun _ _ => True) b (f b p)) (players : List PlayerId)
    (b : ZorkBot) : (zorkbot setup).Path (fun _ _ => True) b (players.foldl f b) := by
  induction players generalizing b with
  | nil => exact .refl b
  | cons p rest ih => exact (goes b p).trans (ih _)

theorem follow_path (before after : Pool G) (b : ZorkBot) :
    (zorkbot setup).Path (fun _ _ => True) b (follow before after b) := by
  refine (path_foldl (f := lose) (fun b p => ?_) _ b).trans (path_foldl (fun b p => ?_) _ _)
  · exact .tail (.refl b) (a := .serviceEnds p.text) trivial rfl
  · unfold gain
    split
    · next dead =>
        refine .tail (.refl b) (a := .serviceStarts p.text) trivial ?_
        simp only [zorkbot, ZorkBot.step, dead, if_pos]
    · exact .refl b

/-- A step of both is a run of the bot, -/
theorem bot_path {a : Act} (step : Steps setup message I cfg s a t) :
    (zorkbot setup).Path (fun _ _ => True) s.bot t.bot := by
  cases step with
  | bot _ stepped => exact .tail (.refl _) trivial stepped
  | arrives => exact .refl _
  | pool => exact follow_path ..

/-- and one of the pool. -/
theorem pool_path {a : Act} (step : Steps setup message I cfg s a t) :
    (Pty.pool I cfg).Path (fun _ _ => True) s.pool t.pool := by
  cases step with
  | bot => exact .refl _
  | arrives _ _ stepped | pool _ stepped => exact .tail (.refl _) trivial stepped

theorem botReached {guard : Stack G → Act → Prop}
    (reached : (stack setup message I cfg).Reachable guard s) :
    (zorkbot setup).Reachable (fun _ _ => True) s.bot := by
  apply reached.invariant (motive := fun s => (zorkbot setup).Reachable (fun _ _ => True) s.bot)
  · exact System.reachable_init
  · intro s a t _ reached _ taken
    exact reached.trans (bot_path (stack_steps taken))

theorem poolReached {guard : Stack G → Act → Prop}
    (reached : (stack setup message I cfg).Reachable guard s) :
    (Pty.pool I cfg).Reachable (fun _ _ => True) s.pool := by
  apply reached.invariant (motive := fun s => (Pty.pool I cfg).Reachable (fun _ _ => True) s.pool)
  · exact System.reachable_init
  · intro s a t _ reached _ taken
    exact reached.trans (pool_path (stack_steps taken))

end Stack

end Zorkbot.Compose
