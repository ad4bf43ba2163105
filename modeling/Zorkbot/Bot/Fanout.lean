/-
# Watcher fan-out

Each session has a queue of coroutines and one worker that awaits them in turn.
A queue is an object: the map from sessions to queues can lose it while a worker
still holds it, which is why it is looked up once, when the worker starts. When a
worker task is done its callback is scheduled and runs later, and in between the
session may have got new work.
-/

import Zorkbot.Data.Roster
import Zorkbot.Transition.Server

namespace Zorkbot.Bot

open Transition

universe u

/-- A coroutine that was handed to `_fanout`. -/
structure Job (γ : Type u) where
  session : Int
  coro : γ
  /-- Bookkeeping: how many calls of `_fanout` came before. -/
  call : Nat
  deriving DecidableEq

/-- Where a worker task is in `_run_fanout`. -/
inductive Consumer (γ : Type u)
  /-- It has not run yet. -/
  | created
  /-- It awaits a coroutine that it got from a queue. -/
  | running (queue : Nat) (job : Job γ)
  /-- It has returned and its callback is scheduled. -/
  | done
  /-- Its callback has run. -/
  | settled
  deriving DecidableEq

namespace Consumer

variable {γ : Type u}

/-- `Task.done` is false. -/
def live : Consumer γ → Bool
  | .created | .running .. => true
  | .done | .settled => false

/-- The coroutine it awaits. -/
def job : Consumer γ → Option (Job γ)
  | .running _ j => some j
  | _ => none

end Consumer

structure Fanout (γ : Type u) where
  /-- What is in each queue ever created. -/
  objects : List (List (Job γ))
  /-- `_fanout_queues`. -/
  queues : Table Int Nat
  /-- `_fanout_workers`, with every worker task ever created. -/
  workers : Roster Int (Consumer γ)
  /-- Bookkeeping: every coroutine queued, oldest first. -/
  accepted : List (Job γ)
  /-- Bookkeeping: every coroutine that was awaited to its end, oldest first. -/
  finished : List (Job γ)

namespace Fanout

variable {γ : Type u}

def init : Fanout γ := ⟨[], .empty, .empty, [], []⟩

/-- What is in a queue. -/
def contents (s : Fanout γ) (q : Nat) : List (Job γ) := (s.objects[q]?).getD []

def worker (s : Fanout γ) (k : Int) : Option (Consumer γ) := s.workers.current k

/-- There is a worker and it is not done. -/
def busy (s : Fanout γ) (k : Int) : Bool := (s.worker k).any Consumer.live

/-- A new queue for a session. -/
def open_ (k : Int) (s : Fanout γ) : Fanout γ :=
  { s with
    objects := s.objects ++ [[]]
    queues := s.queues.set k s.objects.length }

/-- `put_nowait` of a coroutine. -/
def put (q : Nat) (j : Job γ) (s : Fanout γ) : Fanout γ :=
  { s with
    objects := s.objects.modify q (· ++ [j])
    accepted := s.accepted ++ [j] }

/-- `create_task` of a worker. -/
def employ (k : Int) (s : Fanout γ) : Fanout γ := { s with workers := s.workers.hire k .created }

/-- `_fanout`. -/
def fanout (k : Int) (coro : γ) (s : Fanout γ) : Fanout γ :=
  let (q, s) :=
    match s.queues.get k with
    | some q => (q, s)
    | none => (s.objects.length, s.open_ k)
  let s := s.put q ⟨k, coro, s.accepted.length⟩
  if s.busy k then s else s.employ k

def setTask (n : Nat) (w : Consumer γ) (s : Fanout γ) : Fanout γ :=
  { s with workers := s.workers.move n w }

/-- A worker gets a coroutine from its queue and awaits it. -/
def take (n q : Nat) (j : Job γ) (rest : List (Job γ)) (s : Fanout γ) : Fanout γ :=
  { s with objects := s.objects.set q rest }.setTask n (.running q j)

/-- A worker comes to the head of its loop: it returns if its queue is empty. -/
def turn (n q : Nat) (s : Fanout γ) : Fanout γ :=
  match s.contents q with
  | [] => s.setTask n .done
  | j :: rest => s.take n q j rest

/-- A coroutine has ended. -/
def ended (j : Job γ) (s : Fanout γ) : Fanout γ := { s with finished := s.finished ++ [j] }

/-- Worker and queue of a session leave their maps. -/
def forget (k : Int) (s : Fanout γ) : Fanout γ :=
  { s with
    workers := s.workers.dismiss k
    queues := s.queues.erase k }

/-- `_on_fanout_done`. -/
def onFanoutDone (k : Int) (n : Nat) (s : Fanout γ) : Fanout γ :=
  if s.workers.registered.get k ≠ some n then s
  else if (s.queues.get k).any (fun q => s.contents q ≠ []) then s
  else s.forget k

/-- How a coroutine ends. The worker logs what it raised and goes on. Nothing cancels one but
`stop`, which cancels its worker with it. -/
inductive Outcome
  | returned
  | raised
  deriving DecidableEq

inductive Act (γ : Type u)
  /-- Some task calls `_fanout`. -/
  | fanout (k : Int) (coro : γ)
  /-- A worker that was created runs for the first time. -/
  | begin (n : Nat)
  /-- The coroutine that a worker awaits ends. -/
  | finish (n : Nat) (outcome : Outcome)
  /-- The callback of a worker that is done runs. -/
  | callback (n : Nat)
  deriving DecidableEq

def step (s : Fanout γ) : Act γ → Option (Fanout γ)
  | .fanout k coro => some (s.fanout k coro)
  | .begin n =>
      match s.workers.task n with
      | some (k, .created) =>
          match s.queues.get k with
          | some q => some (s.turn n q)
          | none => some (s.setTask n .done)
      | _ => none
  | .finish n _ =>
      match s.workers.task n with
      | some (_, .running q j) => some ((s.ended j).turn n q)
      | _ => none
  | .callback n =>
      match s.workers.task n with
      | some (k, .done) => some ((s.setTask n .settled).onFanoutDone k n)
      | _ => none

end Fanout

/-- The runs of the fan-out. -/
def fanouts (γ : Type u) : System (Fanout γ) (Fanout.Act γ) := ⟨.init, Fanout.step⟩

end Zorkbot.Bot
