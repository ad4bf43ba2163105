/-
# The work that is left

What the workers and the fan-out workers have still to do is finite, whatever their handlers get
to send: each of their steps replaces a piece of work by lighter ones. A handler that goes on may
queue any number of coroutines and may get any number of packets, but these weigh less than the
point where it was.
-/

import Mathlib.Data.Prod.Lex
import Mathlib.Tactic.Abel
import Zorkbot.Bot.Consistency
import Zorkbot.Data.Totals

namespace Zorkbot.Bot

open Transition

/-! ## Where handlers go -/

/-- How far it is to the end of a handler. -/
def Point.stage : Point → Nat
  | .entered => 7
  | .advertising => 6
  | .starting => 5
  | .acknowledging .. | .resetting => 4
  | .introducing _ => 3
  | .looking | .playing .. | .ending _ => 2
  | .confirming _ | .answering .. | .replying _ => 1
  | .past _ => 0

/-- How many packets are left where some are being sent. -/
def Point.left : Point → Nat
  | .answering _ _ _ packets | .replying packets => packets.length
  | _ => 0

/-- Whoever sends packets has one to send. -/
def Point.Ready : Point → Prop
  | .answering _ _ _ packets | .replying packets => packets ≠ []
  | _ => True

/-- From one point to another it is onward, to a lower stage or with fewer packets. -/
structure Point.Onward (a b : Point) : Prop where
  down : b.stage < a.stage ∨ b.stage = a.stage ∧ b.left < a.left
  ready : b.Ready

namespace Point.Onward

variable {a b : Point} {s : SessionState}

theorem lower (early : b.stage.blt a.stage = true) (ready : b.Ready) : a.Onward b :=
  ⟨.inl (Nat.blt_eq.mp early), ready⟩

theorem say (text : Str) (early : Nat.blt 1 a.stage = true) : a.Onward (say text s).point :=
  .lower early (List.cons_ne_nil _ _)

theorem fail (early : Nat.blt 0 a.stage = true) : a.Onward (fail s).point := .lower early trivial

theorem send (packets : List Str) (early : Nat.blt 1 a.stage = true) : a.Onward (send packets) := by
  cases packets with
  | nil => exact ⟨.inl (Nat.lt_of_succ_lt (Nat.blt_eq.mp early)), trivial⟩
  | cons packet rest => exact .lower early (List.cons_ne_nil _ _)

theorem choose {c : Prop} [Decidable c] {first second : Turn} (yes : a.Onward first.point)
    (no : a.Onward second.point) : a.Onward (if c then first else second).point := by
  split
  · exact yes
  · exact no

end Point.Onward

section

variable {setup : Setup} {around : Surroundings} {i : Item} {s : SessionState} {turn : Turn}
  {a : Point}

theorem onward_end (args : Str) : Point.entered.Onward (handleEnd setup i s args).point := by
  unfold handleEnd handleAdminEnd
  repeat' split
  all_goals first
    | exact .say _ rfl
    | exact .lower rfl trivial

theorem onward_rules : Point.entered.Onward (handleRules i s).point := by
  unfold handleRules
  repeat' split
  all_goals exact .say _ rfl

theorem onward_start : Point.entered.Onward (handleStart around i s).point := by
  unfold handleStart
  repeat' split
  all_goals first
    | exact .say _ rfl
    | exact .lower rfl trivial

theorem onward_watch (args : Str) : Point.entered.Onward (handleWatch setup i s args).point := by
  unfold handleWatch
  repeat' split
  all_goals exact .say _ rfl

theorem onward_reset : Point.entered.Onward (handleReset i s).point := by
  unfold handleReset
  repeat' split
  all_goals first
    | exact .say _ rfl
    | exact .lower rfl trivial

theorem onward_gameCommand (command : Str) :
    Point.entered.Onward (handleGameCommand setup i s command).point := by
  unfold handleGameCommand
  repeat' split
  all_goals first
    | exact .say _ rfl
    | exact .lower rfl trivial

theorem onward_handle : Point.entered.Onward (handle setup around i s).point :=
  .choose (.send _ rfl) <|
  .choose (.say _ rfl) <|
  .choose (.say _ rfl) <|
  .choose onward_rules <|
  .choose onward_start <|
  .choose (onward_end _) <|
  .choose (.choose (.say _ rfl) (.say _ rfl)) <|
  .choose (onward_watch _) <|
  .choose (.choose (.say _ rfl) (.say _ rfl)) <|
  .choose onward_reset <|
  .choose (onward_gameCommand _) <|
  .choose (.say _ rfl) (.lower rfl trivial)

theorem onward_startAnswered (answer : Answer) :
    Point.starting.Onward (startAnswered i s answer).point := by
  unfold startAnswered
  split
  · exact .choose (.lower rfl trivial) (.lower rfl trivial)
  · exact .say _ rfl
  · exact .say _ rfl
  · exact .fail rfl

theorem onward_resetAnswered (answer : Answer) :
    Point.resetting.Onward (resetAnswered i s answer).point := by
  unfold resetAnswered
  split
  · exact .lower rfl trivial
  · exact .say _ rfl
  · exact .say _ rfl
  · exact .fail rfl

theorem onward_lookAnswered (answer : Answer) :
    Point.looking.Onward (lookAnswered setup s answer).point := by
  unfold lookAnswered
  split
  · apply Point.Onward.choose
    · exact .lower rfl trivial
    · split
      · exact .fail rfl
      · exact .send _ rfl
  · exact .lower rfl trivial
  · exact .fail rfl

theorem onward_gameAnswered (r : Nat) (command : Str) (answer : Answer) :
    (Point.playing r command).Onward (gameAnswered setup i s r command answer).point := by
  unfold gameAnswered
  split
  · exact .say _ rfl
  · exact .say _ rfl
  · exact .fail rfl
  · apply Point.Onward.choose
    · exact .say _ rfl
    · dsimp only
      split
      · exact .fail rfl
      · exact .lower rfl trivial
      · next some _ => exact .lower rfl some

theorem onward_answerSent (r : Nat) (command output packet : Str) (rest : List Str)
    (d : Delivery) : (Point.answering r command output (packet :: rest)).Onward
      (answerSent setup s r command output rest d).point := by
  unfold answerSent
  split
  · exact .fail rfl
  · split
    · unfold handOver
      apply Point.Onward.choose
      · exact .lower rfl trivial
      · split
        · exact .fail rfl
        · exact .lower rfl trivial
    · next unfinished => exact ⟨.inr ⟨rfl, Nat.lt_succ_self _⟩, fun last => unfinished (.inl last)⟩

theorem onward_replySent (packet : Str) (rest : List Str) (d : Delivery) :
    (Point.replying (packet :: rest)).Onward (replySent setup s rest d).point := by
  unfold replySent
  split
  · exact .fail rfl
  · dsimp only
    split
    · exact .lower rfl trivial
    · cases rest with
      | nil => exact .lower rfl trivial
      | cons next rest => exact ⟨.inr ⟨rfl, Nat.lt_succ_self _⟩, List.cons_ne_nil _ _⟩

/-- Every block is onward. -/
theorem onward_of_block {resume : Resume} (taken : block setup i s a resume = some turn) :
    a.Onward turn.point := by
  cases resume with
  | called around =>
      simp only [block] at taken
      split at taken
      · next entered =>
          simp only [Option.some.injEq] at taken
          exact entered ▸ taken ▸ onward_handle
      · cases taken
  | advertised =>
      simp only [block] at taken
      split at taken
      · next advertising =>
          simp only [Option.some.injEq] at taken
          exact advertising ▸ taken ▸ .lower rfl trivial
      · cases taken
  | answered answer =>
      simp only [block, answered] at taken
      split at taken <;> simp only [Option.some.injEq, reduceCtorEq] at taken <;> subst taken
      · exact onward_startAnswered answer
      · exact onward_resetAnswered answer
      · exact onward_lookAnswered answer
      · exact onward_gameAnswered _ _ answer
      · cases answer with
        | raised => exact .fail rfl
        | returned | failed => exact .lower rfl trivial
  | sent delivery =>
      simp only [block, sent] at taken
      split at taken <;> simp only [Option.some.injEq, reduceCtorEq] at taken <;> subst taken
      · cases delivery with
        | raised => exact .fail rfl
        | delivered | undelivered => exact .lower rfl trivial
      · cases delivery with
        | raised => exact .fail rfl
        | delivered => exact .lower rfl trivial
        | undelivered => exact .choose (.lower rfl trivial) (.lower rfl trivial)
      · cases delivery with
        | raised => exact .fail rfl
        | delivered | undelivered => exact .lower rfl trivial
      · exact onward_answerSent _ _ _ _ _ delivery
      · exact onward_replySent _ _ delivery

/-- Wherever a handler waits there is something that lets it go on. -/
theorem exists_block (ready : a.Ready) :
    (∃ outcome, a = .past outcome) ∨ ∃ resume turn, block setup i s a resume = some turn := by
  cases a with
  | past outcome => exact .inl ⟨outcome, rfl⟩
  | entered =>
      let around : Surroundings := ⟨fun _ => none, fun _ => 0, 0⟩
      exact .inr ⟨.called around, handle setup around i s, by simp only [block, if_true]⟩
  | advertising => exact .inr ⟨.advertised, advertSent s, by simp only [block, if_true]⟩
  | starting | resetting | looking | playing | ending => exact .inr ⟨.answered .raised, _, rfl⟩
  | acknowledging | introducing | confirming => exact .inr ⟨.sent .delivered, _, rfl⟩
  | answering r command output packets =>
      cases packets with
      | nil => exact absurd rfl ready
      | cons => exact .inr ⟨.sent .delivered, _, rfl⟩
  | replying packets =>
      cases packets with
      | nil => exact absurd rfl ready
      | cons => exact .inr ⟨.sent .delivered, _, rfl⟩

end

/-! ## Pieces of work -/

/-- Pieces of work, each with its level and its size. -/
abbrev Work := Multiset (ℕ ×ₗ ℕ)

/-- A command in a queue. -/
def queuedWeight : ℕ ×ₗ ℕ := toLex (12, 0)

/-- A handler. -/
def Point.weight (a : Point) : ℕ ×ₗ ℕ := toLex (a.stage + 4, a.left)

/-- A worker whose handler is there. -/
def Worker.load (a : Point) : Worker → Work
  | .created => {toLex (3, 0)}
  | .handling _ => {a.weight}
  | .done => 0

/-- A coroutine in a queue. -/
def coroutineWeight : ℕ ×ₗ ℕ := toLex (2, 0)

/-- A fan-out worker whose coroutine has so much to send. -/
def Consumer.load (letters : Nat) : Consumer Fan → Work
  | .created => {toLex (1, 0)}
  | .running .. => {toLex (1, letters)}
  | .done => {toLex (0, 0)}
  | .settled => 0

theorem Point.Onward.weight_lt {a b : Point} (onward : a.Onward b) : b.weight < a.weight := by
  rw [Point.weight, Point.weight, Prod.Lex.toLex_lt_toLex]
  rcases onward.down with lower | ⟨same, fewer⟩
  · exact .inl (Nat.add_lt_add_right lower 4)
  · exact .inr ⟨congrArg (· + 4) same, fewer⟩

/-! ## The work of the gate -/

namespace Gate

variable {s : Gate}

/-- What is in the queues. -/
def queued (s : Gate) : Work :=
  s.queues.total fun line => Multiset.replicate line.length queuedWeight

/-- What the workers have in hand. -/
def held (point : Nat → Point) (s : Gate) : Work := s.workers.total fun t w => w.load (point t)

theorem exists_queued_set (s : Gate) (p : Str) (line : List Item) :
    ∃ rest, s.queued = rest + Multiset.replicate (s.queue p).length queuedWeight ∧
      { s with queues := s.queues.set p line }.queued =
        rest + Multiset.replicate line.length queuedWeight := by
  obtain ⟨rest, before, after⟩ := s.queues.exists_total_set p line
    fun line => Multiset.replicate line.length queuedWeight
  refine ⟨rest, ?_, after⟩
  rw [queued, before, queue]
  cases s.queues.get p with
  | none => rfl
  | some line => rfl

/-- A worker at the head of its loop leaves a command behind, or was created, and gets another
command or returns. -/
theorem lighter_turn {t : Nat} {p : Str} {w : Worker} {heavy : ℕ ×ₗ ℕ}
    {point next : Nat → Point} (there : s.workers.task t = some (p, w))
    (weighs : w.load (point t) = {heavy}) (others : ∀ m ≠ t, next m = point m)
    (own : next t = .entered) :
    Workload.Lighter ((s.turn t p).queued + (s.turn t p).held next) (s.queued + s.held point) := by
  have held : ∀ v, ∃ rest, s.held point = rest + {heavy} ∧
      (s.setTask t v).held next = rest + v.load .entered := by
    intro v
    rw [← weighs, ← own]
    apply Roster.exists_total_move there v
    intro m other u
    rw [others m other]
  unfold turn
  split
  · obtain ⟨rest, before, after⟩ := held .done
    apply Workload.lighter_drop (s.queued + rest) heavy
    · rw [before, add_assoc]
    · exact congrArg (s.queued + ·) (after.trans (add_zero rest))
  · next i line filled =>
      obtain ⟨rest, before, after⟩ := held (.handling i)
      obtain ⟨apart, all, less⟩ := s.exists_queued_set p line
      rw [filled, List.length_cons, Multiset.replicate_succ, ← Multiset.singleton_add] at all
      have queued : (s.take t p i line).queued =
          apart + Multiset.replicate line.length queuedWeight := less
      have taken : (s.take t p i line).held next = rest + {Point.entered.weight} := after
      apply Workload.lighter_merge (apart + Multiset.replicate line.length queuedWeight + rest)
        queuedWeight heavy Point.entered.weight
      · rw [before, all]
        abel
      · rw [queued, taken, ← add_assoc]
      · decide

end Gate

/-! ## The work of the fan-out -/

namespace Fanout

variable {s : Fanout Fan}

def queued (s : Fanout Fan) : Work :=
  (s.objects.map fun line => Multiset.replicate line.length coroutineWeight).sum

def held (letters : Nat → Nat) (s : Fanout Fan) : Work :=
  s.workers.total fun n w => w.load (letters n)

def work (letters : Nat → Nat) (s : Fanout Fan) : Work := s.queued + s.held letters

theorem exists_queued_set {q : Nat} {line : List (Job Fan)} (there : s.objects[q]? = some line)
    (new : List (Job Fan)) :
    ∃ rest, s.queued = rest + Multiset.replicate line.length coroutineWeight ∧
      { s with objects := s.objects.set q new }.queued =
        rest + Multiset.replicate new.length coroutineWeight := by
  have found : (s.objects.map fun line => Multiset.replicate line.length coroutineWeight)[q]? =
      some (Multiset.replicate line.length coroutineWeight) := by
    rw [List.getElem?_map, there, Option.map_some]
  obtain ⟨rest, before, after⟩ :=
    List.exists_sum_set found (Multiset.replicate new.length coroutineWeight)
  exact ⟨rest, before, by rw [queued, List.map_set, after]⟩

/-- One fan-out worker goes on, and what its coroutine has to send changes. -/
theorem exists_held_move {n : Nat} {k : Int} {w : Consumer Fan} {letters next : Nat → Nat}
    (there : s.workers.task n = some (k, w)) (others : ∀ m ≠ n, next m = letters m)
    (v : Consumer Fan) : ∃ rest, s.held letters = rest + w.load (letters n) ∧
      (s.setTask n v).held next = rest + v.load (next n) := by
  apply Roster.exists_total_move there v
  intro m other u
  rw [others m other]

/-- A fan-out worker returns. -/
theorem lighter_done {n : Nat} {k : Int} {w : Consumer Fan} {heavy : ℕ ×ₗ ℕ}
    {letters next : Nat → Nat} (there : s.workers.task n = some (k, w))
    (weighs : w.load (letters n) = {heavy}) (busy : toLex (0, 0) < heavy)
    (others : ∀ m ≠ n, next m = letters m) :
    Workload.Lighter ((s.setTask n .done).work next) (s.work letters) := by
  obtain ⟨rest, before, after⟩ := exists_held_move there others .done
  apply Workload.lighter_replace (s.queued + rest) _ _ busy
  · rw [work, before, weighs, add_assoc]
  · rw [work, after, add_assoc]
    rfl

/-- A fan-out worker at the head of its loop has nothing more to send of one coroutine, or was
created, and awaits another coroutine or returns. -/
theorem lighter_turn {n q : Nat} {k : Int} {w : Consumer Fan} {heavy : ℕ ×ₗ ℕ}
    {letters next : Nat → Nat} (there : s.workers.task n = some (k, w))
    (weighs : w.load (letters n) = {heavy}) (busy : toLex (0, 0) < heavy)
    (others : ∀ m ≠ n, next m = letters m) :
    Workload.Lighter ((s.turn n q).work next) (s.work letters) := by
  unfold turn
  split
  · exact lighter_done there weighs busy others
  · next j line filled =>
      have object : s.objects[q]? = some (j :: line) := by
        unfold contents at filled
        cases found : s.objects[q]? with
        | none => simp [found] at filled
        | some line => simpa [found] using filled
      obtain ⟨rest, before, after⟩ := exists_held_move there others (.running q j)
      obtain ⟨apart, all, less⟩ := exists_queued_set object line
      rw [List.length_cons, Multiset.replicate_succ, ← Multiset.singleton_add] at all
      have queued : (s.take n q j line).queued =
          apart + Multiset.replicate line.length coroutineWeight := less
      have taken : (s.take n q j line).held next = rest + {toLex (1, next n)} := after
      apply Workload.lighter_merge (apart + Multiset.replicate line.length coroutineWeight + rest)
        coroutineWeight heavy (toLex (1, next n))
      · rw [work, before, weighs, all]
        abel
      · rw [work, queued, taken, ← add_assoc]
      · rw [coroutineWeight, Prod.Lex.toLex_lt_toLex]
        exact .inl Nat.one_lt_two

/-- Once its callback has run a fan-out worker is done with. -/
theorem lighter_callback {n : Nat} {t : Fanout Fan} (letters : Nat → Nat)
    (taken : s.step (.callback n) = some t) : Workload.Lighter (t.work letters) (s.work letters) := by
  simp only [step] at taken
  split at taken
  · next k there =>
      simp only [Option.some.injEq] at taken
      obtain ⟨rest, before, after⟩ := exists_held_move there (fun _ _ => rfl) .settled
      have same : t.work letters = (s.setTask n .settled).work letters := by
        rw [← taken, onFanoutDone]
        split
        · rfl
        · split <;> rfl
      apply Workload.lighter_drop (s.queued + rest) (toLex (0, 0))
      · rw [work, before, ← add_assoc]
        rfl
      · rw [same, work, after, ← add_assoc]
        exact add_zero _
  · cases taken

/-! ### More to do -/

/-- There is more to do, but none of it weighs as much as a handler. -/
def Grows (letters : Nat → Nat) (s t : Fanout Fan) : Prop :=
  ∃ new : Work, (∀ piece ∈ new, piece < toLex (3, 0)) ∧ t.work letters = s.work letters + new

theorem Grows.of_eq {letters : Nat → Nat} {t : Fanout Fan} (same : t.work letters = s.work letters) :
    s.Grows letters t :=
  ⟨0, fun _ none => absurd none (Multiset.notMem_zero _), same.trans (add_zero _).symm⟩

theorem Grows.trans {letters : Nat → Nat} {t u : Fanout Fan} (first : s.Grows letters t)
    (second : t.Grows letters u) : s.Grows letters u := by
  obtain ⟨new, light, is⟩ := first
  obtain ⟨more, slight, becomes⟩ := second
  refine ⟨new + more, ?_, by rw [becomes, is, add_assoc]⟩
  intro piece there
  rcases Multiset.mem_add.mp there with there | there
  · exact light piece there
  · exact slight piece there

theorem grows_open (letters : Nat → Nat) (k : Int) (s : Fanout Fan) :
    s.Grows letters (s.open_ k) := by
  have queued : (s.open_ k).queued = s.queued := by
    simp [Fanout.queued, open_]
  exact .of_eq (congrArg (· + s.held letters) queued)

theorem grows_put (letters : Nat → Nat) (q : Nat) (j : Job Fan) (s : Fanout Fan) :
    s.Grows letters (s.put q j) := by
  cases there : s.objects[q]? with
  | none =>
      have same : s.objects.modify q (· ++ [j]) = s.objects := by
        rw [List.modify_eq_set_getElem?, there]
        rfl
      exact .of_eq (by rw [work, queued, put, same]; rfl)
  | some line =>
      obtain ⟨rest, before, after⟩ := exists_queued_set there (line ++ [j])
      have same : s.objects.modify q (· ++ [j]) = s.objects.set q (line ++ [j]) := by
        rw [List.modify_eq_set_getElem?, there]
        rfl
      have queued : (s.put q j).queued = s.queued + {coroutineWeight} := by
        rw [before, add_assoc, ← Multiset.replicate_one, ← Multiset.replicate_add]
        rw [List.length_append, List.length_singleton] at after
        rw [← after, put, Fanout.queued, same]
        rfl
      refine ⟨{coroutineWeight}, ?_, ?_⟩
      · intro piece new
        rw [Multiset.mem_singleton.mp new]
        decide
      · rw [work, work, queued, add_right_comm]
        rfl

theorem grows_employ (letters : Nat → Nat) (k : Int) (s : Fanout Fan) :
    s.Grows letters (s.employ k) := by
  refine ⟨{toLex (1, 0)}, ?_, ?_⟩
  · intro piece new
    rw [Multiset.mem_singleton.mp new]
    decide
  · rw [work, work, held, employ, Roster.total_hire, add_assoc]
    rfl

theorem grows_fanout (letters : Nat → Nat) (k : Int) (coro : Fan) (s : Fanout Fan) :
    s.Grows letters (s.fanout k coro) := by
  have puts : ∀ q (t : Fanout Fan), s.Grows letters t →
      s.Grows letters (if (t.put q ⟨k, coro, t.accepted.length⟩).busy k
        then t.put q ⟨k, coro, t.accepted.length⟩
        else (t.put q ⟨k, coro, t.accepted.length⟩).employ k) := by
    intro q t grown
    have more := grown.trans (grows_put letters q ⟨k, coro, t.accepted.length⟩ t)
    split
    · exact more
    · exact more.trans (grows_employ letters k _)
  unfold fanout
  cases s.queues.get k with
  | some q => exact puts q s (.of_eq rfl)
  | none => exact puts _ _ (grows_open letters k s)

theorem grows_calls (letters : Nat → Nat) (calls : List (Int × Fan)) (s : Fanout Fan) :
    s.Grows letters (calls.foldl (fun f call => f.fanout call.1 call.2) s) := by
  induction calls generalizing s with
  | nil => exact .of_eq rfl
  | cons call rest ih => exact (grows_fanout letters call.1 call.2 s).trans (ih _)

end Fanout

/-! ## The work of the bot -/

namespace ZorkBot

variable {setup : Setup} {b c : ZorkBot}

/-- How much the coroutine that a fan-out worker awaits has still to send. -/
def unsentBy (b : ZorkBot) (n : Nat) : Nat := (b.unsent n).length

/-- Everything that is left to do. -/
def work (b : ZorkBot) : Work := b.gate.queued + b.gate.held b.point + b.fanout.work b.unsentBy

/-- The steps of workers and fan-out workers. -/
def Act.working : Act → Bool
  | .begin _ | .run .. | .finish _ | .open_ .. | .deliver .. | .close .. | .settle _ => true
  | _ => false

theorem lighter_turnTo {t : Nat} {p : Str} {w : Worker} {heavy : ℕ ×ₗ ℕ}
    (there : b.gate.workers.task t = some (p, w)) (weighs : w.load (b.point t) = {heavy}) :
    Workload.Lighter (b.turnTo t (b.gate.turn t p)).work b.work := by
  have points : ∀ m, (b.turnTo t (b.gate.turn t p)).point m =
      if m = t then .entered else b.point m := by
    intro m
    simp only [point, turnTo, Table.get_set]
    split <;> rfl
  apply Workload.Lighter.beside
  apply Gate.lighter_turn there weighs
  · intro m other
    rw [points, if_neg other]
  · rw [points, if_pos rfl]

theorem lighter_leave {t : Nat} {i : Item} {turn : Turn} (there : b.handling t = some i)
    (onward : (b.point t).Onward turn.point) :
    Workload.Lighter (b.leave t i.player turn).work b.work := by
  obtain ⟨p, known⟩ := handling_iff.mp there
  have points := point_leave t i.player turn b
  have others : ∀ m ≠ t, ∀ w : Worker,
      w.load ((b.leave t i.player turn).point m) = w.load (b.point m) := by
    intro m other w
    rw [points, if_neg other]
  obtain ⟨rest, before, after⟩ := Roster.exists_total_change known others
  rw [points, if_pos rfl] at after
  have held : (b.leave t i.player turn).gate.held (b.leave t i.player turn).point =
      rest + {turn.point.weight} := after
  obtain ⟨new, light, grown⟩ := Fanout.grows_calls b.unsentBy turn.fanout b.fanout
  have fanned : (b.leave t i.player turn).fanout.work (b.leave t i.player turn).unsentBy =
      b.fanout.work b.unsentBy + new := grown
  apply Workload.lighter (b.gate.queued + rest + b.fanout.work b.unsentBy) {(b.point t).weight}
    ({turn.point.weight} + new) (b.point t).weight
  · rw [work, Gate.held, before, Worker.load]
    abel
  · rw [work, held, fanned]
    change b.gate.queued + _ + _ = _
    abel
  · exact Multiset.mem_singleton_self _
  · intro piece there
    rcases Multiset.mem_add.mp there with there | there
    · rw [Multiset.mem_singleton.mp there]
      exact onward.weight_lt
    · apply (light piece there).trans
      rw [Point.weight, Prod.Lex.toLex_lt_toLex]
      exact .inl (by simp)

theorem lighter_fanout {order : List Str} {n : Nat} {f : Fanout Fan}
    (onto : b.fanTo n order f = some c)
    (lighter : (∀ m ≠ n, c.unsentBy m = b.unsentBy m) →
      Workload.Lighter (f.work c.unsentBy) (b.fanout.work b.unsentBy)) :
    Workload.Lighter c.work b.work := by
  have others : ∀ m ≠ n, c.unsentBy m = b.unsentBy m := by
    intro m other
    simp only [fanTo, unpack] at onto
    split at onto
    · split at onto
      · simp only [Option.some.injEq] at onto
        subst onto
        simp only [unsentBy, unsent, Table.get_set_of_ne other]
      · cases onto
    · simp only [Option.some.injEq] at onto
      exact onto ▸ rfl
  have whole := (lighter others).beside (b.gate.queued + b.gate.held b.point)
  rw [add_comm, add_comm (b.fanout.work _)] at whole
  obtain ⟨letters, rfl⟩ := fanTo_eq onto
  exact whole

theorem lighter_deliver {n q : Nat} {k : Int} {j : Job Fan} {left : List (Str × Str)}
    (there : b.fanout.workers.task n = some (k, .running q j))
    (fewer : left.length < (b.unsent n).length) (sent : List Sent) :
    Workload.Lighter { b with letters := b.letters.set n left, sent := sent }.work b.work := by
  generalize after : ({ b with letters := b.letters.set n left, sent := sent } : ZorkBot) = c
  have unsent : ∀ m, c.unsentBy m = if m = n then left.length else b.unsentBy m := by
    intro m
    simp only [← after, unsentBy, ZorkBot.unsent, Table.get_set]
    split <;> rfl
  have others : ∀ m ≠ n, ∀ w : Consumer Fan, w.load (c.unsentBy m) = w.load (b.unsentBy m) := by
    intro m other w
    rw [unsent, if_neg other]
  obtain ⟨rest, before, fanned⟩ := Roster.exists_total_change there others
  rw [unsent, if_pos rfl] at fanned
  have held : b.fanout.held c.unsentBy = rest + {toLex (1, left.length)} := fanned
  apply Workload.lighter_replace (b.gate.queued + b.gate.held b.point + (b.fanout.queued + rest))
  · rw [work, Fanout.work, Fanout.held, before, ← add_assoc b.fanout.queued, ← add_assoc]
    rfl
  · subst after
    change b.gate.queued + b.gate.held b.point + (b.fanout.queued + b.fanout.held _) = _
    rw [held, ← add_assoc b.fanout.queued, ← add_assoc]
  · rw [Prod.Lex.toLex_lt_toLex]
    exact .inr ⟨rfl, fewer⟩

/-- Each of these steps leaves less to do. -/
theorem lighter_step {a : Act} (working : a.working = true) (taken : b.step setup a = some c) :
    Workload.Lighter c.work b.work := by
  cases a with
  | begin t =>
      obtain ⟨g, stepped, rfl⟩ := Option.map_eq_some_iff.mp taken
      simp only [Gate.step] at stepped
      split at stepped
      · next p there =>
          simp only [Option.some.injEq] at stepped
          exact stepped ▸ lighter_turnTo there rfl
      · cases stepped
  | finish t =>
      simp only [step] at taken
      split at taken
      · next outcome past =>
          obtain ⟨g, stepped, rfl⟩ := Option.map_eq_some_iff.mp taken
          simp only [Gate.step] at stepped
          split at stepped
          · next p i there =>
              simp only [Option.some.injEq] at stepped
              subst stepped
              exact lighter_turnTo (b := { b with gate := b.gate.ended i }) there rfl
          · cases stepped
      · cases taken
  | run t resume =>
      simp only [step] at taken
      split at taken
      · next i there =>
          obtain ⟨turn, blocked, rfl⟩ := Option.map_eq_some_iff.mp taken
          exact lighter_leave there (onward_of_block blocked)
      · cases taken
  | open_ n order =>
      obtain ⟨f, stepped, onto⟩ := Option.bind_eq_some_iff.mp taken
      apply lighter_fanout onto
      intro others
      simp only [Fanout.step] at stepped
      split at stepped
      · next k there =>
          split at stepped <;> simp only [Option.some.injEq] at stepped <;> subst stepped
          · exact Fanout.lighter_turn there rfl (by decide) others
          · exact Fanout.lighter_done there rfl (by decide) others
      · cases stepped
  | deliver n raises =>
      simp only [step] at taken
      split at taken
      · next k q j letter rest there left =>
          simp only [Option.some.injEq] at taken
          subst taken
          apply lighter_deliver there
          rw [left]
          split
          · exact Nat.succ_pos _
          · exact Nat.lt_succ_self _
      · cases taken
  | close n outcome order =>
      simp only [step] at taken
      split at taken
      · next empty =>
          obtain ⟨f, stepped, onto⟩ := Option.bind_eq_some_iff.mp taken
          apply lighter_fanout onto
          intro others
          simp only [Fanout.step] at stepped
          split at stepped
          · next k q j there =>
              simp only [Option.some.injEq] at stepped
              subst stepped
              have idle : b.unsentBy n = 0 := congrArg List.length empty
              exact Fanout.lighter_turn (s := b.fanout.ended j) there rfl (by rw [idle]; decide) others
          · cases stepped
      · cases taken
  | settle n =>
      obtain ⟨f, stepped, rfl⟩ := Option.map_eq_some_iff.mp taken
      have whole := (Fanout.lighter_callback b.unsentBy stepped).beside
        (b.gate.queued + b.gate.held b.point)
      rw [add_comm, add_comm (b.fanout.work _)] at whole
      exact whole
  | dispatch | ask | list | lose | reconcile | serviceStarts | serviceEnds => cases working

end ZorkBot

end Zorkbot.Bot
