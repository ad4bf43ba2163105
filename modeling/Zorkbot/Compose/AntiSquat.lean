/-
# A slot that is not played is given back

The pool arms a timer when a session enters its table, to release the slot if no game
command arrives, and cancels it with the first command. The bot, though, sends a
command of its own as soon as it has told a player that the session was started. For
the pool that is a command like any other, and the slot is held.

The timer is cancelled by nothing else than commands, so it stays where no such look
gets through to a session that was not played yet.
-/

import Zorkbot.Bot.Acceptance
import Zorkbot.Bot.Consistency
import Zorkbot.Compose.Requests
import Zorkbot.Pty.Timers

/-! ## Whose commands there are -/

namespace Zorkbot.Bot

open Transition

section

variable {setup : Setup} {around : Surroundings} {i : Item} {s : SessionState} {point : Point}
  {resume : Resume} {turn : Turn} {r : Nat} {command : Str}

/-- The handler waits for the answer to a player's command. -/
def Point.plays : Point → Bool
  | .playing .. => true
  | _ => false

theorem plays_send (packets : List Str) : (send packets).plays = false := by
  cases packets <;> rfl

theorem plays_end (args : Str) : (handleEnd setup i s args).point.plays = false := by
  unfold handleEnd handleAdminEnd
  repeat' split
  all_goals rfl

theorem plays_start : (handleStart around i s).point.plays = false := by
  unfold handleStart
  repeat' split
  all_goals rfl

theorem plays_watch (args : Str) : (handleWatch setup i s args).point.plays = false := by
  unfold handleWatch
  repeat' split
  all_goals rfl

theorem plays_reset : (handleReset i s).point.plays = false := by
  unfold handleReset
  repeat' split
  all_goals rfl

theorem plays_rules : (handleRules i s).point.plays = false := by
  unfold handleRules
  repeat' split
  all_goals rfl

theorem plays_list : (handleList around s).point.plays = false := by
  unfold handleList
  split <;> rfl

theorem plays_watchers : (handleWatchers around s).point.plays = false := by
  unfold handleWatchers
  split <;> rfl

theorem plays_choose {c : Prop} [Decidable c] {first second : Turn}
    (yes : c → first.point.plays = false) (no : second.point.plays = false) :
    (if c then first else second).point.plays = false := by
  split
  · next named => exact yes named
  · exact no

/-- Only the handler of game commands asks for one. -/
theorem plays_handle (other : ¬ i.is "_game" = true) :
    (handle setup around i s).point.plays = false :=
  plays_choose (fun _ => plays_send _) <|
  plays_choose (fun _ => rfl) <|
  plays_choose (fun _ => rfl) <|
  plays_choose (fun _ => plays_rules) <|
  plays_choose (fun _ => plays_start) <|
  plays_choose (fun _ => plays_end _) <|
  plays_choose (fun _ => plays_list) <|
  plays_choose (fun _ => plays_watch _) <|
  plays_choose (fun _ => plays_watchers) <|
  plays_choose (fun _ => plays_reset) <|
  plays_choose (fun named => absurd named other) <|
  plays_choose (fun _ => rfl) rfl

theorem plays_answered {a : Answer} (taken : answered setup i s point a = some turn) :
    turn.point.plays = false := by
  unfold answered at taken
  split at taken <;> simp only [Option.some.injEq, reduceCtorEq] at taken <;> subst taken
  · unfold startAnswered
    split
    · dsimp only
      split <;> rfl
    all_goals rfl
  · unfold resetAnswered
    split <;> rfl
  · unfold lookAnswered
    repeat' split
    all_goals first | rfl | exact plays_send _
  · unfold gameAnswered
    repeat' split
    all_goals rfl
  · unfold endAnswered
    split <;> rfl

theorem plays_sent {d : Delivery} (taken : sent setup s point d = some turn) :
    turn.point.plays = false := by
  unfold sent at taken
  split at taken <;> simp only [Option.some.injEq, reduceCtorEq] at taken <;> subst taken
  · unfold acknowledged
    split <;> rfl
  · unfold introduced
    repeat' split
    all_goals rfl
  · unfold endConfirmed
    split <;> rfl
  · unfold answerSent handOver
    repeat' split
    all_goals rfl
  · unfold replySent
    split
    · rfl
    · dsimp only
      split
      · rfl
      · exact plays_send _

/-- A handler that asks for a player's command is that of a game command. -/
theorem plays_block (taken : block setup i s point resume = some turn)
    (plays : turn.point.plays = true) : i.is "_game" = true := by
  by_contra other
  have idle : turn.point.plays = false := by
    cases resume with
    | called around =>
        simp only [block] at taken
        split at taken
        · simp only [Option.some.injEq] at taken
          exact taken ▸ plays_handle other
        · cases taken
    | advertised =>
        simp only [block] at taken
        split at taken
        · simp only [Option.some.injEq] at taken
          exact taken ▸ rfl
        · cases taken
    | answered a => exact plays_answered taken
    | sent d => exact plays_sent taken
  simp [idle] at plays

end

end Zorkbot.Bot

/-! ## Who looks up a session -/

namespace Zorkbot.Pty

theorem validatePlayerID_eq {id : Go.Text} {p : PlayerId} (valid : validatePlayerID id = some p) :
    id = p.text := by
  unfold validatePlayerID at valid
  split at valid
  · simp only [Option.some.injEq] at valid
    exact valid ▸ rfl
  · cases valid

/-- Looking up a session is what a command begins with. -/
theorem Op.lookup {op : Op} {p : PlayerId} {text : Go.Text} (thread : op.thread = .lookup p text) :
    ∃ id text', op = .command id text' ∧ id = p.text := by
  cases op with
  | command id text' =>
      simp only [Op.thread] at thread
      split at thread
      · next q valid =>
          split at thread
          · simp only [Thread.lookup.injEq] at thread
            exact ⟨id, text', rfl, validatePlayerID_eq (thread.1 ▸ valid)⟩
          · cases thread
      · cases thread
  | start id | endSession id | reset id =>
      simp only [Op.thread] at thread
      split at thread <;> cases thread
  | close => cases thread

/-- The goroutine looks up the session of a command. -/
def Thread.looksUp : Thread → Bool
  | .lookup .. => true
  | _ => false

theorem looksUp_afterEnd (p : PlayerId) (err : Option PoolErr) (by_ : By) :
    (Thread.afterEnd p err by_).looksUp = false := by
  cases by_ with
  | shutdown rest => cases rest <;> rfl
  | _ => rfl

theorem looksUp_afterCall (p : PlayerId) (m : Nat) (r : Result) (for_ : For) :
    (Thread.afterCall p m r for_).looksUp = false := by
  cases for_ with
  | reply => cases r <;> rfl
  | _ => rfl

/-- A goroutine that looks up a session has just been called. -/
theorem Pool.Onward.to_lookup {G : Type} {cfg : PoolConfig} {s t : Pool G} {a : Pool.Act} {c : Nat}
    {here : Option Thread} {p : PlayerId} {text : Go.Text}
    (onward : Pool.Onward cfg s a t c here (.lookup p text)) :
    ∃ op, a = .call c op ∧ op.thread = .lookup p text := by
  have looksUp : (Thread.lookup p text).looksUp = true := rfl
  generalize Thread.lookup p text = next at onward looksUp ⊢
  cases onward with
  | calls action => exact ⟨_, action, rfl⟩
  | passes pass =>
      cases pass with
      | gone => rw [looksUp_afterEnd] at looksUp; cases looksUp
      | _ => cases looksUp
  | closes => rw [looksUp_afterEnd] at looksUp; cases looksUp
  | leaves => rw [looksUp_afterCall] at looksUp; cases looksUp
  | lists =>
      unfold Pool.firstDeletion at looksUp
      split at looksUp <;> cases looksUp
  | _ => cases looksUp

end Zorkbot.Pty

/-! ## What the requests are for -/

namespace Zorkbot.Compose

open Transition
open Zorkbot.Bot (Gate Item Point Setup Str ZorkBot zorkbot)
open Zorkbot.Pty (Entry Interpreter Op PlayerId Pool PoolConfig PoolErr Thread validatePlayerID)
open Zorkbot.Pty.Pool (pool_steps table_step thread_before)

variable {G : Type}

namespace Request

/-- A command is a player's own, or a look. -/
def Vouched (r : Request) : Prop :=
  ∀ id text, r.op = .command id text →
    id = r.item.player ∧ (r.point ≠ .looking → r.item.is "_game" = true)

end Request

namespace Stack

variable {setup : Setup} {message : PoolErr → Str} {I : Interpreter G} {cfg : PoolConfig}
  {s t : Stack G} {guard : Stack G → Act → Prop}

/-- A request that is made is for a message that is being handled. -/
theorem asked_cases {act : ZorkBot.Act} {b : ZorkBot} {r : Request}
    (made : asked b act = some r) : ∃ t resume, act = .run t resume ∧
      b.handling t = some r.item ∧ r.point = b.point t ∧ r.goroutine = none ∧
      request b r.item r.point = some r.op := by
  cases act <;> simp only [asked, reduceCtorEq] at made
  next t resume =>
    obtain ⟨i, there, made⟩ := Option.bind_eq_some_iff.mp made
    obtain ⟨op, for_, rfl⟩ := Option.map_eq_some_iff.mp made
    exact ⟨t, resume, rfl, there, rfl, rfl, for_⟩

/-- What a step does to the requests: one is served, or one is made. -/
theorem requests_step {a : Act} (step : Steps setup message I cfg s a t) {r : Request}
    (known : r ∈ t.requests) :
    (∃ r₀ ∈ s.requests, ∃ g, r = { r₀ with goroutine := g }) ∨
      ∃ act b, (zorkbot setup).step s.bot act = some b ∧ t = s.botTo act b ∧
        asked b act = some r := by
  cases step with
  | @bot act b allowed stepped =>
      rcases List.mem_append.mp known with old | new
      · exact .inl ⟨r, old, _, rfl⟩
      · exact .inr ⟨act, b, stepped, rfl, Option.mem_toList.mp new⟩
  | @arrives n c r₁ q there waiting stepped =>
      obtain ⟨k, at_⟩ := List.mem_iff_getElem?.mp known
      simp only [List.getElem?_modify, Option.map_eq_map, Option.map_eq_some_iff] at at_
      obtain ⟨r₀, at₀, rfl⟩ := at_
      refine .inl ⟨r₀, List.mem_of_getElem? at₀, ?_⟩
      split
      · exact ⟨_, rfl⟩
      · exact ⟨_, rfl⟩
  | pool => exact .inl ⟨r, known, _, rfl⟩

/-- A request that is served stays so. -/
theorem served_stays {a : Act} (step : Steps setup message I cfg s a t) {r : Request} {c : Nat}
    (known : r ∈ s.requests) (served : r.goroutine = some c) : r ∈ t.requests := by
  cases step with
  | bot => exact List.mem_append_left _ known
  | @arrives n c r₁ q there waiting stepped =>
      obtain ⟨k, at_⟩ := List.mem_iff_getElem?.mp known
      have other : n ≠ k := by
        rintro rfl
        rw [there, Option.some.injEq] at at_
        simp [← at_, waiting] at served
      refine List.mem_of_getElem? (i := k) ?_
      rw [List.getElem?_modify_ne _ _ other, at_]
  | pool => exact known

/-- A handler that has gone on to a player's command is that of a game command. -/
theorem game_of_run {b c : ZorkBot} {n : Nat} {resume : Bot.Resume} {i : Item}
    (taken : (zorkbot setup).step b (.run n resume) = some c) (there : c.handling n = some i)
    (plays : (c.point n).plays = true) : i.is "_game" = true := by
  simp only [zorkbot, ZorkBot.step] at taken
  split at taken
  · next j there' =>
      obtain ⟨turn, blocked, rfl⟩ := Option.map_eq_some_iff.mp taken
      have same : j = i := Option.some.inj (there'.symm.trans there)
      rw [ZorkBot.point_leave, if_pos rfl] at plays
      exact same ▸ Bot.plays_block blocked plays
  · cases taken

/-- Every request is backed by a message that was accepted. -/
def Backed (s : Stack G) : Prop :=
  ∀ r ∈ s.requests, r.Vouched ∧ r.item ∈ s.bot.gate.accepted

theorem accepted_grows {a : Act} (step : Steps setup message I cfg s a t) {i : Item}
    (known : i ∈ s.bot.gate.accepted) : i ∈ t.bot.gate.accepted := by
  refine (bot_path step).stable (motive := fun b => i ∈ b.gate.accepted) ?_ known
  intro b act c known _ taken
  refine (ZorkBot.gate_path taken).stable (motive := fun g => i ∈ g.accepted) ?_ known
  exact fun g act h known _ taken => Gate.accepted_step taken known

theorem backed (reached : (stack setup message I cfg).Reachable guard s) : s.Backed := by
  apply reached.invariant (motive := Backed)
  · exact fun r known => by cases known
  · intro s a t reached backed _ taken r known
    have step := stack_steps taken
    rcases requests_step step known with ⟨r₀, known₀, g, rfl⟩ | ⟨act, b, stepped, rfl, made⟩
    · exact ⟨(backed r₀ known₀).1, accepted_grows step (backed r₀ known₀).2⟩
    · obtain ⟨n, resume, rfl, there, point, -, for_⟩ := asked_cases made
      constructor
      · intro id text op
        rw [op] at for_
        cases here : r.point with
        | looking =>
            simp only [here, request, Option.some.injEq, Op.command.injEq] at for_
            exact ⟨for_.1.symm, fun other => absurd rfl other⟩
        | playing k command =>
            simp only [here, request, Option.some.injEq, Op.command.injEq] at for_
            refine ⟨for_.1.symm, fun _ => game_of_run stepped there ?_⟩
            rw [← point, here]
            rfl
        | _ => simp [here, request] at for_
      · obtain ⟨p, at_⟩ := ZorkBot.handling_iff.mp there
        exact Gate.accepted_of_task
          (ZorkBot.gateReached ((botReached reached).step trivial stepped))
          at_

/-- Whoever looks up a session does so for a request of the bot. -/
def Served (s : Stack G) : Prop :=
  ∀ c p text, s.pool.threads.get c = some (.lookup p text) →
    ∃ r ∈ s.requests, r.goroutine = some c ∧ ∃ id text', r.op = .command id text' ∧ id = p.text

theorem served (reached : (stack setup message I cfg).Reachable guard s) : s.Served := by
  apply reached.invariant (motive := Served)
  · intro c p text at_
    simp [stack, init, Pool.init] at at_
  · intro s a t _ served _ taken c p text at_
    have step := stack_steps taken
    have old (at_ : s.pool.threads.get c = some (.lookup p text)) : ∃ r ∈ t.requests,
        r.goroutine = some c ∧ ∃ id text', r.op = .command id text' ∧ id = p.text := by
      obtain ⟨r, known, serves, for_⟩ := served c p text at_
      exact ⟨r, served_stays step known serves, serves, for_⟩
    cases step with
    | bot => exact old at_
    | @arrives n c' r q there waiting stepped =>
        rcases thread_before (pool_steps stepped) at_ with same | onward
        · exact old same
        · obtain ⟨op, action, thread⟩ := onward.to_lookup
          simp only [Pool.Act.call.injEq] at action
          obtain ⟨rfl, rfl⟩ := action
          refine ⟨{ r with goroutine := some c' }, ?_, rfl, Pty.Op.lookup thread⟩
          refine List.mem_of_getElem? (i := n) ?_
          simp only
          rw [List.getElem?_modify_eq, there]
          rfl
    | @pool act q own stepped =>
        rcases thread_before (pool_steps stepped) at_ with same | onward
        · exact old same
        · obtain ⟨op, rfl, thread⟩ := onward.to_lookup
          simp only [ownCall, decide_eq_true_eq] at own
          subst own
          cases thread

/-! ## Sessions and the commands of their players -/

/-- How many messages had been dispatched when a session entered the table. -/
def since (s : Stack G) (num : Nat) : Nat := (s.began.get num).getD 0

/-- A game command was accepted that the player sent after the session had begun. -/
def Commanded (s : Stack G) (p : PlayerId) (num : Nat) : Prop :=
  ∃ i ∈ s.bot.gate.accepted, i.is "_game" = true ∧ i.player = p.text ∧ s.since num ≤ i.call

/-- No initial look is looked up in a session that had no command yet, and no command
that was sent before the session began. -/
def Prompted (s : Stack G) : Act → Prop
  | .pool (.go c) =>
      match s.pool.threads.get c with
      | some (.lookup p _) =>
          match s.pool.entries.get p with
          | some e => e.commanded = true ∨ ∀ r ∈ s.requests, r.goroutine = some c →
              r.point ≠ .looking ∧ s.since e.num ≤ r.item.call
          | none => True
      | _ => True
  | _ => True

instance (s : Stack G) (a : Act) : Decidable (s.Prompted a) := by
  unfold Prompted
  repeat' split
  all_goals infer_instance

theorem since_stays {a : Act} (step : Steps setup message I cfg s a t) {num : Nat}
    (old : num < s.pool.nextNum) : t.since num = s.since num := by
  cases step with
  | bot | arrives => rfl
  | pool =>
      simp only [since, poolTo]
      split
      · rw [Table.get_set_of_ne (Nat.ne_of_lt old)]
      · rfl

theorem Commanded.stays {a : Act} {p : PlayerId} {num : Nat} (commanded : s.Commanded p num)
    (step : Steps setup message I cfg s a t) (old : num < s.pool.nextNum) :
    t.Commanded p num := by
  obtain ⟨i, known, named, own, later⟩ := commanded
  exact ⟨i, accepted_grows step known, named, own, since_stays step old ▸ later⟩

/-- Where no look gets through, a session that had a command had its player's. -/
theorem commanded (reached : (stack setup message I cfg).Reachable Prompted s) :
    ∀ p e, s.pool.entries.get p = some e → e.commanded = true → s.Commanded p e.num := by
  refine reached.invariant (motive := fun s => ∀ p e, s.pool.entries.get p = some e →
    e.commanded = true → s.Commanded p e.num) ?_ ?_
  · intro p e listed
    simp [stack, init, Pool.init] at listed
  · intro s a t reached ih allowed taken p e' listed' played
    have step := stack_steps taken
    have numbered := (Pty.Pool.tabled (poolReached reached)).below p
    have old (listed : s.pool.entries.get p = some e') : t.Commanded p e'.num :=
      (ih p e' listed played).stays step (numbered e' listed)
    cases stack_steps taken with
    | bot => exact old listed'
    | arrives _ _ stepped =>
        cases pool_steps stepped with
        | calls => exact old listed'
    | @pool act q own stepped =>
        rcases Pty.Pool.listed_before (pool_steps stepped) listed' with
          listed | ⟨c, m, next, rfl⟩ | ⟨c, text, e, rfl, at_, found, rfl⟩
        · exact old listed
        · replace listed' := (Pty.Pool.insert_entries (c := c) ..).symm.trans listed'
          rw [if_pos rfl, Option.some.injEq] at listed'
          simp [← listed'] at played
        · obtain ⟨e₀, -, num, touched⟩ :=
            Pty.Pool.touch_entries cfg.withDefaults p e s.pool
          replace listed' := (touched p).symm.trans listed'
          rw [if_pos rfl, Option.some.injEq] at listed'
          rw [← listed', num]
          simp only [Prompted, at_, found] at allowed
          rcases allowed with already | mine
          · exact (ih p e found already).stays step (numbered e found)
          · obtain ⟨r, known, serves, id, text', op, rfl⟩ := served reached c p text at_
            obtain ⟨look, later⟩ := mine r known serves
            obtain ⟨vouched, accepted⟩ := backed reached r known
            obtain ⟨own', named⟩ := vouched _ _ op
            have now : s.Commanded p e.num := ⟨r.item, accepted, named look, own'.symm, later⟩
            exact now.stays step (numbered e found)

end Stack

open Stack

/-- In every run in which no initial look and no older command is looked up in a session
that had no command yet, the idle-start timer of a session is armed, or has fired and is
about to end the session, until a game command was accepted that the player sent after the
session had begun. -/
theorem idle_start_stays_armed {setup : Setup} {message : PoolErr → Str} {I : Interpreter G}
    {cfg : PoolConfig} {s : Stack G} (enabled : 0 < cfg.withDefaults.idleStartTimeout)
    (reached : (stack setup message I cfg).Reachable Prompted s) (p : PlayerId) (e : Entry)
    (listed : s.pool.entries.get p = some e) (silent : ¬ s.Commanded p e.num) :
    s.pool.Idling p e := by
  apply Pty.Pool.idling enabled (poolReached reached) listed
  rw [← Bool.not_eq_true]
  exact fun played => silent (commanded reached p e listed played)

namespace Script

/-- The name of an error does not matter. -/
def wordless : PoolErr → Str := fun _ => []

/-- A request arrives and its goroutine takes so many steps. -/
def serves (n c steps : Nat) : List Act := .arrive n c :: List.replicate steps (.pool (.go c))

/-- `!start` by direct message, up to what the player is told. -/
def starts : List Act :=
  (ZorkBot.sends Pty.alice.text "start" "" 0 ++ [ZorkBot.Act.run 0 .advertised]).map .bot ++
    serves 0 0 2 ++
    (Pty.Pool.Script.boots 0 0).map .pool ++ [Act.pool (.go 0), .bot (.run 0 (.answered succeeded))]

/-- The player was not reached, and is asked for nothing else. -/
def unheard : List Act := starts ++ [Act.bot (.run 0 (.sent .undelivered)), .bot (.finish 0)]

/-- The player was told, and the bot looks around. -/
def looks : List Act := starts ++ [Act.bot (.run 0 (.sent .delivered))] ++ serves 1 1 1

end Script

/-- The bot and the game service that Alice plays with. -/
def playground : System (Stack (List Go.Text)) Act :=
  stack (ZorkBot.small 5) Script.wordless Pty.terse Pty.timedPool

theorem idle_start_stays_armed_unheard :
    ∃ (s : Stack (List Go.Text)) (e : Entry), s.pool.entries.get Pty.alice = some e ∧
      e.num = 1 ∧ s.pool.Idling Pty.alice e := by
  obtain ⟨s, reached, listed, silent⟩ := System.reaches playground Prompted
    (fun s => s.pool.entries.get Pty.alice = some ⟨0, 1, false, some 0, none⟩ ∧
      ∀ i ∈ s.bot.gate.accepted, ¬ i.is "_game" = true) Script.unheard
    (fun _ _ _ => trivial) (by decide +kernel)
  exact ⟨s, _, listed, rfl, idle_start_stays_armed (by decide)
    (reached.mono fun _ _ allowed => allowed.1) Pty.alice _ listed
    fun ⟨i, known, named, _⟩ => silent i known named⟩

/-- Alice has sent nothing but `!start`, her session is in the table, and its idle-start
timer is neither armed nor has it fired. -/
theorem initial_look_disarms_idle_start :
    ∃ (s : Stack (List Go.Text)) (e : Entry), playground.Reachable (fun _ _ => True) s ∧
      s.pool.entries.get Pty.alice = some e ∧
      (∀ i, i ∈ s.bot.gate.accepted ∨ i ∈ s.bot.gate.dropped.map (·.1) →
        i.command = "start".toList) ∧
      ¬ s.pool.Idling Pty.alice e := by
  obtain ⟨s, reached, listed, accepted, dropped, threads⟩ := System.reaches playground
    (fun _ _ => True)
    (fun s => s.pool.entries.get Pty.alice = some ⟨0, 1, true, none, some 1⟩ ∧
      (∀ i ∈ s.bot.gate.accepted, i.command = "start".toList) ∧ s.bot.gate.dropped = [] ∧
      ∀ row ∈ s.pool.threads.rows, row.2 ≠ .autoEnding Pty.alice 1 ∧
        row.2 ≠ .deleting Pty.alice (.timer 1)) Script.looks
    (fun _ _ _ => trivial) (by decide +kernel)
  refine ⟨s, _, reached.mono fun _ _ _ => trivial, listed, ?_, ?_⟩
  · rintro i (known | known)
    · exact accepted i known
    · simp [dropped] at known
  · rintro (⟨timer, idle, -⟩ | ⟨c, at_ | at_⟩)
    · cases idle
    · exact (threads _ ((Table.mem_rows_iff ..).mpr at_)).1 rfl
    · exact (threads _ ((Table.mem_rows_iff ..).mpr at_)).2 rfl

end Zorkbot.Compose
