/-
# The list of sessions over the wire

The bot's poller asks the game service for its sessions and removes those that are not on the
list. What it reads off the response are the sessions in the pool's table, in whatever order the
map gives them, and their players are those that the bot's model has for the game service.
-/

import Zorkbot.Bot.Reconciliation
import Zorkbot.Compose.Wire

namespace Zorkbot.Compose

open JsonText (Value charsOf)
open Transition
open Zorkbot.Bot (Str ZorkBot zorkbot)
open Zorkbot.Pty (Entry Interpreter PlayerId Pool PoolConfig PoolErr)

/-! ## The two ends -/

/-- `SessionInfo` of the client, with the times as they are formatted. -/
structure SessionInfo where
  num : Nat
  playerId : Str
  startedAt : Str
  lastCommandAt : Str
  deriving DecidableEq

/-- `sessionInfoJSON`. -/
def sessionInfoJSON (i : SessionInfo) : Fields :=
  ("num".toList, .num (.ofNat i.num)) :: ("player_id".toList, .str i.playerId) ::
    ("started_at".toList, .str i.startedAt) :: omitEmpty "last_command_at" i.lastCommandAt

/-- What `handleListSessions` makes of an entry; `startedAt` and `lastCommandAt` are what its
times are formatted as. A time that is not set is left out. -/
def sessionInfo (startedAt lastCommandAt : Entry → Str) (row : PlayerId × Entry) : SessionInfo :=
  ⟨row.2.num, row.1.text, startedAt row.2,
    if row.2.commanded then lastCommandAt row.2 else []⟩

/-- What `handleListSessions` makes of the rows that `Pool.List` returns. -/
def sessionInfos (startedAt lastCommandAt : Entry → Str) (rows : List (PlayerId × Entry)) :
    List SessionInfo :=
  rows.map (sessionInfo startedAt lastCommandAt)

/-- `handleListSessions`, for the sessions that `Pool.List` returns. -/
def handleListSessions (sessions : List SessionInfo) : Response :=
  writeJSON 200 [("sessions".toList, .arr (sessions.map fun i => .obj (sessionInfoJSON i)))]

/-- `s["num"]`, if that is a natural number. -/
def getNum (name : String) (payload : Members) : Option Nat :=
  match member name payload with
  | some (.num n) => n.toNat?
  | _ => none

/-- `s[name]`, if that is a string. -/
def getItem (name : String) (payload : Members) : Option Str :=
  match member name payload with
  | some (.str s) => charsOf s
  | _ => none

def readSessionInfo : Value Units → Option SessionInfo
  | .obj s => do
      return ⟨← getNum "num" s, ← getItem "player_id" s, ← getItem "started_at" s,
        ← getText "last_command_at" [] s⟩
  | _ => none

/-- `list_sessions`, unless it raises or a payload has members of other types. -/
def listSessions (r : Response) : Option (List SessionInfo) :=
  match JsonText.parse r.body with
  | some (.obj members) =>
      if 200 ≤ r.status ∧ r.status < 300 then
        match member "sessions" members with
        | none => some []
        | some (.arr sessions) => sessions.mapM readSessionInfo
        | some _ => none
      else none
  | _ => none

/-! ## A list is read back -/

theorem readSessionInfo_sessionInfoJSON (i : SessionInfo) :
    readSessionInfo (.obj (received (sessionInfoJSON i))) = some i := by
  have num : getNum "num" (received (sessionInfoJSON i)) = some i.num := by
    simp [sessionInfoJSON, getNum, member_cons, member_omitEmpty, Value.map,
      JsonText.Number.toNat?_ofNat]
  have player : getItem "player_id" (received (sessionInfoJSON i)) = some i.playerId := by
    simp [sessionInfoJSON, getItem, member_cons, member_omitEmpty, Value.map]
  have started : getItem "started_at" (received (sessionInfoJSON i)) = some i.startedAt := by
    simp [sessionInfoJSON, getItem, member_cons, member_omitEmpty, Value.map]
  have last : getText "last_command_at" [] (received (sessionInfoJSON i)) =
      some i.lastCommandAt := by
    by_cases empty : i.lastCommandAt = []
    · simp [sessionInfoJSON, getText, member_cons, member_omitEmpty, empty]
    · simp [sessionInfoJSON, getText, member_cons, member_omitEmpty, empty]
  rw [readSessionInfo, num, player, started, last]
  rfl

/-- The client has the list that the service wrote. -/
theorem listSessions_handle (sessions : List SessionInfo) :
    listSessions (handleListSessions sessions) = some sessions := by
  have each : (sessions.map fun i => Value.obj (received (sessionInfoJSON i))).mapM
      readSessionInfo = some sessions := by
    induction sessions with
    | nil => rfl
    | cons i rest ih =>
        rw [List.map_cons, List.mapM_cons, readSessionInfo_sessionInfoJSON, ih]
        rfl
  have there : member "sessions" (received
      [("sessions".toList, .arr (sessions.map fun i => .obj (sessionInfoJSON i)))]) =
        some (.arr (sessions.map fun i => .obj (received (sessionInfoJSON i)))) := by
    rw [member_cons, member_nil, Option.none_or, if_pos rfl, Value.map, Value.mapItems_eq,
      List.map_map]
    exact congrArg (some ∘ Value.arr) (List.map_congr_left fun i _ => map_obj _)
  rw [listSessions, handleListSessions, parse_writeJSON]
  simp only [there, each]
  exact if_pos (show 200 ≤ 200 ∧ 200 < 300 by decide)

/-! ## What the bot takes to be live -/

namespace Stack

variable {G : Type} {setup : Bot.Setup} {message : PoolErr → Str} {I : Interpreter G}
  {cfg : PoolConfig} {s t : Stack G} {guard : Stack G → Act → Prop}

theorem text_inj {p q : PlayerId} : p.text = q.text ↔ p = q := by
  constructor
  · intro same
    cases p
    cases q
    cases same
    rfl
  · exact congrArg _

theorem live_lose (players : List PlayerId) (b : ZorkBot) (p : PlayerId) :
    (players.foldl lose b).live.get p.text = if p ∈ players then none else b.live.get p.text := by
  induction players generalizing b with
  | nil => rfl
  | cons q rest ih =>
      rw [List.foldl_cons, ih, lose, Table.get_erase]
      by_cases here : p = q
      · simp [here]
      · simp [here, text_inj]

theorem live_gain (players : List PlayerId) (b : ZorkBot) (p : PlayerId) :
    ((players.foldl gain b).live.get p.text).isSome =
      (decide (p ∈ players) || (b.live.get p.text).isSome) := by
  induction players generalizing b with
  | nil => simp
  | cons q rest ih =>
      have one : ((gain b q).live.get p.text).isSome =
          (decide (p = q) || (b.live.get p.text).isSome) := by
        unfold gain
        split
        · next dead =>
          rw [Table.get_set]
          by_cases here : p = q
          · simp [here]
          · simp [here, text_inj]
        · next alive =>
          by_cases here : p = q
          · rw [here]
            simp [Option.isSome_iff_ne_none.mpr alive]
          · simp [here]
      rw [List.foldl_cons, ih, one]
      simp only [List.mem_cons, Bool.decide_or]
      cases decide (p ∈ rest) <;> simp

/-- Whose sessions are live for the bot follows the table. -/
theorem live_follow (before after : Pool G) (b : ZorkBot) (p : PlayerId)
    (agree : (b.live.get p.text).isSome = (before.entries.get p).isSome) :
    ((follow before after b).live.get p.text).isSome = (after.entries.get p).isSome := by
  have keys (table : Table PlayerId Entry) : p ∈ table.keys ↔ (table.get p).isSome = true := by
    rw [Table.mem_keys_iff, Option.isSome_iff_exists]
  rw [follow, live_gain, live_lose]
  simp only [List.mem_filter, keys, decide_eq_true_eq, ← Option.not_isSome_iff_eq_none]
  cases there : (before.entries.get p).isSome <;> cases now : (after.entries.get p).isSome <;>
    simp_all

/-- Nobody else is among the live. -/
theorem live_follow_other {q : Str} (other : ∀ p : PlayerId, p.text ≠ q) (before after : Pool G)
    (b : ZorkBot) : (follow before after b).live.get q = b.live.get q := by
  have lost (players : List PlayerId) (b : ZorkBot) :
      (players.foldl lose b).live.get q = b.live.get q := by
    induction players generalizing b with
    | nil => rfl
    | cons p rest ih => rw [List.foldl_cons, ih, lose, Table.get_erase, if_neg (other p).symm]
  have gained (players : List PlayerId) (b : ZorkBot) :
      (players.foldl gain b).live.get q = b.live.get q := by
    induction players generalizing b with
    | nil => rfl
    | cons p rest ih =>
        rw [List.foldl_cons, ih, gain]
        split
        · rw [Table.get_set, if_neg (other p).symm]
        · rfl
  rw [follow, gained, lost]

theorem live_reconcile (players : List Str) (b : ZorkBot) :
    (b.reconcile players).live = b.live := by
  apply ZorkBot.reconcile_induction (motive := fun c => c.live = b.live)
  · rfl
  · intro c r same
    rw [← same, ZorkBot.reconcileOne]
    split <;> rfl

/-- The bot does not move the game service. -/
theorem live_step {b c : ZorkBot} {act : ZorkBot.Act} (taken : (zorkbot setup).step b act = some c)
    (own : ∀ p, act ≠ .serviceStarts p ∧ act ≠ .serviceEnds p) : c.live = b.live := by
  cases ZorkBot.zorkbot_steps taken with
  | gains => exact absurd rfl (own _).1
  | misses => exact absurd rfl (own _).2
  | reconciles => exact live_reconcile ..
  | opens _ onto | closes _ _ onto =>
      obtain ⟨letters, rfl⟩ := ZorkBot.fanTo_eq onto
      rfl
  | _ => rfl

/-- What stands for the game service in the bot's model has what the pool has in its table. -/
structure Agree (s : Stack G) : Prop where
  players : ∀ p : PlayerId, (s.bot.live.get p.text).isSome = (s.pool.entries.get p).isSome
  others : ∀ q, (∀ p : PlayerId, p.text ≠ q) → s.bot.live.get q = none

theorem agree (reached : (stack setup message I cfg).Reachable guard s) : s.Agree := by
  apply reached.invariant (motive := Agree)
  · exact ⟨fun _ => rfl, fun _ _ => rfl⟩
  · intro s a t _ agree _ taken
    cases stack_steps taken with
    | @bot act b allowed stepped =>
        have same : b.live = s.bot.live := live_step stepped fun p => by
          constructor <;> rintro rfl <;> cases allowed
        exact ⟨same ▸ agree.players, same ▸ agree.others⟩
    | @arrives n c r q there waiting stepped =>
        cases Pty.Pool.pool_steps stepped with
        | calls => exact ⟨agree.players, agree.others⟩
    | @pool act q own stepped =>
        exact ⟨fun p => live_follow _ _ _ p (agree.players p), fun q other =>
          (live_follow_other other ..).trans (agree.others q other)⟩

end Stack

/-- In every state of every run: in whatever order the pool lists its sessions, the client reads
the list as it is, the players on it are those that `ZorkBot.live` has, which stands for the game
service where the bot is modelled alone and answers its polls there, and a reconciliation with it
keeps exactly the sessions of players that the pool has in its table. -/
theorem Stack.list_faithful {G : Type} {setup : Bot.Setup} {message : PoolErr → Str}
    {I : Interpreter G} {cfg : PoolConfig} {s : Stack G}
    (reached : (stack setup message I cfg).Reachable (fun _ _ => True) s)
    (startedAt lastCommandAt : Entry → Str) {rows : List (PlayerId × Entry)}
    (listed : ∀ p e, (p, e) ∈ rows ↔ s.pool.entries.get p = some e) :
    listSessions (handleListSessions (sessionInfos startedAt lastCommandAt rows)) =
        some (sessionInfos startedAt lastCommandAt rows) ∧
      (∀ q, q ∈ (sessionInfos startedAt lastCommandAt rows).map SessionInfo.playerId ↔
        q ∈ s.bot.live.keys) ∧
      ∀ q r, (s.bot.reconcile ((sessionInfos startedAt lastCommandAt rows).map
            SessionInfo.playerId)).state.Plays q r ↔
          s.bot.state.Plays q r ∧
            ∃ p : PlayerId, p.text = q ∧ (s.pool.entries.get p).isSome = true := by
  have agree := Stack.agree reached
  have players (q : Str) : q ∈ (sessionInfos startedAt lastCommandAt rows).map
      SessionInfo.playerId ↔ ∃ p : PlayerId, p.text = q ∧ (s.pool.entries.get p).isSome = true := by
    rw [sessionInfos, List.map_map, List.mem_map]
    constructor
    · rintro ⟨⟨p, e⟩, there, rfl⟩
      exact ⟨p, rfl, Option.isSome_iff_exists.mpr ⟨e, (listed p e).mp there⟩⟩
    · rintro ⟨p, rfl, there⟩
      obtain ⟨e, there⟩ := Option.isSome_iff_exists.mp there
      exact ⟨(p, e), (listed p e).mpr there, rfl⟩
  refine ⟨listSessions_handle _, fun q => ?_, fun q r => ?_⟩
  · rw [players, Table.mem_keys_iff, ← Option.isSome_iff_exists]
    constructor
    · rintro ⟨p, rfl, there⟩
      exact (agree.players p).trans there
    · intro live
      obtain ⟨p, rfl⟩ : ∃ p : PlayerId, p.text = q := by
        by_contra other
        rw [agree.others q fun p same => other ⟨p, same⟩] at live
        cases live
      exact ⟨p, rfl, (agree.players p).symm.trans live⟩
  · rw [ZorkBot.plays_reconcile (ZorkBot.sound (Stack.botReached reached)).registry, players]

/-- Alice's session has just been started. -/
theorem Stack.list_faithful_started : ∃ s : Stack (List Go.Text),
    s.pool.entries.rows = [⟨Pty.alice, ⟨0, 1, false, some 0, none⟩⟩] ∧
      listSessions (handleListSessions
        [⟨1, Pty.alice.text, "2026-01-01T00:00:00Z".toList, []⟩]) =
          some [⟨1, Pty.alice.text, "2026-01-01T00:00:00Z".toList, []⟩] ∧
      Pty.alice.text ∈ s.bot.live.keys := by
  obtain ⟨s, reached, only⟩ := System.reaches playground (fun _ _ => True)
    (fun s => s.pool.entries.rows = [⟨Pty.alice, ⟨0, 1, false, some 0, none⟩⟩]) Script.starts
    (fun _ _ _ => trivial) (by decide +kernel)
  have listed (p : PlayerId) (e : Entry) :
      (p, e) ∈ [(Pty.alice, (⟨0, 1, false, some 0, none⟩ : Entry))] ↔
        s.pool.entries.get p = some e := by
    rw [← Table.mem_rows_iff, only]
    simp
  obtain ⟨read, live, -⟩ := Stack.list_faithful (reached.mono fun _ _ _ => trivial)
    (fun _ => "2026-01-01T00:00:00Z".toList) (fun _ => []) listed
  exact ⟨s, only, read, (live _).mp (List.mem_singleton_self _)⟩

end Zorkbot.Compose
