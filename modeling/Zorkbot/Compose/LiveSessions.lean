/-
# Live sessions and their channels

The bot, the part of its event sink that publishes, and the bus. The sink is told of an
event by a call that waits for nothing, so what a step of the bot tells the sink is on the
bus when the step is over. A channel is made for whatever is published and removed when the
end of its session is: the channels are those of active sessions as long as no answer to a
game command comes after the session has left the registry.
-/

import Zorkbot.Admin.SessionBus
import Zorkbot.Bot.Consistency

namespace Zorkbot.Compose

open Transition
open Zorkbot.Admin (BusSetup SessionBus)
open Zorkbot.Bot (Blocks EndReason Item Point Resume SessionState Setup SinkEvent Str Turn ZorkBot
  block zorkbot)

/-! ## The publishing sink -/

/-- The `data` of an event. The watchers are listed in order. -/
inductive BusData
  | command (session : Int) (now : ℚ) (player text : Str)
  | output (session : Int) (now : ℚ) (text : Str)
  | watchers (session : Int) (watchers : Finset Str)
  | ended (session : Int) (now : Int) (reason : EndReason)
  deriving DecidableEq

/-- What `session_started`, `session_ended`, `watchers_changed` and `transcript` publish. -/
def tell (setup : BusSetup) (now : ℚ) (bus : SessionBus BusData) : SinkEvent → SessionBus BusData
  | .sessionStarted _ => bus
  | .sessionEnded record reason =>
      bus.publish setup record.num .sessionEnd (.ended record.num now.floor reason) now
  | .watchersChanged record =>
      bus.publish setup record.num .watchers (.watchers record.num record.watchers) now
  | .transcript num playerName command output =>
      (bus.publish setup num .command (.command num now playerName command) now).publish setup num
        .output (.output num now output) now

/-! ## The system -/

structure LiveSessions where
  bot : ZorkBot
  bus : SessionBus BusData

inductive LiveAct
  /-- A task of the bot goes on. -/
  | bot (a : ZorkBot.Act) (now : ℚ)
  /-- A request for the stream of a session. -/
  | stream (num : Int)
  /-- A stream reads its queue. -/
  | get (n : Nat)
  /-- A stream has ended. -/
  | unsubscribe (num : Int) (n : Nat)

namespace LiveSessions

variable (setup : Setup) (busSetup : BusSetup)

def init : LiveSessions := ⟨.init, .init⟩

/-- The sink is told what is new. -/
def follow (now : ℚ) (before : SessionState) (bot : ZorkBot) (bus : SessionBus BusData) :
    LiveSessions :=
  ⟨bot, (bot.state.sink.drop before.sink.length).foldl (tell busSetup now) bus⟩

def step (s : LiveSessions) : LiveAct → Option LiveSessions
  | .bot a now => (s.bot.step setup a).map fun bot => follow busSetup now s.bot.state bot s.bus
  | .stream num =>
      if (s.bot.state.getSessionByNum num).isSome ∧ s.bus.canSubscribe busSetup then
        some { s with bus := s.bus.subscribe num }
      else none
  | .get n => (s.bus.get n).map fun bus => { s with bus := bus }
  | .unsubscribe num n => some { s with bus := s.bus.unsubscribe num n }

/-- The record with which a handler awaits the answer to a game command. -/
def awaits (b : ZorkBot) (t : Nat) : Option Nat :=
  match b.point t with
  | .playing r _ => some r
  | _ => none

/-- A handler that learns that its game command was executed finds its session active. -/
def prompt (s : LiveSessions) : LiveAct → Bool
  | .bot (.run t (.answered (.returned result))) _ =>
      !result.ok || (awaits s.bot t).all fun r =>
        (s.bot.state.getSessionByNum (s.bot.state.record r).num).isSome
  | _ => true

end LiveSessions

/-- The runs of the bot with its bus. -/
def liveSessions (setup : Setup) (busSetup : BusSetup) : System LiveSessions LiveAct :=
  ⟨.init, LiveSessions.step setup busSetup⟩

/-! ## Numbers and channels -/

section Registry

variable {s t u : SessionState} {bus : SessionBus BusData} {busSetup : BusSetup} {n num : Int}
  {maxWatchers : Int}

/-- The number is that of an active session. -/
def Active (s : SessionState) (n : Int) : Prop := (s.getSessionByNum n).isSome = true

/-- Only active sessions have a channel. -/
def Within (s : SessionState) (bus : SessionBus BusData) : Prop :=
  ∀ n chan, bus.channels.get n = some chan → Active s n

/-- The step tells the sink what the bus has to know. -/
def Told (busSetup : BusSetup) (s t : SessionState) : Prop :=
  ∃ added, t.sink = s.sink ++ added ∧ ∀ now bus, Within s bus →
    Within t (added.foldl (tell busSetup now) bus)

theorem told_of_active (sink : t.sink = s.sink) (active : ∀ n, Active s n → Active t n) :
    Told busSetup s t :=
  ⟨[], by rw [sink, List.append_nil], fun _ _ within n chan there => active n (within n chan there)⟩

theorem Told.refl (s : SessionState) : Told busSetup s s := told_of_active rfl fun _ => id

theorem Told.trans (first : Told busSetup s t) (second : Told busSetup t u) :
    Told busSetup s u := by
  obtain ⟨added, sink, within⟩ := first
  obtain ⟨added', sink', within'⟩ := second
  refine ⟨added ++ added', by rw [sink', sink, List.append_assoc], fun now bus before => ?_⟩
  rw [List.foldl_append]
  exact within' now _ (within now bus before)

/-- One event. -/
theorem told_emit {e : SinkEvent} (sink : t.sink = s.sink ++ [e])
    (within : ∀ now bus, Within s bus → Within t (tell busSetup now bus e)) : Told busSetup s t :=
  ⟨[e], sink, within⟩

theorem channels_publish (event : Admin.BusEvent) (data : BusData) (now : ℚ) (n : Int) :
    (bus.publish busSetup num event data now).channels.get n =
      if n = num then
        if event = .sessionEnd then none
        else some { bus.channel num with
          buffer := Deque.append busSetup.bufferSize (bus.channel num).buffer ⟨event, data, now⟩ }
      else bus.channels.get n := by
  simp only [SessionBus.publish]
  by_cases ended : event = .sessionEnd
  · simp only [if_pos ended, Table.get_erase, Table.get_set]
    split <;> rfl
  · simp only [if_neg ended, Table.get_set]

theorem within_publish (within : Within s bus) (active : Active s num) (event : Admin.BusEvent)
    (data : BusData) (now : ℚ) : Within s (bus.publish busSetup num event data now) := by
  intro n chan there
  rw [channels_publish] at there
  split at there
  · next same => exact same ▸ active
  · exact within n chan there

theorem within_end (within : Within s bus) (others : ∀ n, n ≠ num → Active s n → Active t n)
    (data : BusData) (now : ℚ) : Within t (bus.publish busSetup num .sessionEnd data now) := by
  intro n chan there
  rw [channels_publish] at there
  split at there
  · cases there
  · next other => exact others n other (within n chan there)

theorem Within.mono (within : Within s bus) (active : ∀ n, Active s n → Active t n) :
    Within t bus := fun n chan there => active n (within n chan there)

/-! ### The operations of the registry -/

open Bot.SessionState

theorem active_iff (consistent : s.Consistent maxWatchers) :
    Active s n ↔ ∃ p r, s.Plays p r ∧ (s.record r).num = n := by
  constructor
  · intro active
    obtain ⟨r, found⟩ := Option.isSome_iff_exists.mp active
    exact ⟨_, r, consistent.byNum found⟩
  · rintro ⟨p, r, plays, rfl⟩
    have known : s.getSessionByNum (s.record r).num = some r := by
      rw [getSessionByNum, consistent.forth plays]
      exact plays
    exact Option.isSome_iff_exists.mpr ⟨r, known⟩

theorem told_addSession (p name : Str) : Told busSetup s (s.addSession p name).2 := by
  refine told_emit (e := .sessionStarted ⟨s.nextNum, p, name, ∅⟩) rfl fun now bus within =>
    within.mono fun n active => ?_
  obtain ⟨r, found⟩ := Option.isSome_iff_exists.mp active
  obtain ⟨q, known, plays⟩ := Option.bind_eq_some_iff.mp found
  have number : (s.addSession p name).2.numToPlayer.get n =
      if n = s.nextNum then some p else s.numToPlayer.get n := Table.get_set ..
  have session : ∀ q, (s.addSession p name).2.sessions.get q =
      if q = p then some s.records.length else s.sessions.get q := fun q => Table.get_set ..
  have owner : ∃ q, (s.addSession p name).2.numToPlayer.get n = some q ∧
      (q = p ∨ s.sessions.get q = some r) := by
    rw [number]
    split
    · exact ⟨p, rfl, .inl rfl⟩
    · exact ⟨q, known, .inr plays⟩
  obtain ⟨q, known, plays⟩ := owner
  rw [Active, getSessionByNum, known, Option.bind_some, session]
  split
  · rfl
  · next other => exact Option.isSome_iff_exists.mpr ⟨r, plays.resolve_left other⟩

theorem told_removeSession (consistent : s.Consistent maxWatchers) (p : Str)
    (reason : EndReason) : Told busSetup s (s.removeSession p reason).2 := by
  have after := consistent.removeSession p reason
  cases known : s.sessions.get p with
  | none =>
      have same : (s.removeSession p reason).2 = s := by simp [removeSession, known]
      rw [same]
      exact .refl s
  | some r =>
      have removed : (s.removeSession p reason).2 =
          (s.discard p r).emit (.sessionEnded (s.record r) reason) := by
        simp [removeSession, known]
      refine told_emit (e := .sessionEnded (s.record r) reason) (by rw [removed]; rfl)
        fun now bus within => within_end within (fun n other active => ?_) _ _
      obtain ⟨q, r', plays, rfl⟩ := (active_iff consistent).mp active
      refine (active_iff after).mpr ⟨q, r', plays_removeSession.mpr ⟨?_, plays⟩, ?_⟩
      · rintro rfl
        exact other (by rw [Plays.unique plays known])
      · rw [record_removeSession]

theorem told_setWatchers (consistent : s.Consistent maxWatchers) {r : Nat}
    (found : s.getSessionByNum num = some r) {s' : SessionState} (watchers : Finset Str)
    (sink : s'.sink = s.sink) (sessions : s'.sessions = s.sessions)
    (numToPlayer : s'.numToPlayer = s.numToPlayer) (records : s'.records = s.records) :
    Told busSetup s (s'.setWatchers r watchers) := by
  have same : ∀ n, Active s n → Active (s'.setWatchers r watchers) n := by
    intro n active
    rw [Active, getSessionByNum] at active ⊢
    rw [← sessions, ← numToPlayer] at active
    exact active
  have number : (s'.record r).num = num := by
    rw [record, records]
    exact (consistent.byNum found).2
  refine told_emit (e := .watchersChanged { s'.record r with watchers := watchers })
    (by rw [← sink]; rfl) fun now bus within => within_publish (within.mono same) ?_ _ _ _
  rw [number]
  exact same num (Option.isSome_iff_exists.mpr ⟨r, found⟩)

theorem told_addWatcher (consistent : s.Consistent maxWatchers) (limit : Int) (w : Str)
    (n : Int) : Told busSetup s (s.addWatcher limit w n).2 := by
  unfold addWatcher
  split
  · exact .refl s
  · next r found =>
      split
      · exact .refl s
      · exact told_setWatchers consistent found _ rfl rfl rfl rfl

theorem told_removeWatcher (consistent : s.Consistent maxWatchers) (w : Str) :
    Told busSetup s (s.removeWatcher w).2 := by
  unfold removeWatcher
  split
  · exact .refl s
  · split
    · exact told_of_active rfl fun _ => id
    · next r found => exact told_setWatchers consistent found _ rfl rfl rfl rfl

theorem told_transcript (active : Active s num) (name command output : Str) :
    Told busSetup s (s.emit (.transcript num name command output)) :=
  told_emit rfl fun _ _ within =>
    (within_publish (within_publish within active _ _ _) active _ _ _ :
      Within s _)

end Registry

/-! ## The blocks and the steps of the bot -/

section Blocks

variable {setup : Setup} {busSetup : BusSetup} {i : Item} {s : SessionState} {a : Point}
  {resume : Resume} {turn : Turn}

/-- Where a handler awaits the answer to a game command, only that lets it go on. -/
theorem block_playing {r : Nat} {command : Str}
    (taken : block setup i s (.playing r command) resume = some turn) :
    ∃ answer, resume = .answered answer ∧ turn = Bot.gameAnswered setup i s r command answer := by
  cases resume with
  | called | advertised | sent => simp [block, Bot.sent] at taken
  | answered answer => exact ⟨answer, rfl, (Option.some.inj taken).symm⟩

/-- What any block tells the sink. -/
theorem told_block (consistent : s.Consistent setup.maxWatchers)
    (taken : block setup i s a resume = some turn)
    (prompt : ∀ r command result, a = .playing r command → resume = .answered (.returned result) →
      result.ok = true → Active s (s.record r).num) : Told busSetup s turn.state := by
  by_cases playing : ∃ r command, a = .playing r command
  · obtain ⟨r, command, rfl⟩ := playing
    obtain ⟨answer, rfl, rfl⟩ := block_playing taken
    unfold Bot.gameAnswered
    split
    · exact told_removeSession consistent _ _
    · exact .refl s
    · exact .refl s
    · next result =>
        split
        · exact .refl s
        · next ok =>
            have active := prompt r command result rfl rfl (by simpa using ok)
            dsimp only
            split <;> exact told_transcript active _ _ _
  · cases Bot.blocks_of_block taken with
    | watches => exact told_addWatcher consistent _ _ _
    | unwatches => exact told_removeWatcher consistent _
    | adds => exact told_addSession _ _
    | ends | forces | resets | vanishes => exact told_removeSession consistent _ _
    | records | answers => exact absurd ⟨_, _, rfl⟩ playing
    | _ => exact .refl s

end Blocks

namespace LiveSessions

variable {setup : Setup} {busSetup : BusSetup} {s t : LiveSessions}

theorem told_step {b c : ZorkBot} {a : ZorkBot.Act} (sound : b.Sound setup)
    (taken : b.step setup a = some c)
    (prompt : ∀ t r command result, a = .run t (.answered (.returned result)) →
      b.point t = .playing r command → result.ok = true →
        Active b.state (b.state.record r).num) : Told busSetup b.state c.state := by
  by_cases runs : ∃ t resume, a = .run t resume
  · obtain ⟨t, resume, rfl⟩ := runs
    simp only [ZorkBot.step] at taken
    split at taken
    · obtain ⟨turn, blocked, rfl⟩ := Option.map_eq_some_iff.mp taken
      exact told_block sound.registry blocked fun r command result at_ answered ok =>
        prompt t r command result (answered ▸ rfl) at_ ok
    · cases taken
  · have both : c.state.Consistent setup.maxWatchers ∧ Told busSetup b.state c.state := by
      apply ZorkBot.registry_step (motive := fun s => s.Consistent setup.maxWatchers ∧
        Told busSetup b.state s) ⟨sound.registry, .refl _⟩ _ _ taken
      · exact fun t i resume turn same => absurd ⟨t, resume, same⟩ runs
      · intro s p both
        exact ⟨both.1.removeSession p _, both.2.trans (told_removeSession both.1 p _)⟩
    exact both.2

/-! ## The channels -/

structure Kept (setup : Setup) (s : LiveSessions) : Prop where
  bot : (zorkbot setup).Reachable (fun _ _ => True) s.bot
  within : Within s.bot.state s.bus

theorem kept_step {a : LiveAct} (kept : s.Kept setup) (prompt : s.prompt a = true)
    (taken : s.step setup busSetup a = some t) : t.Kept setup := by
  cases a with
  | bot a now =>
      obtain ⟨bot, moved, rfl⟩ := Option.map_eq_some_iff.mp taken
      have told : Told busSetup s.bot.state bot.state := by
        refine told_step (ZorkBot.sound kept.bot) moved fun t r command result same at_ ok => ?_
        subst same
        simpa [LiveSessions.prompt, awaits, at_, ok, Active] using prompt
      obtain ⟨added, sink, within⟩ := told
      refine ⟨kept.bot.step trivial moved, ?_⟩
      rw [follow, sink, List.drop_left]
      exact within now s.bus kept.within
  | stream num =>
      simp only [step] at taken
      split at taken
      · next active =>
          cases taken
          refine ⟨kept.bot, fun n chan there => ?_⟩
          have channels : (s.bus.subscribe num).channels.get n = if n = num then
              some { s.bus.channel num with
                subscribers := (s.bus.channel num).subscribers ++ [s.bus.objects.length] }
              else s.bus.channels.get n := Table.get_set ..
          rw [channels] at there
          split at there
          · next same => exact same ▸ active.1
          · exact kept.within n chan there
      · cases taken
  | get n =>
      obtain ⟨bus, read, rfl⟩ := Option.map_eq_some_iff.mp taken
      obtain ⟨_, _, _, _, _, rfl⟩ := SessionBus.object_get read
      exact ⟨kept.bot, kept.within⟩
  | unsubscribe num n =>
      cases taken
      refine ⟨kept.bot, fun k chan there => ?_⟩
      simp only [SessionBus.unsubscribe] at there
      split at there
      · next old known =>
          rw [Table.get_set] at there
          split at there
          · next same => exact kept.within k old (same ▸ known)
          · exact kept.within k chan there
      · exact kept.within k chan there

/-- In every run in which each handler that learns that its game command was executed finds its
session active, only active sessions have channels, and there are no more channels than active
sessions. -/
theorem channels_active
    (reached : (liveSessions setup busSetup).Reachable (fun s a => s.prompt a = true) s) :
    (∀ n chan, s.bus.channels.get n = some chan →
      (s.bot.state.getSessionByNum n).isSome = true) ∧
        s.bus.channels.size ≤ s.bot.state.allSessions.length := by
  have kept : s.Kept setup := by
    apply reached.invariant (motive := Kept setup)
    · exact ⟨System.reachable_init, nofun⟩
    · intro s a t _ kept prompt taken
      exact kept_step kept prompt taken
  refine ⟨kept.within, ?_⟩
  have consistent := (ZorkBot.sound kept.bot).registry
  have listed : s.bus.channels.keys ⊆
      s.bot.state.allSessions.map fun r => (s.bot.state.record r).num := by
    intro n there
    obtain ⟨chan, known⟩ := Table.mem_keys_iff.mp there
    obtain ⟨p, r, plays, rfl⟩ := (active_iff consistent).mp (kept.within n chan known)
    exact List.mem_map_of_mem (SessionState.mem_allSessions.mpr ⟨p, plays⟩)
  have distinct : s.bus.channels.keys.Nodup := AList.nodupKeys s.bus.channels
  have fewer := (List.subperm_of_subset distinct listed).length_le
  have keys : s.bus.channels.keys.length = s.bus.channels.size := List.length_map _
  rwa [List.length_map, keys] at fewer

/-- Alice has started a session, and a command of hers is on its way. -/
def plays : List ZorkBot.Act :=
  ZorkBot.aliceStarts 0 ++ [ZorkBot.Act.run 0 (.sent .delivered), .run 0 ZorkBot.granted,
    .run 0 (.sent .delivered), .finish 0] ++ ZorkBot.sends ZorkBot.alice "_game" "north" 1

/-- It is executed, and somebody opens the stream of the session. -/
def played : List LiveAct :=
  (plays ++ [ZorkBot.Act.run 1 ZorkBot.granted]).map (LiveAct.bot · 0) ++ [LiveAct.stream 1]

theorem channels_active_played : ∃ s : LiveSessions, (s.bus.channels.get 1).isSome = true ∧
    (s.bot.state.getSessionByNum 1).isSome = true ∧ s.bot.state.allSessions.length = 1 := by
  obtain ⟨s, path, there, one⟩ := System.reaches
    (liveSessions (ZorkBot.small 2) Admin.SessionBus.plainBus) (fun s a => s.prompt a = true)
    (fun s => (s.bus.channels.get 1).isSome = true ∧ s.bot.state.allSessions.length = 1)
    played (fun _ _ _ => trivial) (by decide +kernel)
  obtain ⟨chan, known⟩ := Option.isSome_iff_exists.mp there
  exact ⟨s, there, (channels_active (path.mono fun _ _ both => both.1)).1 1 chan known, one⟩

/-- An administrator ends the session before the command is executed. -/
def overtaken : List LiveAct :=
  (plays ++ ZorkBot.sends ZorkBot.admin "end" "1" 2 ++
    [ZorkBot.Act.run 1 ZorkBot.granted]).map (LiveAct.bot · 0)

/-- The session is over and has a channel. -/
theorem channel_outlives : ∃ s : LiveSessions,
    (liveSessions (ZorkBot.small 2) Admin.SessionBus.plainBus).Reachable (fun _ _ => True) s ∧
      (s.bus.channels.get 1).isSome = true ∧ s.bot.state.getSessionByNum 1 = none ∧
        s.bot.state.allSessions.length = 0 := by
  obtain ⟨s, path, shown⟩ := System.reaches
    (liveSessions (ZorkBot.small 2) Admin.SessionBus.plainBus) (fun _ _ => True)
    (fun s => (s.bus.channels.get 1).isSome = true ∧ s.bot.state.getSessionByNum 1 = none ∧
      s.bot.state.allSessions.length = 0)
    overtaken (fun _ _ _ => trivial) (by decide +kernel)
  exact ⟨s, path.mono fun _ _ _ => trivial, shown⟩

end LiveSessions

end Zorkbot.Compose
