/-
# Who may end the sessions of others

`!end` with a number ends anybody's session, and is for administrators, who are known
by their key prefix. The handler asks for the prefix and not for where it comes from:
that of a direct message was on its packet, but that of a channel message is the
contact's whose name somebody has typed. A session is ended on the word of a packet that
proves nothing exactly when such a message names an administrator.
-/

import Zorkbot.Bot.Acceptance
import Zorkbot.Bot.Consistency
import Zorkbot.Bot.Incoming

namespace Zorkbot.Bot

open Transition

/-! ## Forced ends -/

namespace SessionState

/-- The session that an administrator has ended, if that is what the sink is told. -/
def forcedBy : SinkEvent → Option SessionRecord
  | .sessionEnded record .adminEnd => some record
  | _ => none

/-- The sessions that administrators have ended, oldest first. -/
def forced (s : SessionState) : List SessionRecord := s.sink.filterMap forcedBy

variable {s : SessionState}

theorem forced_emit (e : SinkEvent) (s : SessionState) :
    (s.emit e).forced = s.forced ++ (forcedBy e).toList := by
  simp only [forced, emit, List.filterMap_append, List.filterMap_cons, List.filterMap_nil]
  cases forcedBy e <;> rfl

theorem forced_setWatchers (r : Nat) (watchers : Finset Str) (s : SessionState) :
    (s.setWatchers r watchers).forced = s.forced :=
  (forced_emit _ _).trans (List.append_nil _)

theorem forced_addSession (p name : Str) (s : SessionState) :
    (s.addSession p name).2.forced = s.forced :=
  (forced_emit _ _).trans (List.append_nil _)

theorem forced_addWatcher (maxWatchers : Int) (w : Str) (n : Int) (s : SessionState) :
    (s.addWatcher maxWatchers w n).2.forced = s.forced := by
  unfold addWatcher
  split
  · rfl
  · split
    · rfl
    · exact forced_setWatchers ..

theorem forced_removeWatcher (w : Str) (s : SessionState) :
    (s.removeWatcher w).2.forced = s.forced := by
  unfold removeWatcher
  split
  · rfl
  · split
    · rfl
    · exact forced_setWatchers ..

theorem forced_removeSession {reason : EndReason} (own : reason ≠ .adminEnd) (p : Str)
    (s : SessionState) : (s.removeSession p reason).2.forced = s.forced := by
  unfold removeSession
  split
  · rfl
  · rw [forced_emit]
    cases reason with
    | adminEnd => exact absurd rfl own
    | _ => exact List.append_nil _

theorem forced_adminEnd {p : Str} {r : Nat} (plays : s.Plays p r) :
    (s.removeSession p .adminEnd).2.forced = s.forced ++ [s.record r] := by
  rw [removeSession, show s.sessions.get p = some r from plays]
  exact forced_emit _ _

end SessionState

/-! ## What it takes to force an end -/

section

variable {setup : Setup} {around : Surroundings} {i : Item} {s : SessionState} {point : Point}
  {resume : Resume} {turn : Turn}

/-- The message is an administrator's `!end` with the number of a session. -/
def Forces (setup : Setup) (i : Item) (s : SessionState) : Prop :=
  i.is "end" = true ∧ strip i.restArgs ≠ [] ∧
    i.ctx.isAdmin setup.lower setup.adminPubkeys = true ∧
    ((setup.int (strip i.restArgs)).bind s.getSessionByNum).isSome = true

instance : Decidable (Forces setup i s) := by
  unfold Forces
  infer_instance

theorem handle_end (named : i.is "end" = true) :
    handle setup around i s = handleEnd setup i s i.restArgs := by
  have command : i.command = "end".toList := of_decide_eq_true named
  simp [handle, Item.is, command]

theorem player_of_admin (admin : i.ctx.isAdmin setup.lower setup.adminPubkeys = true) :
    ∃ p, i.ctx.player = some p := by
  unfold Context.isAdmin at admin
  split at admin
  · next p own => exact ⟨p, own⟩
  · cases admin

/-- An administrator's `!end` with a number does it. -/
theorem forced_of_forces {maxWatchers : Int} (consistent : s.Consistent maxWatchers)
    (forces : Forces setup i s) : ∃ r, (handle setup around i s).state.forced =
      s.forced ++ [s.record r] := by
  obtain ⟨named, given, admin, found⟩ := forces
  obtain ⟨r, found⟩ := Option.isSome_iff_exists.mp found
  obtain ⟨n, number, found⟩ := Option.bind_eq_some_iff.mp found
  obtain ⟨p, own⟩ := player_of_admin admin
  obtain ⟨q, known, plays⟩ := Option.bind_eq_some_iff.mp found
  have plays : s.Plays (s.record r).playerId r := (consistent.owner plays).symm ▸ plays
  refine ⟨r, ?_⟩
  rw [handle_end named]
  simp only [handleEnd, own, if_pos given, handleAdminEnd, admin, number, found]
  exact SessionState.forced_adminEnd plays

/-- Without a number `!end` is about the player's own session or watch. -/
theorem forced_ownEnd {args : Str} (none : strip args = []) :
    (handleEnd setup i s args).state.forced = s.forced := by
  unfold handleEnd
  split
  · rfl
  · rw [if_neg (not_not_intro none)]
    split
    · exact SessionState.forced_removeWatcher ..
    · exact SessionState.forced_removeSession (by simp) ..
    · rfl

/-- Nothing else does. -/
theorem forces_of_forced (blocked : block setup i s point resume = some turn)
    (forced : turn.state.forced ≠ s.forced) :
    point = .entered ∧ (∃ around, resume = .called around) ∧ Forces setup i s := by
  cases blocks_of_block blocked with
  | @forces r rest around named admin number found record =>
      refine ⟨rfl, ⟨around, rfl⟩, named, fun none => forced ?_, admin, by simp [number, found]⟩
      simp only [block, if_pos, Option.some.injEq] at blocked
      rw [← blocked, handle_end named]
      exact forced_ownEnd none
  | quiet | advertises | starts | plays | continues | handsOver | closes | notifies | escapes =>
      exact absurd rfl forced
  | watches => exact absurd (SessionState.forced_addWatcher ..) forced
  | unwatches => exact absurd (SessionState.forced_removeWatcher ..) forced
  | adds => exact absurd (SessionState.forced_addSession ..) forced
  | ends | resets | vanishes => exact absurd (SessionState.forced_removeSession (by simp) ..) forced
  | records | answers =>
      exact absurd ((SessionState.forced_emit ..).trans (List.append_nil _)) forced

end

/-! ## Messages and their packets -/

theorem ZorkBot.uncalled {setup : Setup} {b c : ZorkBot} {a : ZorkBot.Act}
    (other : ∀ ctx command restArgs, a ≠ .dispatch ctx command restArgs)
    (taken : b.step setup a = some c) :
    c.gate.calls = b.gate.calls ∧ c.gate.accepted = b.gate.accepted := by
  cases zorkbot_steps taken with
  | arrives => exact absurd rfl (other _ _ _)
  | begins stepped | finishes _ stepped => exact Gate.uncalled (by simp) stepped
  | @reconciles players =>
      apply reconcile_induction (motive := fun d => d.gate.calls = b.gate.calls ∧
        d.gate.accepted = b.gate.accepted)
      · exact ⟨rfl, rfl⟩
      · intro d r same
        exact (gate_reconcileOne players d r).symm ▸ same
  | opens _ onto | closes _ _ onto =>
      obtain ⟨letters, rfl⟩ := fanTo_eq onto
      exact ⟨rfl, rfl⟩
  | _ => exact ⟨rfl, rfl⟩

namespace Incoming

/-- The message that a packet becomes. -/
def message (contacts : Contacts) : Incoming → IncomingMessage
  | .channel payload => buildChannelMessage contacts payload
  | .dm payload => buildDmMessage contacts payload

/-- The packet itself shows that an administrator has sent it. -/
def Authentic (setup : Setup) : Incoming → Prop
  | .dm payload => ∃ p, truthy payload.pubkeyPrefix = some p ∧ setup.lower p ∈ setup.adminPubkeys
  | .channel _ => False

/-- What is dispatched carries the message. -/
theorem message_of_dispatch {lower : Str → Str} {name : Str} {channel : Int} {contacts : Contacts}
    {packet : Incoming} {ctx : Context} {command restArgs : Str}
    (made : dispatch lower name channel contacts packet = .enqueued ctx command restArgs) :
    ctx.message = packet.message contacts := by
  cases packet with
  | channel payload =>
      simp only [dispatch, dispatchChannel] at made
      split at made
      · cases made
      · split at made
        · cases made
        · split at made
          · cases made
          · simp only [Dispatch.enqueued.injEq] at made
            exact made.1 ▸ rfl
  | dm payload =>
      simp only [dispatch, dispatchDm] at made
      split at made
      · cases made
      · split at made
        · simp only [Dispatch.enqueued.injEq] at made
          exact made.1 ▸ rfl
        · simp only [Dispatch.enqueued.injEq] at made
          exact made.1 ▸ rfl

/-- An administrator's message is authentic if it is a direct message. -/
theorem authentic_iff {setup : Setup} {contacts : Contacts} {packet : Incoming} {ctx : Context}
    (carries : ctx.message = packet.message contacts)
    (admin : ctx.isAdmin setup.lower setup.adminPubkeys = true) :
    packet.Authentic setup ↔ ctx.isDm = true := by
  simp only [Context.isAdmin, Context.pubkeyPrefix, Context.isDm, carries] at admin ⊢
  cases packet with
  | channel payload => simp [Authentic, message, buildChannelMessage]
  | dm payload =>
      split at admin
      · next p own => exact ⟨fun _ => rfl, fun _ => ⟨p, own, of_decide_eq_true admin⟩⟩
      · cases admin

end Incoming

namespace Runner

variable {setup : Setup} {name : Str} {channel : Int} {s t : Runner} {a : Act}
  {guard : Runner → Act → Prop}

/-- What one step does. -/
inductive Steps (setup : Setup) (name : Str) (channel : Int) (s : Runner) : Act → Runner → Prop
  | hears {packet : Incoming} {contacts : Contacts} {ctx : Context} {command restArgs : Str}
      (made : dispatch setup.lower name channel contacts packet = .enqueued ctx command restArgs) :
      Steps setup name channel s (.hear packet contacts)
        ⟨{ s.bot with gate := (s.bot.gate.enqueue ctx command restArgs).1 }, s.heard ++ [packet]⟩
  | overhears {packet : Incoming} {contacts : Contacts} :
      Steps setup name channel s (.hear packet contacts) s
  | bot {act : ZorkBot.Act} {b : ZorkBot}
      (other : ∀ ctx command restArgs, act ≠ .dispatch ctx command restArgs)
      (stepped : s.bot.step setup act = some b) :
      Steps setup name channel s (.bot act) { s with bot := b }

theorem runner_steps (taken : (runner setup name channel).step s a = some t) :
    Steps setup name channel s a t := by
  cases a with
  | hear packet contacts =>
      simp only [runner, step] at taken
      split at taken
      · next ctx command restArgs made =>
          simp only [zorkbot, ZorkBot.step, Option.map_some, Option.some.injEq] at taken
          exact taken ▸ .hears made
      · simp only [Option.some.injEq] at taken
        exact taken ▸ .overhears
  | bot act =>
      cases act <;> simp only [runner, step, reduceCtorEq] at taken <;>
        obtain ⟨b, stepped, rfl⟩ := Option.map_eq_some_iff.mp taken <;>
        exact .bot (by simp) stepped

/-- A run of the runner is a run of the bot. -/
theorem botReached (reached : (runner setup name channel).Reachable guard s) :
    (zorkbot setup).Reachable (fun _ _ => True) s.bot := by
  apply reached.invariant (motive := fun s => (zorkbot setup).Reachable (fun _ _ => True) s.bot)
  · exact System.reachable_init
  · intro s a t _ reached _ taken
    cases runner_steps taken with
    | @hears packet contacts ctx command restArgs made =>
        exact reached.step (a := .dispatch ctx command restArgs) trivial rfl
    | overhears => exact reached
    | bot other stepped => exact reached.step trivial stepped

/-- The accepted commands are those of the packets. -/
structure Traced (s : Runner) : Prop where
  count : s.heard.length = s.bot.gate.calls
  origin : ∀ i ∈ s.bot.gate.accepted, ∃ packet contacts,
    s.heard[i.call]? = some packet ∧ i.ctx.message = packet.message contacts

theorem traced (reached : (runner setup name channel).Reachable guard s) : s.Traced := by
  apply reached.invariant (motive := Traced)
  · exact ⟨rfl, fun i known => by cases known⟩
  · intro s a t _ traced _ taken
    cases runner_steps taken with
    | @hears packet contacts ctx command restArgs made =>
        constructor
        · simp [Gate.calls_enqueue, traced.count]
        · intro i known
          rcases Gate.accepted_enqueue known with old | rfl
          · obtain ⟨packet', contacts', there, carries⟩ := traced.origin i old
            have early := (List.getElem?_eq_some_iff.mp there).1
            exact ⟨packet', contacts', (List.getElem?_append_left early).trans there, carries⟩
          · refine ⟨packet, contacts, ?_, Incoming.message_of_dispatch made⟩
            simp [← traced.count]
    | overhears => exact traced
    | bot other stepped =>
        obtain ⟨calls, accepted⟩ := ZorkBot.uncalled other stepped
        exact ⟨calls ▸ traced.count, accepted ▸ traced.origin⟩

/-! ## The handling of messages -/

/-- The message that is being handled was sent by an administrator, as its own packet
shows. -/
def Authenticated (setup : Setup) (s : Runner) : Act → Prop
  | .bot (.run n _) => ∃ i packet, s.bot.handling n = some i ∧ s.heard[i.call]? = some packet ∧
      packet.Authentic setup
  | _ => False

/-- No message from a channel, whose name stands for an administrator's contact, is about
to be handled as an `!end` with the number of a session. -/
def Unforged (setup : Setup) (s : Runner) : Act → Prop
  | .bot (.run n (.called _)) => ∀ i, s.bot.handling n = some i → s.bot.point n = .entered →
      i.ctx.isDm = true ∨ ¬ Forces setup i s.bot.state
  | _ => True

/-- A step that forces an end is the handling of an administrator's `!end`. -/
theorem forces_of_step (step : Steps setup name channel s a t)
    (forced : t.bot.state.forced ≠ s.bot.state.forced) :
    ∃ n around i, a = .bot (.run n (.called around)) ∧ s.bot.handling n = some i ∧
      s.bot.point n = .entered ∧ Forces setup i s.bot.state := by
  cases step with
  | hears | overhears => exact absurd rfl forced
  | @bot act b other stepped =>
      by_cases runs : ∃ n resume, act = .run n resume
      · obtain ⟨n, resume, rfl⟩ := runs
        simp only [ZorkBot.step] at stepped
        split at stepped
        · next i there =>
            obtain ⟨turn, blocked, rfl⟩ := Option.map_eq_some_iff.mp stepped
            obtain ⟨entered, ⟨around, rfl⟩, forces⟩ := forces_of_forced blocked forced
            exact ⟨n, around, i, rfl, there, entered, forces⟩
        · cases stepped
      · refine absurd (ZorkBot.registry_step
          (motive := fun u => u.forced = s.bot.state.forced) rfl ?_ ?_ stepped) forced
        · exact fun n i resume turn same => absurd ⟨n, resume, same⟩ runs
        · exact fun u p same => (SessionState.forced_removeSession (by simp) p u).trans same

/-- What is being handled was accepted, and so it came with a packet. -/
theorem packet_of_handling (reached : (runner setup name channel).Reachable guard s) {n : Nat}
    {i : Item} (there : s.bot.handling n = some i) : ∃ packet contacts,
      s.heard[i.call]? = some packet ∧ i.ctx.message = packet.message contacts := by
  obtain ⟨p, at_⟩ := ZorkBot.handling_iff.mp there
  exact (traced reached).origin i
    (Gate.accepted_of_task (ZorkBot.gateReached (botReached reached)) at_)

end Runner

open Runner

/-- In every state and for every step: if the step ends a session at an administrator's
word then the word came in a direct message of an administrator, if and only if the step
does not handle such a word that came by a channel. -/
theorem forced_end_is_authenticated_iff {setup : Setup} {name : Str} {channel : Int}
    {s t : Runner} {a : Act} (reached : (runner setup name channel).Reachable (fun _ _ => True) s)
    (taken : (runner setup name channel).step s a = some t) :
    (t.bot.state.forced ≠ s.bot.state.forced → s.Authenticated setup a) ↔ s.Unforged setup a := by
  have step := runner_steps taken
  constructor
  · intro honest
    cases step with
    | hears | overhears => trivial
    | @bot act b other stepped =>
        cases act <;> try trivial
        next n resume =>
          cases resume <;> try trivial
          next around =>
            intro i there entered
            by_contra forged
            rw [not_or, not_not] at forged
            obtain ⟨channel_, forces⟩ := forged
            have forced : b.state.forced ≠ s.bot.state.forced := by
              simp only [ZorkBot.step, there, entered, block, if_pos, Option.map_some,
                Option.some.injEq] at stepped
              have consistent := ZorkBot.registry_consistent (botReached reached)
              obtain ⟨r, more⟩ : ∃ r, (handle setup around i s.bot.state).state.forced =
                  s.bot.state.forced ++ [s.bot.state.record r] := forced_of_forces consistent forces
              rw [← stepped]
              simp [ZorkBot.leave, more]
            obtain ⟨j, packet, there', heard, authentic⟩ := honest forced
            rw [there, Option.some.injEq] at there'
            subst there'
            obtain ⟨packet', contacts, heard', carries⟩ := packet_of_handling reached there
            rw [heard, Option.some.injEq] at heard'
            subst heard'
            exact channel_ ((Incoming.authentic_iff carries forces.2.2.1).mp authentic)
  · intro unforged forced
    obtain ⟨n, around, i, rfl, there, entered, forces⟩ := forces_of_step step forced
    have direct : i.ctx.isDm = true :=
      (unforged i there entered).resolve_right (not_not_intro forces)
    obtain ⟨packet, contacts, heard, carries⟩ := packet_of_handling reached there
    exact ⟨i, packet, there, heard, (Incoming.authentic_iff carries forces.2.2.1).mpr direct⟩

namespace Runner.Script

/-- The contact table has one entry. -/
def contacts : Contacts where
  byName name :=
    if name = "Admin".toList then some ⟨some name, ZorkBot.admin ++ "5eed".toList⟩ else none
  byKeyPrefix _ := none

/-- Alice starts a session by direct message. -/
def aliceStarts : List Act :=
  .hear (.dm ⟨"!start".toList, some ZorkBot.alice, 0⟩) contacts ::
    ([.begin 0, .run 0 (.called ZorkBot.nowhere), .run 0 .advertised,
      .serviceStarts ZorkBot.alice, .run 0 ZorkBot.granted] : List ZorkBot.Act).map .bot

/-- The next worker handles its message. -/
def handles : Act := .bot (.run 1 (.called ZorkBot.nowhere))

/-- The administrator ends the session by direct message, up to its handling. -/
def genuine : List Act :=
  aliceStarts ++ [Act.hear (.dm ⟨"!end 1".toList, some ZorkBot.admin, 0⟩) contacts, .bot (.begin 1)]

/-- Somebody types the administrator's name on the channel. -/
def forged : List Act :=
  aliceStarts ++ [Act.hear (.channel ⟨"Admin: !end 1".toList, none, 3⟩) contacts, .bot (.begin 1)]

end Runner.Script

/-- The bot of the small setup on channel 3. -/
def smallRunner : System Runner Runner.Act := runner (ZorkBot.small 5) "zork".toList 3

/-- Alice's session. -/
def aliceRecord : SessionRecord := ⟨1, ZorkBot.alice, "a11ce000".toList, ∅⟩

/-- The next worker is going to end Alice's session. -/
def Runner.EndsAlice (s : Runner) : Prop :=
  (smallRunner.step s Script.handles).any (fun t =>
    decide (t.bot.state.forced = s.bot.state.forced ++ [aliceRecord])) = true

instance (s : Runner) : Decidable s.EndsAlice := by
  unfold EndsAlice
  infer_instance

theorem Runner.EndsAlice.step {s : Runner} (ends : s.EndsAlice) :
    ∃ t, smallRunner.step s Script.handles = some t ∧
      t.bot.state.forced = s.bot.state.forced ++ [aliceRecord] := by
  unfold EndsAlice at ends
  cases taken : smallRunner.step s Script.handles with
  | none => simp [taken] at ends
  | some t => exact ⟨t, rfl, by simpa [taken] using ends⟩

theorem forced_end_is_authenticated_iff_genuine :
    ∃ s t : Runner, smallRunner.step s Script.handles = some t ∧
      t.bot.state.forced = s.bot.state.forced ++ [aliceRecord] ∧
      s.Authenticated (ZorkBot.small 5) Script.handles := by
  obtain ⟨s, reached, direct, ends⟩ := System.reaches smallRunner (fun _ _ => True)
    (fun s => (s.bot.handling 1).all (·.ctx.isDm) = true ∧ s.EndsAlice) Script.genuine
    (fun _ _ _ => trivial) (by decide +kernel)
  obtain ⟨t, taken, forced⟩ := ends.step
  refine ⟨s, t, taken, forced, (forced_end_is_authenticated_iff
    (reached.mono fun _ _ _ => trivial) taken).mpr ?_ (by simp [forced])⟩
  intro i there _
  exact .inl (by simpa [there] using direct)

/-- Whoever types an administrator's name ends Alice's session. -/
theorem typed_name_forces_end :
    ∃ s t : Runner, smallRunner.Reachable (fun _ _ => True) s ∧
      smallRunner.step s Script.handles = some t ∧
      t.bot.state.forced = s.bot.state.forced ++ [aliceRecord] ∧
      ¬ s.Authenticated (ZorkBot.small 5) Script.handles := by
  obtain ⟨s, reached, typed, ends⟩ := System.reaches smallRunner (fun _ _ => True)
    (fun s => (s.bot.handling 1).all (fun i => decide (s.heard[i.call]? =
      some (.channel ⟨"Admin: !end 1".toList, none, 3⟩))) = true ∧ s.EndsAlice) Script.forged
    (fun _ _ _ => trivial) (by decide +kernel)
  obtain ⟨t, taken, forced⟩ := ends.step
  refine ⟨s, t, reached.mono fun _ _ _ => trivial, taken, forced, ?_⟩
  rintro ⟨i, packet, there, heard, authentic⟩
  simp only [there, Option.all_some, decide_eq_true_eq, heard, Option.some.injEq] at typed
  rw [typed] at authentic
  exact authentic

end Zorkbot.Bot
