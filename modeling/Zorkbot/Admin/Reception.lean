/-
# What the bot hears

The radio keeps what it receives while nobody is attached to it. `start` pulls and discards that
before it subscribes a handler, and from then on each message that is fetched is one for the
handlers of its kind. A handler notes what it heard for the message windows, has the bot dispatch
it, and counts it for the statistics: a direct message always, one of a channel if it is answered.
-/

import Mathlib.Data.List.Perm.Subperm
import Zorkbot.Admin.MessageWindow
import Zorkbot.Admin.Transports
import Zorkbot.Bot.Authentication

namespace Zorkbot.Admin

open Transition
open Zorkbot.Bot (BotsConfig Contacts Context Cooldown Gate Incoming IncomingMessage Str
  Transport ZorkBot dispatchBotsChannel dispatchChannel dispatchDm parseCommand splitArgs strip
  stripAddress truthy)

/-! ## Handlers -/

/-- What the runner and its bot are configured with. -/
structure ReceptionConfig where
  setup : Bot.Setup
  /-- `bot.name`. -/
  name : Str
  channel : Int
  bots : BotsConfig
  /-- `radio_message_window` and `radio_message_contacts`. -/
  window : Int
  maxContacts : Int
  /-- The message windows that the bot is made with, -/
  windows : MessageWindows
  /-- one of them for each channel that is served. Where there can be none, there is no bot. -/
  made : MessageWindows.init window maxContacts
    (channel :: if bots.botsEnabled then bots.botsChannel.toList else []) name = some windows

inductive Handler
  /-- `_on_channel_msg`. -/
  | channel
  /-- `_on_bots_channel_msg`. -/
  | bots
  /-- `_on_dm_msg`. -/
  | dm
  deriving DecidableEq

/-- The handlers that `start` subscribes, for a packet. -/
def handlers (cfg : ReceptionConfig) : Incoming → List Handler
  | .channel payload =>
      (if payload.channelIdx = cfg.channel then [.channel] else []) ++
        if cfg.bots.botsEnabled ∧ cfg.bots.botsChannel = some payload.channelIdx then [.bots]
        else []
  | .dm _ => [.dm]

/-- The call of `record_rx` in `_observe_rx`. -/
def observeRx (now : ℚ) (message : IncomingMessage) : WindowCall :=
  .recordRx now (if message.isDm then .dm else .channel)
    (if message.isDm then none else some message.channelIdx) message.pubkeyPrefix
    message.senderName message.text

/-- When `_count_rx` is called. -/
inductive CountRx
  | now
  /-- Once the reply was sent. -/
  | later
  | never
  deriving DecidableEq

/-- What becomes of a message. -/
structure Dispatched where
  bot : ZorkBot
  cooldown : Cooldown
  counting : CountRx
  /-- It was put into the queue of a player. -/
  queued : Bool
  /-- What the sink is told, other than by `_drop` and `_handle`. -/
  log : List LogCall

section

variable (cfg : ReceptionConfig)

/-- The command that `dispatch_channel` has read. -/
def commandOf (message : IncomingMessage) : Str :=
  match parseCommand cfg.setup.lower
      (stripAddress cfg.setup.lower cfg.name (strip message.text)).1 with
  | some args => (splitArgs cfg.setup.lower args).1
  | none => []

/-- `_on_dm_msg` counts what it has heard, and the other two what was answered. -/
def dispatched (clock : ℚ) (message : IncomingMessage) (b : ZorkBot) (cooldown : Cooldown) :
    Handler → Dispatched
  | .channel =>
      match dispatchChannel cfg.setup.lower cfg.name cfg.channel message with
      | .ignored => ⟨b, cooldown, .never, false, []⟩
      | .refused _ => ⟨b, cooldown, .later, false, [.refused (commandOf cfg message)]⟩
      | .enqueued ctx command restArgs =>
          let (g, queued) := b.gate.enqueue ctx command restArgs
          ⟨{ b with gate := g }, cooldown, if queued then .now else .never, queued, []⟩
  | .bots =>
      let (call, next) :=
        dispatchBotsChannel cfg.setup.lower cfg.name cfg.bots cooldown clock message
      let answered := match call with
        | .answered _ => true
        | _ => false
      ⟨b, next, if answered then .now else .never, false,
        [.rollCall cfg.bots cooldown clock message]⟩
  | .dm =>
      match dispatchDm cfg.setup.lower cfg.name message with
      | .enqueued ctx command restArgs =>
          let (g, queued) := b.gate.enqueue ctx command restArgs
          ⟨{ b with gate := g }, cooldown, .now, queued, []⟩
      | _ => ⟨b, cooldown, .now, false, []⟩

end

/-! ## The runner and its radio -/

/-- A handler that has noted what it heard. -/
structure Observation where
  /-- Which of the messages that the radio has received it was. -/
  arrival : Nat
  handler : Handler
  message : IncomingMessage
  /-- The time of the window's record. -/
  at_ : ℚ
  counting : CountRx
  queued : Bool

/-- Where the runner is. -/
inductive Phase
  | offline
  /-- In `flush_pending_messages`. -/
  | flushing
  | listening
  | stopped
  deriving DecidableEq

/-- The handlers are not subscribed yet. -/
def Phase.early : Phase → Bool
  | .offline | .flushing => true
  | _ => false

/-- What the radio keeps and hands over. -/
structure Mailbox where
  /-- Bookkeeping: all that the radio has received, oldest first. -/
  received : List Incoming
  /-- What it keeps, by the places in that list. -/
  queue : List Nat
  phase : Phase
  /-- Bookkeeping: how much had been received when the runner was started. -/
  backlog : Nat
  /-- Bookkeeping: what was discarded. -/
  flushed : List Nat
  /-- Bookkeeping: a `get_msg` of the flush has failed. -/
  failed : Bool
  /-- `startup_flushed_messages`. -/
  startupFlushed : Option Nat
  /-- Bookkeeping: what was fetched since. -/
  fetched : List Nat

structure Reception where
  mailbox : Mailbox
  /-- The handlers that are to be called. -/
  due : List (Nat × Handler)
  /-- Bookkeeping: the handlers that have noted what they heard. -/
  observed : List Observation
  /-- The handlers that await the reply of `dispatch_channel`. -/
  replying : List Observation
  /-- Bookkeeping: the calls of `_count_rx`. -/
  counted : List Observation
  bot : ZorkBot
  cooldown : Cooldown
  windows : MessageWindows
  /-- Bookkeeping: the calls of `windows` that did not raise. -/
  calls : List WindowCall
  /-- Bookkeeping: the calls of `player_seen`. -/
  sightings : List (Str × Option Str)
  /-- Bookkeeping: what else the sink was told, and when. -/
  log : List (Int × LogCall)

/-- `_MAX_FLUSH_MESSAGES`. -/
def maxFlushMessages : Nat := 500

/-- How the radio answers `get_msg`. -/
inductive GetMsg
  | message
  | noMoreMsgs
  | error

namespace Mailbox

def init : Mailbox := ⟨[], [], .offline, 0, [], false, none, []⟩

def receive (packet : Incoming) (m : Mailbox) : Mailbox :=
  { m with
    received := m.received ++ [packet]
    queue := m.queue ++ [m.received.length] }

/-- `start`, up to the flush. -/
def start (m : Mailbox) : Mailbox :=
  { m with
    phase := .flushing
    backlog := m.received.length }

/-- `start` goes on after the flush. -/
def listen (m : Mailbox) : Mailbox :=
  { m with
    phase := .listening
    startupFlushed := some m.flushed.length }

/-- One round of `flush_pending_messages`, with the test of its `while`. -/
def flush (m : Mailbox) : GetMsg → Option Mailbox
  | .message =>
      match m.queue with
      | i :: rest =>
          let m : Mailbox := { m with queue := rest, flushed := m.flushed ++ [i] }
          some (if m.flushed.length < maxFlushMessages then m else m.listen)
      | [] => none
  | .noMoreMsgs => if m.queue = [] then some m.listen else none
  | .error => some { m with failed := true }.listen

/-- The packet of a message and who is to be called for it. -/
def fetch (cfg : ReceptionConfig) (m : Mailbox) : Option (Mailbox × List (Nat × Handler)) :=
  match m.queue with
  | i :: rest =>
      let called := if m.phase = .listening then (m.received[i]?).elim [] (handlers cfg) else []
      some ({ m with queue := rest, fetched := m.fetched ++ [i] }, called.map fun h => (i, h))
  | [] => none

end Mailbox

namespace Reception

def init (cfg : ReceptionConfig) (cooldown : Cooldown) : Reception where
  mailbox := .init
  due := []
  observed := []
  replying := []
  counted := []
  bot := .init
  cooldown := cooldown
  windows := cfg.windows
  calls := []
  sightings := []
  log := []

/-- `_count_rx`. -/
def count (now : Int) (o : Observation) (s : Reception) : Reception :=
  { s with
    counted := s.counted ++ [o]
    log := s.log ++ [(now, .received o.message)] }

/-- A handler knows what became of its message. -/
def heed (now : Int) (o : Observation) (s : Reception) : Reception :=
  let s : Reception := { s with observed := s.observed ++ [o] }
  match o.counting with
  | .now => s.count now o
  | .later => { s with replying := s.replying ++ [o] }
  | .never => s

/-- A handler up to the reply, if there is one. Where `record_rx` raises it ends there. -/
def call (cfg : ReceptionConfig) (i : Nat) (h : Handler) (contacts : Contacts) (at_ clock : ℚ)
    (now : Int) (packet : Incoming) (s : Reception) : Reception :=
  let message := packet.message contacts
  let s : Reception :=
    { s with
      sightings := s.sightings ++
        ((truthy message.pubkeyPrefix).map fun p => (p, message.senderName)).toList }
  match s.windows.record (observeRx at_ message) with
  | none => s
  | some windows =>
      let told := dispatched cfg clock message s.bot s.cooldown h
      { s with
        windows := windows
        calls := s.calls ++ [observeRx at_ message]
        bot := told.bot
        cooldown := told.cooldown
        log := s.log ++ told.log.map fun call => (now, call) }.heed now
          ⟨i, h, message, at_, told.counting, told.queued⟩

inductive Act
  | receive (packet : Incoming)
  /-- The radio drops one of the messages that it keeps. -/
  | forget (k : Nat)
  | start
  | flush (answer : GetMsg)
  /-- A message is fetched, and whoever is subscribed is to be called. -/
  | fetch
  /-- A handler is called. -/
  | call (k : Nat) (contacts : Contacts) (at_ clock : ℚ) (now : Int)
  /-- The reply of a handler was sent, or that has raised. -/
  | replied (k : Nat) (raises : Bool) (now : Int)
  /-- `record_tx`, for a packet that was sent. -/
  | transmit (at_ : ℚ) (transport : Transport) (channelIdx : Option Int)
      (pubkeyPrefix : Option Str) (text : Str)
  /-- The bot goes on. -/
  | bot (act : ZorkBot.Act)
  | stop

def step (cfg : ReceptionConfig) (s : Reception) : Act → Option Reception
  | .receive packet => some { s with mailbox := s.mailbox.receive packet }
  | .forget k =>
      if k < s.mailbox.queue.length then
        some { s with mailbox := { s.mailbox with queue := s.mailbox.queue.eraseIdx k } }
      else none
  | .start =>
      if s.mailbox.phase = .offline then some { s with mailbox := s.mailbox.start } else none
  | .flush answer =>
      if s.mailbox.phase = .flushing then
        (s.mailbox.flush answer).map fun m => { s with mailbox := m }
      else none
  | .fetch =>
      if s.mailbox.phase.early then none
      else (s.mailbox.fetch cfg).map fun (m, due) => { s with mailbox := m, due := s.due ++ due }
  | .call k contacts at_ clock now =>
      match s.due[k]? with
      | some (i, h) =>
          (s.mailbox.received[i]?).map fun packet =>
            { s with due := s.due.eraseIdx k }.call cfg i h contacts at_ clock now packet
      | none => none
  | .replied k raises now =>
      (s.replying[k]?).map fun o =>
        let s : Reception := { s with replying := s.replying.eraseIdx k }
        if raises then s else s.count now o
  | .transmit at_ transport channelIdx pubkeyPrefix text =>
      let call : WindowCall := .recordTx at_ transport channelIdx pubkeyPrefix text
      (s.windows.record call).map fun windows =>
        { s with windows := windows, calls := s.calls ++ [call] }
  | .bot (.dispatch ..) => none
  | .bot act => (s.bot.step cfg.setup act).map fun b => { s with bot := b }
  | .stop =>
      if s.mailbox.phase = .listening then
        some { s with mailbox := { s.mailbox with phase := .stopped } }
      else none

end Reception

/-- The runs of the runner and its radio. -/
def reception (cfg : ReceptionConfig) (cooldown : Cooldown) : System Reception Reception.Act :=
  ⟨.init cfg cooldown, Reception.step cfg⟩

/-! ## What the radio hands over -/

namespace Mailbox

variable {cfg : ReceptionConfig} {m next : Mailbox}

/-- The flush has found the radio empty, or had to discard no more than it may. -/
def Whole (m : Mailbox) : Prop :=
  m.failed = false ∧ (m.flushed.length < maxFlushMessages ∨ m.backlog ≤ maxFlushMessages)

/-- What is discarded and what is fetched was received in this order, and what was received before
the start is discarded. -/
structure Handed (m : Mailbox) : Prop where
  ordered : (m.flushed ++ m.fetched ++ m.queue).Pairwise (· < ·)
  known : ∀ i ∈ m.flushed ++ m.fetched ++ m.queue, i < m.received.length
  backlog : m.backlog ≤ m.received.length
  few : m.flushed.length ≤ maxFlushMessages
  early : m.phase.early = true → m.fetched = [] ∧ m.failed = false ∧
    m.startupFlushed = none ∧ m.flushed.length < maxFlushMessages
  late : m.phase.early = false → m.startupFlushed = some m.flushed.length ∧
    (m.Whole → ∀ i ∈ m.fetched ++ m.queue, m.backlog ≤ i)

theorem handed_init : init.Handed := by
  constructor <;> simp [init, Phase.early, maxFlushMessages]

theorem Handed.receive (handed : m.Handed) (packet : Incoming) : (m.receive packet).Handed := by
  obtain ⟨ordered, known, backlog, few, early, late⟩ := handed
  have grown : (m.receive packet).received.length = m.received.length + 1 :=
    List.length_append
  have placed : m.flushed ++ m.fetched ++ (m.queue ++ [m.received.length]) =
      m.flushed ++ m.fetched ++ m.queue ++ [m.received.length] := (List.append_assoc ..).symm
  constructor
  · change (m.flushed ++ m.fetched ++ (m.queue ++ [m.received.length])).Pairwise (· < ·)
    rw [placed, List.pairwise_append]
    refine ⟨ordered, List.pairwise_singleton _ _, fun i there j new => ?_⟩
    rw [List.mem_singleton.mp new]
    exact known i there
  · intro i there
    rw [grown]
    change i ∈ m.flushed ++ m.fetched ++ (m.queue ++ [m.received.length]) at there
    rw [placed] at there
    rcases List.mem_append.mp there with old | new
    · exact Nat.lt_succ_of_lt (known i old)
    · rw [List.mem_singleton.mp new]
      exact Nat.lt_succ_self _
  · rw [grown]
    exact Nat.le_succ_of_le backlog
  · exact few
  · exact early
  · intro phase
    refine ⟨(late phase).1, fun whole i there => ?_⟩
    change i ∈ m.fetched ++ (m.queue ++ [m.received.length]) at there
    rw [← List.append_assoc] at there
    rcases List.mem_append.mp there with old | new
    · exact (late phase).2 whole i old
    · rw [List.mem_singleton.mp new]
      exact backlog

theorem Handed.forget (handed : m.Handed) {queue : List Nat} (less : queue.Sublist m.queue) :
    { m with queue := queue }.Handed := by
  obtain ⟨ordered, known, backlog, few, early, late⟩ := handed
  have all := (List.Sublist.refl (m.flushed ++ m.fetched)).append less
  refine ⟨ordered.sublist all, fun i there => known i (all.subset there), backlog, few, early,
    fun phase => ⟨(late phase).1, fun whole i there => ?_⟩⟩
  have fetched := (List.Sublist.refl m.fetched).append less
  exact (late phase).2 whole i (fetched.subset there)

theorem Handed.start (handed : m.Handed) (offline : m.phase = .offline) : m.start.Handed := by
  obtain ⟨ordered, known, -, few, early, -⟩ := handed
  rw [offline] at early
  exact ⟨ordered, known, Nat.le_refl _, few, fun _ => early rfl, nofun⟩

theorem handed_listen (ordered : (m.flushed ++ m.queue).Pairwise (· < ·))
    (known : ∀ i ∈ m.flushed ++ m.queue, i < m.received.length)
    (backlog : m.backlog ≤ m.received.length) (few : m.flushed.length ≤ maxFlushMessages)
    (unfetched : m.fetched = [])
    (cut : m.Whole → ∀ i ∈ m.queue, m.backlog ≤ i) :
    m.listen.Handed := by
  refine ⟨?_, ?_, backlog, few, nofun, fun _ => ⟨rfl, ?_⟩⟩
  · change (m.flushed ++ m.fetched ++ m.queue).Pairwise (· < ·)
    rw [unfetched, List.append_nil]
    exact ordered
  · change ∀ i ∈ m.flushed ++ m.fetched ++ m.queue, i < m.received.length
    rw [unfetched, List.append_nil]
    exact known
  · change m.Whole → ∀ i ∈ m.fetched ++ m.queue, m.backlog ≤ i
    rw [unfetched]
    exact cut

/-- There are no more places than numbers before a number. -/
theorem length_le_of_ascending {line : List Nat} (ordered : line.Pairwise (· < ·)) {n : Nat}
    (below : ∀ i ∈ line, i < n) : line.length ≤ n := by
  have distinct : line.Nodup := ordered.imp fun less => Nat.ne_of_lt less
  have fits : line ⊆ List.range n := fun i there => List.mem_range.mpr (below i there)
  have short := (List.subperm_of_subset distinct fits).length_le
  rwa [List.length_range] at short

/-- The cap of the flush is reached only when as many messages as that were discarded. -/
theorem Handed.flush (handed : m.Handed) (flushing : m.phase = .flushing) {answer : GetMsg}
    (flushed : m.flush answer = some next) : next.Handed := by
  obtain ⟨ordered, known, backlog, few, early, -⟩ := handed
  rw [flushing] at early
  obtain ⟨unfetched, -, untold, room⟩ := early rfl
  rw [unfetched, List.append_nil] at ordered known
  cases answer with
  | message =>
      simp only [Mailbox.flush] at flushed
      split at flushed
      · next i rest line =>
          have same : m.flushed ++ m.queue = m.flushed ++ [i] ++ rest := by
            rw [line, List.append_assoc, List.singleton_append]
          have length : (m.flushed ++ [i]).length = m.flushed.length + 1 := List.length_append
          rw [same] at ordered known
          rw [Option.some.injEq] at flushed
          subst flushed
          split
          · next less =>
              refine ⟨?_, ?_, backlog, Nat.le_of_lt less, fun phase => ?_, fun phase => ?_⟩
              · change (m.flushed ++ [i] ++ m.fetched ++ rest).Pairwise (· < ·)
                rw [unfetched, List.append_nil]
                exact ordered
              · change ∀ j ∈ m.flushed ++ [i] ++ m.fetched ++ rest, j < m.received.length
                rw [unfetched, List.append_nil]
                exact known
              · exact ⟨unfetched, (early rfl).2.1, untold, less⟩
              · change m.phase.early = false at phase
                rw [flushing] at phase
                cases phase
          · next more =>
              change ¬(m.flushed ++ [i]).length < _ at more
              rw [length] at more
              have full : (m.flushed ++ [i]).length ≤ maxFlushMessages := by
                rw [length]
                exact room
              apply @handed_listen { m with queue := rest, flushed := m.flushed ++ [i] } ordered
                known backlog full unfetched
              intro whole j there
              have short : m.backlog ≤ maxFlushMessages :=
                whole.2.resolve_left fun less => more (by rwa [← length])
              have before : ∀ k ∈ m.flushed ++ [i], k < j := fun k first =>
                (List.pairwise_append.mp ordered).2.2 k first j there
              have far := length_le_of_ascending (List.pairwise_append.mp ordered).1 before
              rw [length] at far
              change m.backlog ≤ j
              omega
      · cases flushed
  | noMoreMsgs =>
      simp only [Mailbox.flush] at flushed
      split at flushed
      · next empty =>
          rw [Option.some.injEq] at flushed
          subst flushed
          apply handed_listen ordered known backlog few unfetched
          intro _ j there
          rw [empty] at there
          cases there
      · cases flushed
  | error =>
      simp only [Mailbox.flush, Option.some.injEq] at flushed
      subst flushed
      exact handed_listen ordered known backlog few unfetched fun whole => nomatch whole.1

/-- A flush fetches nothing for the handlers. -/
theorem flush_keeps {answer : GetMsg} (flushed : m.flush answer = some next) :
    next.received = m.received ∧ next.fetched = m.fetched := by
  cases answer with
  | message =>
      simp only [Mailbox.flush] at flushed
      split at flushed
      · rw [Option.some.injEq] at flushed
        subst flushed
        split <;> exact ⟨rfl, rfl⟩
      · cases flushed
  | noMoreMsgs =>
      simp only [Mailbox.flush] at flushed
      split at flushed
      · rw [Option.some.injEq] at flushed
        exact flushed ▸ ⟨rfl, rfl⟩
      · cases flushed
  | error =>
      simp only [Mailbox.flush, Option.some.injEq] at flushed
      exact flushed ▸ ⟨rfl, rfl⟩

theorem Handed.fetch (handed : m.Handed) (late : m.phase.early = false)
    {due : List (Nat × Handler)} (fetched : m.fetch cfg = some (next, due)) : next.Handed := by
  obtain ⟨ordered, known, backlog, few, -, rest⟩ := handed
  simp only [Mailbox.fetch] at fetched
  split at fetched
  · next i later line =>
      rw [Option.some.injEq, Prod.mk.injEq] at fetched
      obtain ⟨rfl, -⟩ := fetched
      have same : ∀ front : List Nat, front ++ (m.fetched ++ [i]) ++ later =
          front ++ m.fetched ++ m.queue := by
        intro front
        rw [line, ← List.append_assoc, List.append_assoc _ [i], List.singleton_append]
      refine ⟨?_, ?_, backlog, few, fun phase => ?_, fun _ => ⟨(rest late).1, ?_⟩⟩
      · rw [same m.flushed]
        exact ordered
      · rw [same m.flushed]
        exact known
      · exact absurd phase (Bool.eq_false_iff.mp late)
      · intro whole j there
        have all := same []
        rw [List.nil_append, List.nil_append] at all
        rw [all] at there
        exact (rest late).2 whole j there
  · cases fetched

theorem Handed.stop (handed : m.Handed) (listening : m.phase = .listening) :
    { m with phase := .stopped }.Handed := by
  obtain ⟨ordered, known, backlog, few, -, late⟩ := handed
  rw [listening] at late
  exact ⟨ordered, known, backlog, few, nofun, fun _ => late rfl⟩

end Mailbox

/-! ## What becomes of a message -/

/-- The messages of what was put into queues. -/
def accepted (b : ZorkBot) : List IncomingMessage := b.gate.accepted.map fun i => i.ctx.message

theorem accepted_enqueue (ctx : Context) (command restArgs : Str) (g : Gate) :
    (g.enqueue ctx command restArgs).1.accepted.map (fun i => i.ctx.message) =
      g.accepted.map (fun i => i.ctx.message) ++
        if (g.enqueue ctx command restArgs).2 then [ctx.message] else [] := by
  simp only [Gate.enqueue]
  split
  · exact (List.append_nil _).symm
  · split
    · exact (List.append_nil _).symm
    · split <;> exact List.map_append

section

variable {cfg : ReceptionConfig} {clock : ℚ} {message : IncomingMessage} {b : ZorkBot}
  {cooldown : Cooldown}

theorem message_of_dispatchChannel {lower : Str → Str} {name : Str} {channel : Int} {ctx : Context}
    {command restArgs : Str}
    (enqueued : dispatchChannel lower name channel message = .enqueued ctx command restArgs) :
    ctx.message = message := by
  unfold dispatchChannel at enqueued
  split at enqueued
  · cases enqueued
  · split at enqueued
    · cases enqueued
    · dsimp only at enqueued
      split at enqueued
      · cases enqueued
      · cases enqueued
        rfl

theorem message_of_dispatchDm {lower : Str → Str} {name : Str} {ctx : Context}
    {command restArgs : Str}
    (enqueued : dispatchDm lower name message = .enqueued ctx command restArgs) :
    ctx.message = message := by
  unfold dispatchDm at enqueued
  dsimp only at enqueued
  split at enqueued
  · cases enqueued
  · split at enqueued <;>
    · cases enqueued
      rfl

/-- What the dispatch of a message leaves behind. -/
structure Dispatches (cfg : ReceptionConfig) (message : IncomingMessage) (b : ZorkBot) (h : Handler)
    (told : Dispatched) : Prop where
  path : (Bot.zorkbot cfg.setup).Path (fun _ _ => True) b told.bot
  accepted : accepted told.bot = accepted b ++ if told.queued then [message] else []
  direct : h = .dm → told.counting = .now
  channel : h = .channel → (told.counting = .now ↔ told.queued = true)
  quiet : ∀ call ∈ told.log, ∀ m, call ≠ .received m

/-- A message is put into a queue, or it is dropped. -/
theorem dispatches_enqueue {ctx : Context} {command restArgs : Str} (own : ctx.message = message)
    (h : Handler) (counting : Bool → CountRx) (direct : h = .dm → ∀ queued, counting queued = .now)
    (channel : h = .channel → ∀ queued, counting queued = .now ↔ queued = true) :
    Dispatches cfg message b h
      ⟨{ b with gate := (b.gate.enqueue ctx command restArgs).1 }, cooldown,
        counting (b.gate.enqueue ctx command restArgs).2,
        (b.gate.enqueue ctx command restArgs).2, []⟩ := by
  refine ⟨?_, ?_, fun dm => direct dm _, fun here => channel here _, fun call there => ?_⟩
  · exact .tail (a := .dispatch ctx command restArgs) (.refl b) trivial rfl
  · rw [← own]
    exact accepted_enqueue ctx command restArgs b.gate
  · cases there

/-- Nothing is put into a queue. -/
theorem dispatches_idle {h : Handler} {counting : CountRx} {log : List LogCall}
    (direct : h = .dm → counting = .now) (channel : h = .channel → counting ≠ .now)
    (quiet : ∀ call ∈ log, ∀ m, call ≠ .received m) :
    Dispatches cfg message b h ⟨b, cooldown, counting, false, log⟩ := by
  refine ⟨.refl b, ?_, direct, fun here => iff_of_false (channel here) nofun, quiet⟩
  rw [if_neg Bool.false_ne_true, List.append_nil]

theorem dispatches (h : Handler) :
    Dispatches cfg message b h (dispatched cfg clock message b cooldown h) := by
  have alone : ∀ call : LogCall, (∀ m, call ≠ .received m) →
      ∀ other ∈ [call], ∀ m, other ≠ .received m :=
    fun call other other' there => List.mem_singleton.mp there ▸ other
  have silent : ∀ call ∈ ([] : List LogCall), ∀ m, call ≠ .received m :=
    fun _ there => absurd there List.not_mem_nil
  cases h with
  | channel =>
      simp only [dispatched]
      split
      · exact dispatches_idle nofun (fun _ => nofun) silent
      · exact dispatches_idle nofun (fun _ => nofun) (alone _ fun _ => nofun)
      · next enqueued =>
          have own := message_of_dispatchChannel enqueued
          apply dispatches_enqueue own .channel (fun queued => if queued then .now else .never)
          · exact nofun
          · intro _ queued
            cases queued <;> simp
  | bots => exact dispatches_idle nofun nofun (alone _ fun _ => nofun)
  | dm =>
      simp only [dispatched]
      split
      · next enqueued =>
          have own := message_of_dispatchDm enqueued
          exact dispatches_enqueue own .dm (fun _ => .now) (fun _ _ => rfl) nofun
      · exact dispatches_idle (fun _ => rfl) nofun silent

end

end Zorkbot.Admin
